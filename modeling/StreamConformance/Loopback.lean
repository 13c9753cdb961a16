import StreamConformance.Client.Network
import StreamConformance.Responder

/-!
# Loopback

On a loopback every attempt to connect reaches a reference responder, which has a conversation
of its own for each connection; or every attempt is refused with the same fault.  The
responders work while the near side waits: what was written on a connection is carried to its
responder, and the answers are carried back.
-/

namespace StreamConformance

open Client (Network NetworkStep Connection)
open Responder (Conversation)

/-- A network whose connections lead to reference responders. -/
structure Loopback where
  /-- Why nothing can be reached, if nothing can. -/
  refusal : Option Fault := none
  network : Network := {}
  conversations : Array Conversation := #[]

namespace Loopback

/-- Connect to a new responder, or be refused. -/
def dial (l : Loopback) : Option (Loopback × Dial) :=
  let dialed : Except Fault Unit :=
    match l.refusal with
    | some fault => .error fault
    | none => .ok ()
  ({ l.network with dialed := some dialed } : Network).dial.map fun r =>
    ({ l with
        network := r.1
        conversations := if l.refusal.isNone then l.conversations.push {} else l.conversations },
      r.2)

/-- Whether something on a connection is still to be carried to its responder. -/
def isPending (c : Connection) (v : Conversation) : Bool :=
  v.ended.isNone && (!c.written.isEmpty || c.severed.isSome)

/-- The first connection on which something is to be carried. -/
def pending? (l : Loopback) : Option Nat :=
  (l.network.connections.zip l.conversations).findIdx? fun p => isPending p.1 p.2

/-- Carry to the responder of a connection what was written on it, and send the answers on
their way.  A conversation that is over ends the connection. -/
def carry (k : Nat) (l : Loopback) : Loopback :=
  match l.conversations[k]?, l.network.carry k with
  | none, _ => l
  | some v, (network, frames) =>
    let severed := ((network.connections[k]?).bind (·.severed)).isSome
    match v.receiveAll frames with
    | (v, replies) =>
      let v := if severed then v.finish none else v
      let arrivals :=
        replies.map .frame ++ if v.ended.isSome then [Client.Arrival.ended none] else []
      { l with
        conversations := l.conversations.setIfInBounds k v
        network := arrivals.foldl (fun n a => n.arrive k a) network }

/-- What happens while the near side waits. -/
def idle (l : Loopback) : Option (Loopback × List (Call NetworkStep)) :=
  match l.network.deliver with
  | some (network, calls) => some ({ l with network := network }, calls)
  | none => l.pending?.map fun k => (l.carry k, [])

/-- The loopback as a far side. -/
def environment : Environment Loopback NetworkStep where
  dial := dial
  react e l :=
    match l.network.react e with
    | (network, calls) => ({ l with network := network }, calls)
  idle := idle

end Loopback
end StreamConformance
