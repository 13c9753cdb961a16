import StreamConformance.Wire.Frame

/-!
# The reference responder

The reference responder is the peer that scripts are written for.  On one connection it
answers every stream by the kind of its request:

* a request with one answer by its own payload;
* a request for a stream by its payload, `streamLength` times;
* a subscription by its payload, for as long as there is demand;
* a channel by an echo of what it receives.

A request whose payload asks for an error gets an error; channels and messages do not look at
it.  A channel's client may send `channelCredit` items, and gets as much again each time so
many were received.  A message with the shutdown payload ends the connection.

`Responder.handle` says what a frame is answered with if everything can be written;
`Conversation` adds that writing stops at a frame that is too large, which ends the connection
with a fault.
-/

namespace StreamConformance

open Wire (Frame)

namespace Responder

/-- How many items a stream has. -/
def streamLength : Nat := 3

/-- How many items the client of a channel may send before it gets more credit. -/
def channelCredit : Nat := 256

/-- The echo of a channel. -/
structure EchoChannel where
  queue : List Payload
  demand : Nat
  /-- The items received so far. -/
  received : Nat
  /-- The client has completed. -/
  clientDone : Bool := false
  deriving DecidableEq

/-- What the responder does on a stream. -/
inductive Activity where
  | stream (remaining : Nat) (payload : Payload) (demand : Nat)
  | subscription (payload : Payload) (demand : Nat)
  | channel (c : EchoChannel)
  deriving DecidableEq

/-- More demand for an activity. -/
def Activity.grant (n : Nat) : Activity → Activity
  | .stream remaining payload demand => .stream remaining payload (Demand.add demand n)
  | .subscription payload demand => .subscription payload (Demand.add demand n)
  | .channel c => .channel { c with demand := Demand.add c.demand n }

/-- Send what demand allows.  What is left of the activity is returned, if anything is. -/
def Activity.flush (stream : UInt32) : Activity → Option Activity × List Frame
  | .stream remaining payload demand =>
    let n := min demand remaining
    let items := List.replicate n (.next stream payload)
    if remaining - n == 0 then (none, items ++ [.complete stream])
    else (some (.stream (remaining - n) payload (demand - n)), items)
  | .subscription payload demand =>
    (some (.subscription payload 0), List.replicate demand (.next stream payload))
  | .channel c =>
    let items := (c.queue.take c.demand).map (.next stream)
    let queue := c.queue.drop c.demand
    if c.clientDone && queue.isEmpty then (none, items ++ [.complete stream])
    else (some (.channel { c with queue := queue, demand := c.demand - items.length }), items)

end Responder

/-- The responder's side of a connection: its activities by their streams. -/
structure Responder where
  activities : List (UInt32 × Responder.Activity) := []

namespace Responder

/-- The activity on a stream. -/
def find? (stream : UInt32) (r : Responder) : Option Activity :=
  (r.activities.find? (·.1 == stream)).map Prod.snd

/-- End the activity on a stream. -/
def erase (stream : UInt32) (r : Responder) : Responder :=
  { activities := r.activities.filter (·.1 != stream) }

/-- Begin an activity on a stream, in place of any before. -/
def insert (stream : UInt32) (a : Activity) (r : Responder) : Responder :=
  { activities := (stream, a) :: (r.erase stream).activities }

/-- Change the activity on a stream, if there is one. -/
def modify (stream : UInt32) (f : Activity → Activity) (r : Responder) : Responder :=
  match r.find? stream with
  | some a => r.insert stream (f a)
  | none => r

/-- Send what demand allows on a stream. -/
def flush (stream : UInt32) (r : Responder) : Responder × List Frame :=
  match r.find? stream with
  | none => (r, [])
  | some a =>
    match a.flush stream with
    | (some a, frames) => (r.insert stream a, frames)
    | (none, frames) => (r.erase stream, frames)

/-- Begin an activity on a stream with what demand allows, unless the payload asks for an
error. -/
def start (stream : UInt32) (payload : Payload) (a : Activity) (r : Responder) :
    Responder × List Frame :=
  if payload.asksForError then (r, [.error stream payload.requestedError])
  else (r.insert stream a).flush stream

/-- The client of a channel has sent an item; the credit that it gets for that comes before
the echo. -/
def receiveItem (stream : UInt32) (payload : Payload) (r : Responder) : Responder × List Frame :=
  match r.find? stream with
  | some (.channel c) =>
    let received := c.received + 1
    let c := { c with queue := c.queue ++ [payload], received := received }
    let credit : List Frame :=
      if received % channelCredit == 0 then [.requestN stream channelCredit] else []
    match (r.insert stream (.channel c)).flush stream with
    | (r, frames) => (r, credit ++ frames)
  | _ => r.flush stream

/-- The client of a channel has completed. -/
def Activity.clientCompletes : Activity → Activity
  | .channel c => .channel { c with clientDone := true }
  | a => a

/-- Answer a frame, and tell whether the connection goes on. -/
def handle (f : Frame) (r : Responder) : Responder × List Frame × Bool :=
  match f with
  | .requestResponse stream payload =>
    (r, if payload.asksForError then [.error stream payload.requestedError]
      else [.next stream payload, .complete stream], true)
  | .requestStream stream n payload =>
    match r.start stream payload (.stream streamLength payload n) with
    | (r, frames) => (r, frames, true)
  | .requestSubscription stream n payload =>
    match r.start stream payload (.subscription payload n) with
    | (r, frames) => (r, frames, true)
  | .fireAndForget _ payload => (r, [], !payload.isShutdown)
  | .requestChannel stream n payload =>
    let c : EchoChannel := { queue := [payload], demand := n, received := 1 }
    match (r.insert stream (.channel c)).flush stream with
    | (r, frames) => (r, .requestN stream channelCredit :: frames, true)
  | .next stream payload =>
    match r.receiveItem stream payload with
    | (r, frames) => (r, frames, true)
  | .complete stream =>
    match (r.modify stream Activity.clientCompletes).flush stream with
    | (r, frames) => (r, frames, true)
  | .error stream _ => (r.erase stream, [], true)
  | .requestN stream n =>
    match (r.modify stream (Activity.grant n)).flush stream with
    | (r, frames) => (r, frames, true)
  | .cancel stream => (r.erase stream, [], true)

/-- How a conversation ended: by the client, or by a fault. -/
abbrev Ended := Except Fault Unit

/-- One connection of the responder. -/
structure Conversation where
  responder : Responder := {}
  ended : Option Ended := none

/-- The frames that are written out of some: all of them up to the first that is too large. -/
def written : List Frame → List Frame × Option Fault
  | [] => ([], none)
  | f :: frames =>
    match f.encode with
    | .error fault => ([], some fault)
    | .ok _ =>
      match written frames with
      | (frames, fault) => (f :: frames, fault)

namespace Conversation

/-- A frame arrives from the client. -/
def receive (f : Frame) (c : Conversation) : Conversation × List Frame :=
  if c.ended.isSome then (c, [])
  else
    match c.responder.handle f with
    | (r, frames, goesOn) =>
      match written frames with
      | (frames, some fault) => ({ responder := r, ended := some (.error fault) }, frames)
      | (frames, none) =>
        ({ responder := r, ended := if goesOn then none else some (.ok ()) }, frames)

/-- Frames arrive from the client, one after another. -/
def receiveAll (frames : List Frame) (c : Conversation) : Conversation × List Frame :=
  frames.foldl
    (fun acc f =>
      match acc.1.receive f with
      | (c, replies) => (c, acc.2 ++ replies))
    (c, [])

/-- The bytes of the client end, with a fault if they do not end between frames. -/
def finish (fault : Option Fault) (c : Conversation) : Conversation :=
  match c.ended with
  | some _ => c
  | none =>
    { c with
      ended :=
        some (match fault with
          | some fault => .error fault
          | none => .ok ()) }

end Conversation
end Responder
end StreamConformance
