import StreamConformance.Client.Connection

/-!
# Networks

A network is the far side of exchanges that go over connections.  What it cannot know by
itself comes to it from outside: what became of an attempt to connect, and what has arrived on
its connections.  What arrives waits in transit until the near side waits, and is then handed
over in the order of its arrival.
-/

namespace StreamConformance
namespace Client

/-- What arrives on a connection. -/
inductive Arrival where
  | frame (f : Wire.Frame)
  /-- The end, with the fault that the bytes before it end in, if any. -/
  | ended (fault : Option Fault)
  deriving DecidableEq

/-- The reason with which consumers fail at the end of a connection. -/
def endReason : Option Fault → String
  | none => "connection closed by peer"
  | some fault => "connection failed: " ++ fault.message

/-- The step that an arrival leads to. -/
def Arrival.step : Arrival → Step
  | .frame f => .receive f
  | .ended fault => .close (endReason fault)

/-- A step of one of the connections. -/
structure NetworkStep where
  connection : Nat
  step : Step
  deriving DecidableEq

/-- Connections, and what has come from outside. -/
structure Network where
  connections : Array Connection := #[]
  /-- What became of the attempt to connect, once that is known. -/
  dialed : Option (Except Fault Unit) := none
  /-- What has arrived, with the connections on which it did. -/
  transit : List (Nat × Arrival) := []

namespace Network

/-- Let a connection do something. -/
def withConnection (k : Nat) (f : Connection → Connection.Result) (n : Network) :
    Network × List (Call NetworkStep) :=
  match n.connections[k]? with
  | none => (n, [])
  | some c =>
    ({ n with connections := n.connections.setIfInBounds k (f c).1 },
      (f c).2.map (Call.map fun s => ⟨k, s⟩))

/-- How the connections react. -/
def react (e : Event NetworkStep) (n : Network) : Network × List (Call NetworkStep) :=
  match e with
  | .opened k kind payload i => n.withConnection k (Connection.opened kind payload i)
  | .openedChannel k i => n.withConnection k (Connection.openedChannel i)
  | .asked h a => n.withConnection h.connection (Connection.asked h.stream a)
  | .attached r _ => n.withConnection r.connection (Connection.attached r.stream)
  | .heard r signal => n.withConnection r.connection (Connection.heard r.stream signal)
  | .copied _ _ => (n, [])
  | .released k => n.withConnection k (Connection.react (.released k))
  | .resumed s => n.withConnection s.connection (Connection.step s.step)

/-- Make a connection, once the attempt has succeeded. -/
def dial (n : Network) : Option (Network × Dial) :=
  n.dialed.map fun
    | .ok () =>
      let k := n.connections.size
      ({ n with dialed := none, connections := n.connections.push { number := k } },
        .connected k)
    | .error fault => ({ n with dialed := none }, .refused fault)

/-- Something arrives on a connection. -/
def arrive (k : Nat) (a : Arrival) (n : Network) : Network :=
  { n with transit := n.transit ++ [(k, a)] }

/-- Hand over what arrived first.  After its end nothing is read from a connection. -/
def deliver (n : Network) : Option (Network × List (Call NetworkStep)) :=
  match n.transit with
  | [] => none
  | (k, a) :: transit =>
    let ended := ((n.connections[k]?).map (·.closed)).getD true
    some ({ n with transit := transit }, if ended then [] else [.resume ⟨k, a.step⟩])

/-- Carry away what was written on a connection. -/
def carry (k : Nat) (n : Network) : Network × List Wire.Frame :=
  match n.connections[k]? with
  | none => (n, [])
  | some c =>
    ({ n with connections := n.connections.setIfInBounds k { c with written := [] } }, c.written)

/-- The connections as a far side. -/
def environment : Environment Network NetworkStep where
  dial := dial
  react := react
  idle := deliver

end Network
end Client
end StreamConformance
