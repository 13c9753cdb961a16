import StreamConformance.Channel.Echo
import StreamConformance.Channel.Emitter
import StreamConformance.Channel.Gate
import StreamConformance.Channel.InitialPayload
import StreamConformance.Consumer

/-!
# Interactions

An interaction is the near side of one conversation with a peer: the consumer that receives
the peer's items and, for a channel, the producer whose items the peer receives.

The peer's objects are known by handles only: the subscription that it gives to the consumer,
and the receiver with which it subscribes to the producer.
-/

namespace StreamConformance

/-- Names an object of the far side: a stream on one of its connections. -/
structure Handle where
  connection : Nat
  stream : Nat := 0
  deriving DecidableEq

/-- What receives copies of a consumer's items. -/
inductive Target where
  /-- The echo of the same interaction. -/
  | echo
  /-- A recorder with a tag. -/
  | recorder (tag : String)
  deriving DecidableEq

/-- The consumer of an interaction.  A fire-and-forget interaction has no payloads. -/
inductive Receiver where
  | payloads (consumer : Consumer Payload Handle Target)
  | units (consumer : Consumer Unit Handle Target)

namespace Receiver

/-- What is still to be done after a section of a receiver. -/
structure Effect where
  ask : Option (Handle × Ask) := none
  /-- The target of a copy, and the payload, if the item has one. -/
  copy : Option (Target × Option Payload) := none
  wakes : Bool := false

/-- An effect of a consumer of payloads. -/
def Effect.ofPayloads (e : Consumer.Effect Payload Handle Target) : Effect :=
  { ask := e.ask, copy := e.copy.map fun c => (c.1, some c.2), wakes := e.wakes }

/-- An effect of a consumer of units. -/
def Effect.ofUnits (e : Consumer.Effect Unit Handle Target) : Effect :=
  { ask := e.ask, copy := e.copy.map fun c => (c.1, none), wakes := e.wakes }

/-- Run a section of the consumer, whichever its items are. -/
def atConsumer (f : {ι : Type} → Consumer ι Handle Target →
    Consumer ι Handle Target × Consumer.Effect ι Handle Target) : Receiver → Receiver × Effect
  | .payloads c => (.payloads (f c).1, .ofPayloads (f c).2)
  | .units c => (.units (f c).1, .ofUnits (f c).2)

/-- Look at the consumer, whichever its items are. -/
def view {α : Type} (f : {ι : Type} → Consumer ι Handle Target → α) : Receiver → α
  | .payloads c => f c
  | .units c => f c

/-- Change the consumer, whichever its items are, with nothing left to be done. -/
def modify (f : {ι : Type} → Consumer ι Handle Target → Consumer ι Handle Target) :
    Receiver → Receiver
  | .payloads c => .payloads (f c)
  | .units c => .units (f c)

/-- A signal to a consumer of units carries no payload. -/
def unitSignal : Signal Payload → Signal Unit
  | .next _ => .next ()
  | .complete => .complete
  | .error message => .error message

/-- The producer sends a signal. -/
def deliver (s : Signal Payload) : Receiver → Receiver × Effect
  | .payloads c => (.payloads (c.deliver s).1, .ofPayloads (c.deliver s).2)
  | .units c => (.units (c.deliver (unitSignal s)).1, .ofUnits (c.deliver (unitSignal s)).2)

/-- Evaluate an assertion and enter it.  Without payloads there are none to compare. -/
def check (k : Script.Check) : Receiver → Receiver × Bool
  | .payloads c =>
    let holds :=
      match k with
      | .received expected => c.hasValues expected
      | k => c.satisfies k
    (.payloads (c.record holds), holds)
  | .units c =>
    let holds := c.satisfies k
    (.units (c.record holds), holds)

/-- No assertion has failed. -/
def hasPassed (r : Receiver) : Bool :=
  r.view Consumer.hasPassed

end Receiver

/-- The producer of a channel whose items are written in a script. -/
structure ScriptedProducer where
  initial : InitialPayload
  emitter : Emitter := {}
  /-- The receiver that the peer subscribed with. -/
  remote : Option Handle := none
  /-- Fired with the peer's receiver once the peer holds the subscription. -/
  gate : Gate Handle := {}

/-- The producer of a channel that sends back what its consumer receives. -/
structure EchoProducer where
  initial : Payload
  echo : Echo := {}
  remote : Option Handle := none

/-- A producer that does nothing by itself and keeps what it is asked for. -/
structure ManualProducer where
  /-- Whether it gives out its subscription as soon as the peer subscribes. -/
  eager : Bool
  remote : Option Handle := none
  asked : List Ask := []

/-- The producer of an interaction. -/
inductive Producer where
  | absent
  | scripted (p : ScriptedProducer)
  | echo (p : EchoProducer)
  | manual (p : ManualProducer)

/-- The receiver with which the peer has subscribed to a producer. -/
def Producer.remote : Producer → Option Handle
  | .absent => none
  | .scripted p => p.remote
  | .echo p => p.remote
  | .manual p => p.remote

/-- The near side of a conversation with a peer. -/
structure Interaction where
  receiver : Receiver
  producer : Producer := .absent

end StreamConformance
