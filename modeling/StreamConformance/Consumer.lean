import StreamConformance.Script.Command

/-!
# Consumers

A consumer receives the items of one stream.  It keeps them in order, keeps account of the
demand it has granted, of how the stream ended, and of the assertions that were made about it.

Every operation is one section under the consumer's lock: it changes the state, and what is
still to be called once the lock is released --- a subscription to be asked for items, a copy
of an item to be handed on --- is returned as an `Effect`, together with whether waiting
threads are notified.  Because the calls come after the lock is released, they may lead back
to the same consumer.

## The end of a stream

The first completion, error or cancellation ends the stream for its consumer; later signals
and requests change nothing.  A cancellation is the consumer's own doing and does not count as
an event.  Demand granted before a producer has subscribed is held and signalled with the
initial demand.
-/

namespace StreamConformance

open Script (Wait Check)

/-- How a stream ended for its consumer. -/
inductive Terminal where
  | completed
  | errored (message : String)
  | canceled
  deriving DecidableEq

/-- How many assertions held and how many did not. -/
structure Ledger where
  passed : UInt32 := 0
  failed : UInt32 := 0
  deriving DecidableEq

/-- Enter an assertion. -/
def Ledger.enter (l : Ledger) (holds : Bool) : Ledger :=
  if holds then { l with passed := l.passed + 1 } else { l with failed := l.failed + 1 }

/-- The consumer of a stream of items `ι`.  Its producer's subscription is of type `η`, and
what receives copies of its items of type `φ`. -/
structure Consumer (ι η φ : Type) where
  label : String
  /-- The demand signalled as soon as a producer subscribes. -/
  initialDemand : Nat
  /-- The items, the last one first. -/
  reversed : List ι := []
  received : Nat := 0
  /-- Items, and the completion or error. -/
  events : Nat := 0
  /-- Demand that was signalled to the producer and not yet used by an item. -/
  outstanding : Nat := 0
  /-- Demand that waits for the producer. -/
  pending : Nat := 0
  terminal : Option Terminal := none
  subscription : Option η := none
  forward : Option φ := none
  ledger : Ledger := {}

namespace Consumer

variable {ι η φ : Type}

/-- What is still to be done when a section is over and the lock is released. -/
structure Effect (ι η φ : Type) where
  /-- Ask a subscription. -/
  ask : Option (η × Ask) := none
  /-- Hand on a copy of an item. -/
  copy : Option (φ × ι) := none
  /-- Waiting threads are notified. -/
  wakes : Bool := false

/-- A section that leaves nothing to be done. -/
def Effect.none : Effect ι η φ := {}

/-- The items, in the order in which they came. -/
def values (c : Consumer ι η φ) : List ι :=
  c.reversed.reverse

/-- The consumer has seen the end of its stream. -/
def isTerminated (c : Consumer ι η φ) : Bool :=
  c.terminal.isSome

/-- The consumer has ended its stream itself. -/
def isCanceled (c : Consumer ι η φ) : Bool :=
  c.terminal == some .canceled

/-- Hand a copy of every item to `target` from now on. -/
def setForward (target : φ) (c : Consumer ι η φ) : Consumer ι η φ :=
  { c with forward := some target }

/-- Grant `n` more items. -/
def request (n : Nat) (c : Consumer ι η φ) : Consumer ι η φ × Effect ι η φ :=
  if n == 0 || c.isTerminated then (c, {})
  else
    match c.subscription with
    | some h =>
      ({ c with outstanding := Demand.add c.outstanding n }, { ask := some (h, .request n) })
    | none => ({ c with pending := Demand.add c.pending n }, {})

/-- End the stream, unless it has ended. -/
def cancel (c : Consumer ι η φ) : Consumer ι η φ × Effect ι η φ :=
  if c.isTerminated then (c, {})
  else
    ({ c with terminal := some .canceled, subscription := none },
      { ask := c.subscription.map fun h => (h, .cancel), wakes := true })

/-- Do what the consumer's owner asks for. -/
def demand (a : Ask) (c : Consumer ι η φ) : Consumer ι η φ × Effect ι η φ :=
  match a with
  | .request n => c.request n
  | .cancel => c.cancel

/-- A producer offers its subscription.  A consumer has one subscription at a time, and none
after it canceled; the subscription that is turned down is canceled. -/
def subscribed (h : η) (c : Consumer ι η φ) : Consumer ι η φ × Effect ι η φ :=
  if c.isCanceled || c.subscription.isSome then (c, { ask := some (h, .cancel) })
  else
    let n := Demand.add c.initialDemand c.pending
    ({ c with subscription := some h, pending := 0, outstanding := Demand.add c.outstanding n },
      { ask := if 0 < n then some (h, .request n) else none })

/-- The producer delivers an item.  It is accepted even without demand. -/
def next (item : ι) (c : Consumer ι η φ) : Consumer ι η φ × Effect ι η φ :=
  if c.isTerminated then (c, {})
  else
    ({ c with
        reversed := item :: c.reversed
        received := c.received + 1
        events := c.events + 1
        outstanding := c.outstanding - 1 },
      { copy := c.forward.map fun target => (target, item), wakes := true })

/-- The producer ends the stream. -/
def terminate (t : Terminal) (c : Consumer ι η φ) : Consumer ι η φ × Effect ι η φ :=
  if c.isTerminated then (c, {})
  else
    ({ c with terminal := some t, events := c.events + 1, subscription := none }, { wakes := true })

/-- The producer sends a signal. -/
def deliver (s : Signal ι) (c : Consumer ι η φ) : Consumer ι η φ × Effect ι η φ :=
  match s with
  | .next item => c.next item
  | .complete => c.terminate .completed
  | .error message => c.terminate (.errored message)

/-! ### Assertions -/

/-- Enter an assertion into the ledger. -/
def record (holds : Bool) (c : Consumer ι η φ) : Consumer ι η φ :=
  { c with ledger := c.ledger.enter holds }

/-- No assertion has failed. -/
def hasPassed (c : Consumer ι η φ) : Bool :=
  c.ledger.failed == 0

/-- Whether an assertion about the state holds.  The payloads received are no part of it. -/
def satisfies (check : Check) (c : Consumer ι η φ) : Bool :=
  match check, c.terminal with
  | .noError, some (.errored _) => false
  | .noError, _ => true
  | .error, some (.errored _) => true
  | .error, _ => false
  | .completed, t => t == some .completed
  | .notCompleted, t => t != some .completed
  | .canceled, t => t == some .canceled
  | .receivedCount n, _ => c.received == n
  | .receivedAtLeast n, _ => n ≤ c.received
  | .received _, _ => false

/-- Whether the items received are these, in this order. -/
def hasValues [DecidableEq ι] (expected : List ι) (c : Consumer ι η φ) : Bool :=
  c.values == expected

/-! ### Waiting -/

/-- What a waiting thread waits for. -/
inductive Waiting where
  | terminal
  | atLeast (n : Nat)
  deriving DecidableEq

/-- What a wait returns, once it is over: whether that was reached which was waited for. -/
def answer? (w : Waiting) (c : Consumer ι η φ) : Option Bool :=
  match w with
  | .terminal => if c.isTerminated then some true else none
  | .atLeast n => if n ≤ c.received then some true else if c.isTerminated then some false else none

/-- Whether nothing has happened since there were `baseline` events. -/
def isQuietSince (baseline : Nat) (c : Consumer ι η φ) : Bool :=
  c.events == baseline

end Consumer
end StreamConformance
