import StreamConformance.Consumer

/-!
# Runs of a consumer

A consumer is used by its producer, by its owner and by whoever asserts something about it, in any
order and from any thread.  Each use is an `Operation`: one section under the consumer's lock, and
then what it leaves to be done.

What it leaves to be done may lead back to the consumer before the call returns: a subscription
that is asked delivers at once, and what receives a copy of an item may ask for the next one.  An
`Invocation` is a call with those that are nested in it, to any depth.  Since nothing of a call
comes after those that are nested in it, nested calls are their operations one after another, in
the order in which the calls begin (`calls_eq`); so are calls of several threads.

What one operation does to a consumer is said once, guards included: `Becomes`, `becomes_perform`.
-/

namespace StreamConformance
namespace Consumer

variable {ι η φ : Type}

/-- What is done with a consumer.  An assertion is entered with its outcome, whatever was
asserted. -/
inductive Operation (ι η φ : Type) where
  | subscribed (h : η)
  | deliver (s : Signal ι)
  | demand (a : Ask)
  | record (holds : Bool)
  | setForward (target : φ)

/-- The section of an operation, and what it leaves to be done. -/
def perform (c : Consumer ι η φ) : Operation ι η φ → Consumer ι η φ × Effect ι η φ
  | .subscribed h => c.subscribed h
  | .deliver s => c.deliver s
  | .demand a => c.demand a
  | .record holds => (c.record holds, {})
  | .setForward target => (c.setForward target, {})

namespace Operation

/-- How the stream ends with an operation, unless it has ended before. -/
def terminal? : Operation ι η φ → Option Terminal
  | .deliver .complete => some .completed
  | .deliver (.error message) => some (.errored message)
  | .demand .cancel => some .canceled
  | _ => none

/-- The item that is delivered by an operation. -/
def item? : Operation ι η φ → Option ι
  | .deliver (.next item) => some item
  | _ => none

/-- The demand that is granted by an operation. -/
def granted : Operation ι η φ → Nat
  | .demand (.request n) => n
  | _ => 0

/-- A producer offers its subscription. -/
def isOffer : Operation ι η φ → Bool
  | .subscribed _ => true
  | _ => false

/-- The outcome of an assertion. -/
def outcome? : Operation ι η φ → Option Bool
  | .record holds => some holds
  | _ => none

end Operation

/-! ## What one operation does -/

/-- What becomes of a consumer with an operation, and what is asked of a subscription. -/
inductive Becomes (c : Consumer ι η φ) :
    Operation ι η φ → Consumer ι η φ → Option (η × Ask) → Prop where
  | late (s : Signal ι) (hterm : c.terminal ≠ none) : Becomes c (.deliver s) c none
  | tooLate (a : Ask) (hterm : c.terminal ≠ none) : Becomes c (.demand a) c none
  | taken (item : ι) (hterm : c.terminal = none) :
      Becomes c (.deliver (.next item))
        { c with
          reversed := item :: c.reversed
          received := c.received + 1
          events := c.events + 1
          outstanding := c.outstanding - 1 } none
  | completed (hterm : c.terminal = none) :
      Becomes c (.deliver .complete)
        { c with terminal := some .completed, events := c.events + 1, subscription := none } none
  | failed (message : String) (hterm : c.terminal = none) :
      Becomes c (.deliver (.error message))
        { c with
          terminal := some (.errored message)
          events := c.events + 1
          subscription := none } none
  | canceled (hterm : c.terminal = none) :
      Becomes c (.demand .cancel) { c with terminal := some .canceled, subscription := none }
        (c.subscription.map fun h => (h, .cancel))
  | nothing (hterm : c.terminal = none) : Becomes c (.demand (.request 0)) c none
  | asked {n : Nat} {h : η} (hn : n ≠ 0) (hterm : c.terminal = none)
      (hsub : c.subscription = some h) :
      Becomes c (.demand (.request n)) { c with outstanding := Demand.add c.outstanding n }
        (some (h, .request n))
  | held {n : Nat} (hn : n ≠ 0) (hterm : c.terminal = none) (hsub : c.subscription = none) :
      Becomes c (.demand (.request n)) { c with pending := Demand.add c.pending n } none
  | accepted (h : η) (hterm : c.terminal ≠ some .canceled) (hsub : c.subscription = none) :
      Becomes c (.subscribed h)
        { c with
          subscription := some h
          pending := 0
          outstanding := Demand.add c.outstanding (Demand.add c.initialDemand c.pending) }
        (if 0 < Demand.add c.initialDemand c.pending then
          some (h, .request (Demand.add c.initialDemand c.pending)) else none)
  | turnedDown (h : η) (hbusy : c.terminal = some .canceled ∨ c.subscription ≠ none) :
      Becomes c (.subscribed h) c (some (h, .cancel))
  | recorded (holds : Bool) :
      Becomes c (.record holds) { c with ledger := c.ledger.enter holds } none
  | forwarded (target : φ) : Becomes c (.setForward target) { c with forward := some target } none

theorem isTerminated_eq_false {c : Consumer ι η φ} :
    c.isTerminated = false ↔ c.terminal = none := by
  simp [isTerminated]

theorem isTerminated_eq_true {c : Consumer ι η φ} : c.isTerminated = true ↔ c.terminal ≠ none := by
  simp [isTerminated, Option.isSome_iff_ne_none]

theorem Becomes.of_deliver (c : Consumer ι η φ) (s : Signal ι) :
    Becomes c (.deliver s) (c.deliver s).1 (c.deliver s).2.ask := by
  by_cases hterm : c.terminal = none
  · have hactive := isTerminated_eq_false.mpr hterm
    cases s with
    | next item =>
      simp only [deliver, next, hactive]
      exact .taken item hterm
    | complete =>
      simp only [deliver, terminate, hactive]
      exact .completed hterm
    | error message =>
      simp only [deliver, terminate, hactive]
      exact .failed message hterm
  · have hdone := isTerminated_eq_true.mpr hterm
    have hlate : c.deliver s = (c, {}) := by
      cases s <;> simp only [deliver, next, terminate, hdone, if_true]
    rw [hlate]
    exact .late s hterm

theorem Becomes.of_demand (c : Consumer ι η φ) (a : Ask) :
    Becomes c (.demand a) (c.demand a).1 (c.demand a).2.ask := by
  by_cases hterm : c.terminal = none
  · have hactive := isTerminated_eq_false.mpr hterm
    cases a with
    | cancel =>
      simp only [demand, cancel, hactive]
      exact .canceled hterm
    | request n =>
      by_cases hn : n = 0
      · subst hn
        exact .nothing hterm
      · have hguard : (n == 0 || c.isTerminated) = false := by simp [hn, hactive]
        simp only [demand, request, hguard, Bool.false_eq_true, if_false]
        split
        · exact .asked hn hterm ‹_›
        · exact .held hn hterm ‹_›
  · have hdone := isTerminated_eq_true.mpr hterm
    have hlate : c.demand a = (c, {}) := by
      cases a <;> simp only [demand, cancel, request, hdone, Bool.or_true, if_true]
    rw [hlate]
    exact .tooLate a hterm

theorem Becomes.of_subscribed (c : Consumer ι η φ) (h : η) :
    Becomes c (.subscribed h) (c.subscribed h).1 (c.subscribed h).2.ask := by
  by_cases hbusy : (c.isCanceled || c.subscription.isSome) = true
  · simp only [Consumer.subscribed, hbusy]
    refine .turnedDown h ?_
    simpa [isCanceled, Option.isSome_iff_ne_none] using hbusy
  · simp only [Consumer.subscribed, hbusy]
    have hfree : c.terminal ≠ some .canceled ∧ c.subscription = none := by
      simpa [isCanceled] using hbusy
    exact .accepted h hfree.1 hfree.2

/-- **What one operation does.** -/
theorem becomes_perform (c : Consumer ι η φ) (op : Operation ι η φ) :
    Becomes c op (c.perform op).1 (c.perform op).2.ask := by
  cases op with
  | subscribed h => exact .of_subscribed c h
  | deliver s => exact .of_deliver c s
  | demand a => exact .of_demand c a
  | record holds => exact .recorded holds
  | setForward target => exact .forwarded target

/-! ## Runs -/

/-- A consumer, and what it has asked of subscriptions, from first to last. -/
structure Run (ι η φ : Type) where
  consumer : Consumer ι η φ
  asked : List (η × Ask) := []

/-- A consumer with which nothing has been done. -/
def Run.start (label : String) (initialDemand : Nat) : Run ι η φ where
  consumer := { label := label, initialDemand := initialDemand }

/-- One more operation. -/
def Run.after (r : Run ι η φ) (op : Operation ι η φ) : Run ι η φ where
  consumer := (r.consumer.perform op).1
  asked := r.asked ++ (r.consumer.perform op).2.ask.toList

theorem Run.after_eq (r : Run ι η φ) (op : Operation ι η φ) :
    ∃ c a, Becomes r.consumer op c a ∧ r.after op = ⟨c, r.asked ++ a.toList⟩ :=
  ⟨_, _, becomes_perform r.consumer op, rfl⟩

/-- Operations one after another. -/
def Run.afterAll (r : Run ι η φ) (ops : List (Operation ι η φ)) : Run ι η φ :=
  ops.foldl Run.after r

@[simp] theorem Run.afterAll_nil (r : Run ι η φ) : r.afterAll [] = r := rfl

@[simp] theorem Run.afterAll_cons (r : Run ι η φ) (op : Operation ι η φ)
    (ops : List (Operation ι η φ)) : r.afterAll (op :: ops) = (r.after op).afterAll ops := rfl

theorem Run.afterAll_append (r : Run ι η φ) (ops later : List (Operation ι η φ)) :
    r.afterAll (ops ++ later) = (r.afterAll ops).afterAll later :=
  List.foldl_append

/-! ## Nested calls -/

/-- A call, and the calls that lead back to the consumer before it returns. -/
inductive Invocation (ι η φ : Type) where
  | of (op : Operation ι η φ) (nested : List (Invocation ι η φ))

mutual

/-- Make a call: first its section, and then what is nested in it. -/
def Run.call (r : Run ι η φ) : Invocation ι η φ → Run ι η φ
  | .of op nested => Run.calls (r.after op) nested

/-- Make calls one after another. -/
def Run.calls (r : Run ι η φ) : List (Invocation ι η φ) → Run ι η φ
  | [] => r
  | i :: is => Run.calls (r.call i) is

end

mutual

/-- The operations of a call and of those that are nested in it, in the order in which they
begin. -/
def Invocation.operations : Invocation ι η φ → List (Operation ι η φ)
  | .of op nested => op :: operationsOf nested

/-- The operations of calls that are made one after another. -/
def operationsOf : List (Invocation ι η φ) → List (Operation ι η φ)
  | [] => []
  | i :: is => i.operations ++ operationsOf is

end

mutual

theorem Run.call_eq (r : Run ι η φ) (i : Invocation ι η φ) :
    r.call i = r.afterAll i.operations := by
  cases i with
  | of op nested => exact Run.calls_eq (r.after op) nested

/-- **Nested calls are their operations one after another.** -/
theorem Run.calls_eq (r : Run ι η φ) (is : List (Invocation ι η φ)) :
    r.calls is = r.afterAll (operationsOf is) := by
  cases is with
  | nil => rfl
  | cons i is =>
    show (r.call i).calls is = r.afterAll (i.operations ++ operationsOf is)
    rw [Run.call_eq r i, Run.calls_eq _ is, Run.afterAll_append]

end

end Consumer
end StreamConformance
