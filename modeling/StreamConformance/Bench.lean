import StreamConformance.Monitor
import StreamConformance.ScriptedPeer

/-!
# A consumer on the bench

A bench holds one consumer and lets scripted producers and its owner work on it, step by step.
A step may also be taken by a thread of its own, which waits if the step has to; the results
of such threads are collected later.
-/

namespace StreamConformance

/-- Something that is done to the consumer on the bench. -/
inductive BenchStep where
  /-- A producer with a plan offers its subscription. -/
  | subscribe (plan : Plan)
  /-- Copies of items go to a recorder with a tag from now on. -/
  | forward (tag : String)
  | signal (s : Signal Payload)
  | ask (a : Ask)
  /-- Wait, and tell nothing. -/
  | wait (w : Consumer.Waiting)
  /-- Wait, and tell whether that was reached which was waited for. -/
  | await (w : Consumer.Waiting)
  /-- Ask for items and wait until there are so many. -/
  | take (n : Nat)
  /-- Assert that nothing happens during a window; `told` says whether the result is told. -/
  | quiet (told : Bool)
  | check (k : Script.Check)
  /-- Assert that the items received are these; items without payload are `none`. -/
  | values (expected : List (Option Payload))
  /-- Enter an assertion that could not be evaluated. -/
  | reject
  | hasPassed

/-- What a step tells: nothing, or yes or no. -/
abbrev Told := Option Bool

/-- A consumer with its producers, and the threads that wait on it. -/
structure Bench where
  exchange : Exchange Stage
  /-- Waiting threads, with what they wait for and whether they tell the result. -/
  threads : List (Thread (Consumer.Waiting × Bool) Told) := []

namespace Bench

/-- Put a consumer on the bench. -/
def ofReceiver (r : Receiver) : Bench :=
  { exchange := { far := {}, interactions := #[{ receiver := r }] } }

/-- The consumer on the bench. -/
def receiver (b : Bench) : Receiver :=
  ((b.exchange.interactions[0]?).map (·.receiver)).getD
    (.units { label := "", initialDemand := 0 })

/-- Change the consumer. -/
def setReceiver (r : Receiver) (b : Bench) : Bench :=
  { b with exchange := b.exchange.put 0 { receiver := r } }

/-- Compare the items received with the ones expected, and enter the result. -/
def compare (expected : List (Option Payload)) : Receiver → Receiver × Bool
  | .payloads c =>
    let holds := c.values.map some == expected
    (.payloads (c.record holds), holds)
  | .units c =>
    let holds := c.values.map (fun _ => none) == expected
    (.units (c.record holds), holds)

/-- A waiting thread looks at the consumer. -/
def turn : Monitor.Turn Receiver (Consumer.Waiting × Bool) Told := fun todo r =>
  match r.view (Consumer.answer? todo.1) with
  | some b => (r, .inr (if todo.2 then some b else none))
  | none => (r, .inl todo)

/-- The threads on the consumer as a monitor. -/
def monitor (b : Bench) : Monitor Receiver (Consumer.Waiting × Bool) Told :=
  { state := b.receiver, threads := b.threads }

/-- Let the waiting threads look again. -/
def wake (b : Bench) : Bench :=
  { b with threads := (b.monitor.notifyAll.settle turn).threads }

/-- Perform tasks of the exchange. -/
def perform (fuel : Nat) (tasks : List (Task PeerStep)) (b : Bench) : Bench × Exchange.Ending :=
  match b.exchange.run Stage.environment fuel tasks with
  | (e, ending) => ({ b with exchange := e }.wake, ending)

/-- The part of a step before it may have to wait: the tasks to perform. -/
def tasks (b : Bench) : BenchStep → Bench × List (Task PeerStep)
  | .subscribe plan =>
    let k := b.exchange.far.peers.size
    let far := { b.exchange.far with peers := b.exchange.far.peers.push {} }
    let plan := { plan with rules := Plan.welcome :: plan.rules }
    match far.welcome k plan 0 with
    | (far, calls) =>
      ({ b with exchange := { b.exchange with far := far } }, calls.map .call)
  | .forward tag =>
    (b.setReceiver (b.receiver.modify (Consumer.setForward (.recorder tag))), [])
  | .signal s => (b, [.call (.signal 0 s)])
  | .ask a => (b, [.own 0 a])
  | .take n => (b, [.own 0 (.request n)])
  | _ => (b, [])

/-- What a step does at last: it waits, or tells something about the consumer, which it may
change. -/
def conclude (r : Receiver) : BenchStep → Receiver × ((Consumer.Waiting × Bool) ⊕ Told)
  | .wait w => (r, .inl (w, false))
  | .await w => (r, .inl (w, true))
  | .take n => (r, .inl (.atLeast n, true))
  | .quiet told => (r.modify (Consumer.record true), .inr (if told then some true else none))
  | .check k => ((r.check k).1, .inr (some (r.check k).2))
  | .values expected => ((compare expected r).1, .inr (some (compare expected r).2))
  | .reject => (r.modify (Consumer.record false), .inr (some false))
  | .hasPassed => (r, .inr (some r.hasPassed))
  | _ => (r, .inr none)

/-- Take a step on a thread of its own. -/
def spawn (fuel : Nat) (s : BenchStep) (b : Bench) : Bench × Exchange.Ending :=
  match b.tasks s with
  | (b, tasks) =>
    match b.perform fuel tasks with
    | (b, .done) =>
      match conclude b.receiver s with
      | (r, .inr told) =>
        ({ b.setReceiver r with threads := b.threads ++ [.returned told] }, .done)
      | (_, .inl todo) =>
        ({ b with threads := (Monitor.spawn turn todo b.monitor).threads }, .done)
    | (b, ending) => (b, ending)

/-- Take a step, and tell its result once the threads it wakes have looked at the consumer.
The result is `none` if the step would have to wait for ever. -/
def step (fuel : Nat) (s : BenchStep) (b : Bench) : Bench × Option Told × Exchange.Ending :=
  let waiting := b.threads
  match { b with threads := [] }.spawn fuel s with
  | (own, ending) =>
    let told := (own.threads.filterMap Thread.result?).head?
    ({ own with threads := waiting }.wake, told, ending)

/-- Take a step on a thread of its own while the consumer is watched for a window, and tell
whether nothing happened and what the step tells. -/
def stepDuringWindow (fuel : Nat) (s : BenchStep) (b : Bench) :
    Bench × Bool × Option Told × Exchange.Ending :=
  let baseline := b.receiver.view fun c => c.events
  match b.step fuel s with
  | (b, told, ending) =>
    let quiet := b.receiver.view (Consumer.isQuietSince baseline)
    (b.setReceiver (b.receiver.modify (Consumer.record quiet)), quiet, told, ending)

/-- Take the journal of the producers, who begin a new one. -/
def collect (b : Bench) : List Entry × Bench :=
  match b.exchange.collect with
  | (entries, e) => (entries, { b with exchange := e })

/-- Collect the results of the threads, in the order of their start. -/
def join (b : Bench) : Bench × List Told :=
  match b.monitor.join with
  | (results, m) => ({ b with threads := m.threads }, results)

end Bench
end StreamConformance
