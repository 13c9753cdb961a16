/-!
# Monitors

A monitor is a state that is looked at and changed only by one thread at a time, and a
condition that threads wait for.  A thread that finds its condition false parks, and goes on
only after it was notified; then it looks again, and may have to park once more.  So what
keeps a thread waiting is not the state alone but the notifications since it parked.

What a thread does in its turn is a parameter: `Turn` says, for the work that a thread has
left and the state it finds, how the state changes and whether the thread returns or parks
with the work that is then left.
-/

namespace StreamConformance

/-- A thread that waits, or has returned. -/
inductive Thread (τ ρ : Type) where
  /-- Waiting to go on with `todo`; `notified` says whether it has been told to look again. -/
  | parked (todo : τ) (notified : Bool)
  | returned (result : ρ)

namespace Thread

variable {τ ρ : Type}

/-- What has become of a thread after a turn. -/
def after : τ ⊕ ρ → Thread τ ρ
  | .inl todo => .parked todo false
  | .inr result => .returned result

/-- Tell a thread to look again. -/
def notify : Thread τ ρ → Thread τ ρ
  | .parked todo _ => .parked todo true
  | .returned result => .returned result

/-- The result of a thread that has returned. -/
def result? : Thread τ ρ → Option ρ
  | .parked _ _ => none
  | .returned result => some result

end Thread

/-- A state and the threads that came to wait on it, in the order of their start. -/
structure Monitor (σ τ ρ : Type) where
  state : σ
  threads : List (Thread τ ρ) := []

namespace Monitor

variable {σ τ ρ : Type}

/-- What a thread does when it looks at the state: it parks with the work that is left, or it
returns. -/
abbrev Turn (σ τ ρ : Type) := τ → σ → σ × (τ ⊕ ρ)

/-- Start a thread, which looks at the state at once. -/
def spawn (turn : Turn σ τ ρ) (todo : τ) (m : Monitor σ τ ρ) : Monitor σ τ ρ :=
  { state := (turn todo m.state).1
    threads := m.threads ++ [Thread.after (turn todo m.state).2] }

/-- Tell all waiting threads to look again. -/
def notifyAll (m : Monitor σ τ ρ) : Monitor σ τ ρ :=
  { m with threads := m.threads.map Thread.notify }

/-- Change the state, and notify the waiting threads if the change calls for it. -/
def update (state : σ) (wakes : Bool) (m : Monitor σ τ ρ) : Monitor σ τ ρ :=
  if wakes then notifyAll { m with state := state } else { m with state := state }

/-- Give a turn to every thread that was notified, in the order of their start. -/
def settleThreads (turn : Turn σ τ ρ) : σ → List (Thread τ ρ) → σ × List (Thread τ ρ)
  | s, [] => (s, [])
  | s, .parked todo true :: threads =>
    match turn todo s with
    | (s, left) =>
      match settleThreads turn s threads with
      | (s, threads) => (s, Thread.after left :: threads)
  | s, thread :: threads =>
    match settleThreads turn s threads with
    | (s, threads) => (s, thread :: threads)

/-- Let the notified threads look again, until each has parked or returned. -/
def settle (turn : Turn σ τ ρ) (m : Monitor σ τ ρ) : Monitor σ τ ρ :=
  match settleThreads turn m.state m.threads with
  | (s, threads) => { state := s, threads := threads }

/-- Collect the results of the threads that have returned, in the order of their start. -/
def join (m : Monitor σ τ ρ) : List ρ × Monitor σ τ ρ :=
  (m.threads.filterMap Thread.result?,
    { m with threads := m.threads.filter fun t => t.result?.isNone })

/-- Whether some thread is still waiting. -/
def isWaiting (m : Monitor σ τ ρ) : Bool :=
  m.threads.any fun t => t.result?.isNone

end Monitor
end StreamConformance
