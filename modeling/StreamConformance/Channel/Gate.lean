import StreamConformance.Monitor

/-!
# Gates

A gate is fired once with a value.  Whoever waits at it, before or after, gets that value;
firing it again changes nothing.
-/

namespace StreamConformance

/-- A cell that is filled at most once. -/
structure Gate (α : Type) where
  slot : Option α := none

namespace Gate

variable {α : Type}

/-- Whether the gate was fired. -/
def isFired (g : Gate α) : Bool :=
  g.slot.isSome

/-- Fire the gate with a value, and tell whether that was the first time. -/
def fire (v : α) (g : Gate α) : Gate α × Bool :=
  match g.slot with
  | some _ => (g, false)
  | none => ({ slot := some v }, true)

@[simp] theorem slot_fire (v : α) (g : Gate α) : (g.fire v).1.slot = some (g.slot.getD v) := by
  cases h : g.slot <;> simp [fire, h]

/-- A thread that waits at the gate returns its value as soon as there is one. -/
def turn : Monitor.Turn (Gate α) Unit α := fun _ g =>
  match g.slot with
  | some v => (g, .inr v)
  | none => (g, .inl ())

/-- A gate and the threads that wait at it. -/
abbrev Waiters (α : Type) := Monitor (Gate α) Unit α

/-- Fire the gate, which wakes the waiting threads if it is the first time. -/
def Waiters.fire (v : α) (m : Waiters α) : Waiters α × Bool :=
  let (g, first) := m.state.fire v
  ((m.update g first).settle turn, first)

/-- Start a thread that waits at the gate. -/
def Waiters.spawn (m : Waiters α) : Waiters α :=
  Monitor.spawn turn () m

end Gate
end StreamConformance
