import StreamConformance.Channel.Gate

/-!
# Threads at a gate

Any number of threads wait at a gate, which is fired any number of times.  A thread that is told
that the gate was fired takes its turn some time later, and anything may happen in between.

* `Gate.Waits`: what may have happened at a gate, and what it was fired with, in order.
* `Gate.Waits.expects`: nobody returns before the gate was fired, and afterwards everybody has
  returned what it was fired with first, or has been told to look.
* `Gate.Waits.settle`: once everybody who was told to look has done so, all have returned that.
-/

namespace StreamConformance
namespace Gate

variable {α : Type}

/-- What may have become of a gate and of the threads at it; the list is what it was fired with. -/
inductive Waits : List α → Waiters α → Prop where
  | new : Waits [] { state := {} }
  /-- A thread comes to wait. -/
  | spawn {vs : List α} {m : Waiters α} (h : Waits vs m) : Waits vs m.spawn
  /-- The gate is fired. -/
  | fire {vs : List α} {m : Waiters α} (h : Waits vs m) (v : α) :
      Waits (vs ++ [v]) (m.update (m.state.fire v).1 (m.state.fire v).2)
  /-- A thread that was told to look takes its turn. -/
  | look {vs : List α} {m : Waiters α} (h : Waits vs m) {k : Nat}
      (hk : m.threads[k]? = some (.parked () true)) :
      Waits vs
        { state := (turn () m.state).1
          threads := m.threads.set k (Thread.after (turn () m.state).2) }

/-- What a thread at a gate is like that was fired with `first` first, if at all. -/
def Expects (first : Option α) (t : Thread Unit α) : Prop :=
  match first with
  | none => t = .parked () false
  | some v => t = .returned v ∨ t = .parked () true

theorem turn_of_slot {g : Gate α} {v : α} (h : g.slot = some v) : turn () g = (g, .inr v) := by
  rw [turn, h]

theorem turn_of_slot_eq_none {g : Gate α} (h : g.slot = none) : turn () g = (g, .inl ()) := by
  rw [turn, h]

/-- Whoever takes a turn at a gate is then as expected. -/
theorem expects_after_turn (g : Gate α) :
    (turn () g).1 = g ∧ Expects g.slot (Thread.after (turn () g).2) := by
  cases h : g.slot with
  | none =>
    rw [turn_of_slot_eq_none h]
    exact ⟨rfl, rfl⟩
  | some v =>
    rw [turn_of_slot h]
    exact ⟨rfl, Or.inl rfl⟩

theorem Expects.notify {t : Thread Unit α} (h : Expects none t) (v : α) :
    Expects (some v) t.notify := by
  obtain rfl : t = .parked () false := h
  exact Or.inr rfl

namespace Waits

variable {vs : List α} {m : Waiters α}

/-- **The first value stays in the gate**, and everybody at it is as that calls for. -/
theorem expects (h : Waits vs m) :
    m.state.slot = vs.head? ∧ ∀ t ∈ m.threads, Expects vs.head? t := by
  induction h with
  | new => exact ⟨rfl, nofun⟩
  | @spawn vs m h ih =>
    obtain ⟨hslot, hthreads⟩ := ih
    obtain ⟨hstate, hafter⟩ := expects_after_turn m.state
    refine ⟨(congrArg Gate.slot hstate).trans hslot, fun t ht => ?_⟩
    rcases List.mem_append.mp ht with ht | ht
    · exact hthreads t ht
    · rw [List.mem_singleton.mp ht, ← hslot]
      exact hafter
  | @fire vs m h v ih =>
    obtain ⟨hslot, hthreads⟩ := ih
    cases vs with
    | nil =>
      -- The gate is fired for the first time, and everybody is told.
      have hfire : m.state.fire v = ({ slot := some v }, true) := by
        rw [Gate.fire, hslot]
        rfl
      rw [hfire]
      refine ⟨rfl, fun t ht => ?_⟩
      obtain ⟨t', ht', rfl⟩ := List.mem_map.mp ht
      exact (hthreads t' ht').notify v
    | cons v' vs =>
      have hfire : m.state.fire v = (m.state, false) := by
        rw [Gate.fire, hslot]
        rfl
      rw [hfire]
      exact ⟨hslot, hthreads⟩
  | @look vs m h k hk ih =>
    obtain ⟨hslot, hthreads⟩ := ih
    obtain ⟨hstate, hafter⟩ := expects_after_turn m.state
    refine ⟨(congrArg Gate.slot hstate).trans hslot, fun t ht => ?_⟩
    rcases List.mem_or_eq_of_mem_set ht with ht | rfl
    · exact hthreads t ht
    · rw [← hslot]
      exact hafter

/-- Threads at a gate that was fired have all returned once each has had its turn. -/
theorem settleThreads_eq {g : Gate α} {v : α} (hg : g.slot = some v) (threads : List (Thread Unit α))
    (h : ∀ t ∈ threads, Expects (some v) t) :
    Monitor.settleThreads turn g threads = (g, threads.map fun _ => .returned v) := by
  induction threads with
  | nil => rfl
  | cons t threads ih =>
    have htail := ih fun t' ht' => h t' (List.mem_cons_of_mem t ht')
    rcases h t List.mem_cons_self with rfl | rfl
    · rw [Monitor.settleThreads, htail]
      · rfl
      · nofun
    · rw [Monitor.settleThreads, turn_of_slot hg]
      dsimp only
      rw [htail]
      rfl

/-- **All waiters return what the gate was fired with first**, whenever they came. -/
theorem settle (h : Waits vs m) {v : α} (hv : vs.head? = some v) :
    (Monitor.settle turn m).threads = m.threads.map fun _ => .returned v := by
  obtain ⟨hslot, hthreads⟩ := h.expects
  rw [hv] at hslot hthreads
  rw [Monitor.settle, settleThreads_eq hslot m.threads hthreads]

end Waits
end Gate
end StreamConformance
