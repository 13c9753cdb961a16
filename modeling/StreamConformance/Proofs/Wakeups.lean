import Mathlib.Data.List.Basic
import StreamConformance.Monitor

/-!
# Schedules at a monitor

Any number of threads come to a monitor, at any time.  Whatever a thread does there is cut into
sections, each under the monitor's lock; between two sections of one thread those of others may
come, and changes of the state from outside.  An order in which all this happens is a `Move` list,
and `play` says what comes of it.

A thread that parks in a section goes on only after a notification, so it is a thread
`.parked todo false`.  One that may go on is `.parked todo true`: it has been notified since it
parked, or it is between two sections, or it has only just come.  A `look` of a thread that may
not go on does nothing, which leaves every list of moves an order of things that can happen.

What is said about every thread at a monitor is proved for one: `Keeps` lists what can happen to
the state and a thread, and `Keeps.play` is the induction along a schedule.
-/

namespace StreamConformance
namespace Monitor

variable {σ τ ρ α : Type}

/-- How threads and changes from outside use the state of a monitor. -/
structure Rules (σ τ ρ α : Type) where
  /-- The next section of a thread that has `todo` left to do. -/
  visit : τ → σ → σ × Thread τ ρ
  /-- A change from outside, and whether it notifies the threads that wait. -/
  change : α → σ → σ × Bool

/-- What may happen next at a monitor. -/
inductive Move (τ α : Type) where
  /-- A thread comes. -/
  | come (todo : τ)
  /-- The thread that came as number `k` has its next section. -/
  | look (k : Nat)
  | change (a : α)

/-- The change from outside that a move is. -/
def Move.change? : Move τ α → Option α
  | .change a => some a
  | _ => none

/-- The changes from outside in a schedule, in order. -/
def changes (moves : List (Move τ α)) : List α :=
  moves.filterMap Move.change?

/-- The thread `k` has a section. -/
def look (rules : Rules σ τ ρ α) (k : Nat) (m : Monitor σ τ ρ) : Monitor σ τ ρ :=
  match m.threads[k]? with
  | some (.parked todo true) =>
    { state := (rules.visit todo m.state).1
      threads := m.threads.set k (rules.visit todo m.state).2 }
  | _ => m

/-- What becomes of a monitor with a move. -/
def advance (rules : Rules σ τ ρ α) (m : Monitor σ τ ρ) : Move τ α → Monitor σ τ ρ
  | .come todo => { m with threads := m.threads ++ [.parked todo true] }
  | .look k => m.look rules k
  | .change a => m.update (rules.change a m.state).1 (rules.change a m.state).2

/-- What becomes of a monitor with the moves of a schedule. -/
def play (rules : Rules σ τ ρ α) (m : Monitor σ τ ρ) (moves : List (Move τ α)) : Monitor σ τ ρ :=
  moves.foldl (advance rules) m

variable {rules : Rules σ τ ρ α} {m : Monitor σ τ ρ}

@[simp]
theorem play_nil : m.play rules [] = m := rfl

@[simp]
theorem play_cons (move : Move τ α) (moves : List (Move τ α)) :
    m.play rules (move :: moves) = (m.advance rules move).play rules moves := rfl

theorem play_append (moves more : List (Move τ α)) :
    m.play rules (moves ++ more) = (m.play rules moves).play rules more :=
  List.foldl_append

theorem play_concat (moves : List (Move τ α)) (move : Move τ α) :
    m.play rules (moves ++ [move]) = (m.play rules moves).advance rules move :=
  play_append moves [move]

/-! ## One move -/

/-- Nobody at the monitor waits for a notification. -/
def Stirring (m : Monitor σ τ ρ) : Prop :=
  ∀ todo, Thread.parked todo false ∉ m.threads

theorem look_of_ready {k : Nat} {todo : τ} (hk : m.threads[k]? = some (.parked todo true)) :
    m.look rules k =
      { state := (rules.visit todo m.state).1
        threads := m.threads.set k (rules.visit todo m.state).2 } := by
  rw [look, hk]

/-- What becomes of a thread that has a section. -/
theorem getElem?_look_of_ready {k : Nat} {todo : τ}
    (hk : m.threads[k]? = some (.parked todo true)) :
    (m.look rules k).threads[k]? = some (rules.visit todo m.state).2 := by
  rw [look_of_ready hk, List.getElem?_set_self (List.getElem?_eq_some_iff.mp hk).1]

/-- A thread has a section or nothing happens. -/
theorem look_cases (rules : Rules σ τ ρ α) (k : Nat) (m : Monitor σ τ ρ) :
    m.look rules k = m ∨ ∃ todo, m.threads[k]? = some (.parked todo true) ∧
      m.look rules k =
        { state := (rules.visit todo m.state).1
          threads := m.threads.set k (rules.visit todo m.state).2 } := by
  rcases hk : m.threads[k]? with _ | t
  · exact .inl (by rw [look, hk])
  · match t with
    | .parked todo true => exact .inr ⟨todo, rfl, look_of_ready hk⟩
    | .parked todo false => exact .inl (by rw [look, hk])
    | .returned result => exact .inl (by rw [look, hk])

/-- A thread that waits is not touched by the sections of others. -/
theorem mem_look_of_waits {todo : τ} (k : Nat) (h : Thread.parked todo false ∈ m.threads) :
    Thread.parked todo false ∈ (m.look rules k).threads := by
  rcases look_cases rules k m with hlook | ⟨todo', hk, hlook⟩
  · rwa [hlook]
  · obtain ⟨j, hj⟩ := List.mem_iff_getElem?.mp h
    have hne : k ≠ j := by
      rintro rfl
      simp [hk] at hj
    rw [hlook]
    exact List.mem_iff_getElem?.mpr ⟨j, by rw [List.getElem?_set_ne hne]; exact hj⟩

/-- A thread that has returned stays as it is. -/
theorem returned_advance {k : Nat} {result : ρ} (h : m.threads[k]? = some (.returned result))
    (move : Move τ α) : (m.advance rules move).threads[k]? = some (.returned result) := by
  cases move with
  | come todo =>
    have hlt := (List.getElem?_eq_some_iff.mp h).1
    simpa [advance, List.getElem?_append_left hlt] using h
  | look j =>
    rcases look_cases rules j m with hlook | ⟨todo, hj, hlook⟩
    · simpa [advance, hlook] using h
    · have hne : j ≠ k := by
        rintro rfl
        simp [hj] at h
      simpa [advance, hlook, List.getElem?_set_ne hne] using h
  | change a =>
    simp only [advance, update]
    split <;> simp [notifyAll, h, Thread.notify]

/-- **Whoever has returned has returned for good.** -/
theorem returned_play {k : Nat} {result : ρ} (h : m.threads[k]? = some (.returned result))
    (moves : List (Move τ α)) : (m.play rules moves).threads[k]? = some (.returned result) := by
  induction moves generalizing m with
  | nil => exact h
  | cons move moves ih => exact ih (returned_advance h move)

@[simp]
theorem state_update (s : σ) (wakes : Bool) (m : Monitor σ τ ρ) :
    (m.update s wakes).state = s := by
  cases wakes <;> rfl

theorem update_true (s : σ) (m : Monitor σ τ ρ) :
    m.update s true = { state := s, threads := m.threads.map Thread.notify } := rfl

theorem update_false (s : σ) (m : Monitor σ τ ρ) : m.update s false = { m with state := s } := rfl

/-- Once everybody is notified nobody waits. -/
theorem stirring_update_true (s : σ) (m : Monitor σ τ ρ) : (m.update s true).Stirring := by
  intro todo h
  obtain ⟨t, -, ht⟩ := List.mem_map.mp h
  cases t <;> simp [Thread.notify] at ht

/-! ## What holds of every thread -/

/-- `P` holds of the state and a thread whatever happens, if it holds once: of one that comes, in
its own section, in the section of another, and with a change from outside. -/
structure Keeps (rules : Rules σ τ ρ α) (P : σ → Thread τ ρ → Prop) : Prop where
  come : ∀ s todo, P s (.parked todo true)
  visit : ∀ s todo, P (rules.visit todo s).1 (rules.visit todo s).2
  other : ∀ s t todo, P s t → P (rules.visit todo s).1 t
  change : ∀ s t a, P s t →
    P (rules.change a s).1 (if (rules.change a s).2 then t.notify else t)

theorem Keeps.advance {P : σ → Thread τ ρ → Prop} (hP : Keeps rules P)
    (h : ∀ t ∈ m.threads, P m.state t) (move : Move τ α) :
    ∀ t ∈ (m.advance rules move).threads, P (m.advance rules move).state t := by
  intro t ht
  cases move with
  | come todo =>
    rcases List.mem_append.mp ht with ht | ht
    · exact h t ht
    · rw [List.mem_singleton.mp ht]
      exact hP.come _ todo
  | look k =>
    rcases look_cases rules k m with hlook | ⟨todo, -, hlook⟩
    · simp only [Monitor.advance, hlook] at ht ⊢
      exact h t ht
    · simp only [Monitor.advance, hlook] at ht ⊢
      rcases List.mem_or_eq_of_mem_set ht with ht | rfl
      · exact hP.other _ t todo (h t ht)
      · exact hP.visit _ todo
  | change a =>
    have hkeep := fun t ht => hP.change m.state t a (h t ht)
    cases hwakes : (rules.change a m.state).2 with
    | true =>
      simp only [Monitor.advance, hwakes, update_true] at ht ⊢
      obtain ⟨t', ht', rfl⟩ := List.mem_map.mp ht
      simpa [hwakes] using hkeep t' ht'
    | false =>
      simp only [Monitor.advance, hwakes, update_false] at ht ⊢
      simpa [hwakes] using hkeep t ht

/-- **What every move keeps holds along a schedule.** -/
theorem Keeps.play {P : σ → Thread τ ρ → Prop} (hP : Keeps rules P)
    (h : ∀ t ∈ m.threads, P m.state t) (moves : List (Move τ α)) :
    ∀ t ∈ (m.play rules moves).threads, P (m.play rules moves).state t := by
  induction moves generalizing m with
  | nil => exact h
  | cons move moves ih => exact ih (hP.advance h move)

end Monitor
end StreamConformance
