import Mathlib.Algebra.BigOperators.Group.Finset.Basic
import Mathlib.Algebra.GroupWithZero.Nat
import Mathlib.Algebra.Order.BigOperators.Group.Finset
import Mathlib.Algebra.Order.BigOperators.Group.List
import StreamConformance.Proofs.Crew

/-!
# Turns

As long as nothing panics, a step of a crew is the turn of one thread: it performs a task and goes on
with what that leads to, or it begins with something.  What a turn is to the exchange is a `Move`.

A `Tally` counts something that is handed on from task to task, or kept by the exchange, or used up
for good when a task is performed.  If no move makes more of it, there is never more of it than at
the beginning, however the threads interleave.

* `Crew.Step.move`: a step is a turn.
* `Crew.Turns.due`: what is due after a turn was due before, or is new.
* `Crew.Weighs`: what the tasks of all threads weigh together.
* `Tally.AtMost.of_turns`: what a turn makes of a tally.
* `Crew.Rules.restrict`, `Crew.Reach.mono`: threads that do less than they may.
-/

namespace StreamConformance

open Function (update)

variable {ι σ τ : Type}

namespace Crew

/-- What a thread may do to an exchange in one turn: the tasks `old` are performed, and it goes on
with `new`. -/
inductive Move (env : Environment σ τ) (rules : Rules ι σ τ) (k : ι) (e : Exchange σ) :
    List (Task τ) → List (Task τ) → Exchange σ → Prop where
  | perform {t : Task τ} (ht : ∀ p, t ≠ .call (.raise p)) :
      Move env rules k e [t] (e.perform env t).2 (e.perform env t).1
  | start {e' : Exchange σ} {ts : List (Task τ)} (h : rules.starts k e e' ts) :
      Move env rules k e [] ts e'
  | emit {i : Nat} {p : ScriptedProducer} {emitter : Emitter} {s : Signal Payload}
      (h : rules.emits k i s) (hp : e.scripted? i = some p) (hs : p.emitter.emit s = .sent emitter) :
      Move env rules k e [] (e.send i p emitter s).2 (e.send (τ := τ) i p emitter s).1

/-- A turn in which a task is performed is nothing else. -/
theorem Move.of_mem {env : Environment σ τ} {rules : Rules ι σ τ} {k : ι} {e e' : Exchange σ}
    {old new : List (Task τ)} (h : Move env rules k e old new e') {t : Task τ} (ht : t ∈ old) :
    old = [t] ∧ new = (e.perform env t).2 ∧ e' = (e.perform env t).1 := by
  cases h with
  | perform =>
    obtain rfl := List.mem_singleton.mp ht
    exact ⟨rfl, rfl, rfl⟩
  | start | emit => cases ht

/-- Thread `k` has performed the tasks `old` and goes on with `new`.  It begins with something only
if it has nothing else to do. -/
structure Turns [DecidableEq ι] (k : ι) (old new : List (Task τ)) (c d : Crew ι σ τ) : Prop where
  stack : ∃ rest, c.stack k = old ++ rest ∧ d.stack = update c.stack k (new ++ rest) ∧
    (old = [] → rest = [])
  done : d.done = c.done ++ old

section Turns

variable [DecidableEq ι] {env : Environment σ τ} {rules : Rules ι σ τ} {c d : Crew ι σ τ} {k : ι}
  {old new : List (Task τ)} {t : Task τ}

/-- **A step is a turn of some thread.** -/
theorem Step.move (h : Step env rules c d) (hcalm : ∀ p, ¬ c.Pending (.call (.raise p))) :
    ∃ k old new, Move env rules k c.exchange old new d.exchange ∧ Turns k old new c d := by
  cases h with
  | @work k t rest hk ht =>
    exact ⟨k, _, _, .perform ht, ⟨rest, hk, rfl, by rintro ⟨⟩⟩, rfl⟩
  | @panic k p rest hk => exact absurd ⟨k, by rw [hk]; exact List.mem_cons_self⟩ (hcalm p)
  | @start k e ts hk h =>
    exact ⟨k, _, _, .start h, ⟨[], hk, by rw [List.append_nil]; rfl, fun _ => rfl⟩,
      (List.append_nil _).symm⟩
  | @emit k i p emitter s hk h hp hs =>
    exact ⟨k, _, _, .emit h hp hs, ⟨[], hk, by rw [List.append_nil]; rfl, fun _ => rfl⟩,
      (List.append_nil _).symm⟩

/-- The tasks of a thread after a turn are new, or they were there before. -/
theorem Turns.mem_stack (h : Turns k old new c d) {k' : ι} (ht : t ∈ d.stack k') :
    t ∈ c.stack k' ∨ (k' = k ∧ t ∈ new) := by
  obtain ⟨rest, hc, hd, -⟩ := h.stack
  rw [hd] at ht
  by_cases hk : k' = k
  · subst hk
    rw [Function.update_self] at ht
    rcases List.mem_append.mp ht with ht | ht
    · exact Or.inr ⟨rfl, ht⟩
    · exact Or.inl (by rw [hc]; exact List.mem_append_right _ ht)
  · rw [Function.update_of_ne hk] at ht
    exact Or.inl ht

theorem Turns.mem_old (h : Turns k old new c d) (ht : t ∈ old) : t ∈ c.stack k := by
  obtain ⟨rest, hc, -⟩ := h.stack
  rw [hc]
  exact List.mem_append_left _ ht

theorem Turns.mem_new (h : Turns k old new c d) (ht : t ∈ new) : t ∈ d.stack k := by
  obtain ⟨rest, -, hd, -⟩ := h.stack
  rw [hd, Function.update_self]
  exact List.mem_append_left _ ht

/-- What is due after a turn was due before, or is new. -/
theorem Turns.due (h : Turns k old new c d) (ht : d.Due t) : c.Due t ∨ t ∈ new := by
  rcases ht with ht | ⟨k', ht⟩
  · rw [h.done] at ht
    rcases List.mem_append.mp ht with ht | ht
    · exact Or.inl (Or.inl ht)
    · exact Or.inl (Or.inr ⟨k, h.mem_old ht⟩)
  · rcases h.mem_stack ht with ht | ⟨-, ht⟩
    · exact Or.inl (Or.inr ⟨k', ht⟩)
    · exact Or.inr ht

theorem Turns.mem_done (h : Turns k old new c d) : t ∈ d.done ↔ t ∈ c.done ∨ t ∈ old := by
  rw [h.done, List.mem_append]

/-- What a thread has to do it still has to do after a turn, unless that was it. -/
theorem Turns.mem_stack_or_old (h : Turns k old new c d) {k' : ι} (ht : t ∈ c.stack k') :
    t ∈ d.stack k' ∨ (k' = k ∧ t ∈ old) := by
  obtain ⟨rest, hc, hd, -⟩ := h.stack
  rw [hd]
  by_cases hk : k' = k
  · subst hk
    rw [hc] at ht
    rw [Function.update_self]
    rcases List.mem_append.mp ht with ht | ht
    · exact Or.inr ⟨rfl, ht⟩
    · exact Or.inl (List.mem_append_right _ ht)
  · rw [Function.update_of_ne hk]
    exact Or.inl ht

/-- What a thread has to do it has done after a turn, or still has to do. -/
theorem Turns.mem_done_or_stack (h : Turns k old new c d) {k' : ι}
    (ht : t ∈ c.done ∨ t ∈ c.stack k') : t ∈ d.done ∨ t ∈ d.stack k' := by
  rcases ht with ht | ht
  · exact Or.inl (h.mem_done.mpr (Or.inl ht))
  · exact (h.mem_stack_or_old ht).symm.imp_left fun ht => h.mem_done.mpr (Or.inr ht.2)

theorem Turns.pending (h : Turns k old new c d) (ht : c.Pending t) : d.Pending t ∨ t ∈ old := by
  obtain ⟨k', ht⟩ := ht
  exact (h.mem_stack_or_old ht).imp (fun ht => ⟨k', ht⟩) And.right

theorem Turns.due_of_new (h : Turns k old new c d) (ht : t ∈ new) : d.Due t :=
  Or.inr ⟨k, h.mem_new ht⟩

/-- What is due stays so. -/
theorem Turns.due_of_due (h : Turns k old new c d) (ht : c.Due t) : d.Due t := by
  rcases ht with ht | ⟨k', ht⟩
  · exact Or.inl (h.mem_done.mpr (Or.inl ht))
  · exact (h.mem_done_or_stack (Or.inr ht)).imp id fun ht => ⟨k', ht⟩

end Turns

/-! ## Less than is allowed -/

/-- Threads that begin only with what has the property `P`, and else do what they may. -/
def Rules.restrict (rules : Rules ι σ τ)
    (P : ι → Exchange σ → Exchange σ → List (Task τ) → Prop) : Rules ι σ τ where
  starts k e e' ts := rules.starts k e e' ts ∧ P k e e' ts
  keeps h := rules.keeps h.1
  outer h := rules.outer h.1
  emits := rules.emits

theorem Move.of_restrict {env : Environment σ τ} {rules : Rules ι σ τ}
    {P : ι → Exchange σ → Exchange σ → List (Task τ) → Prop} {k : ι} {e e' : Exchange σ}
    {old new : List (Task τ)} (h : Move env (rules.restrict P) k e old new e') :
    Move env rules k e old new e' := by
  cases h with
  | perform ht => exact .perform ht
  | start h => exact .start h.1
  | emit h hp hs => exact .emit h hp hs

/-- What threads do that may do less they may do as well if they may do more. -/
theorem Reach.mono [DecidableEq ι] {env : Environment σ τ} {rules rules' : Rules ι σ τ}
    {c d : Crew ι σ τ} (h : Reach env rules c d)
    (hstarts : ∀ k e e' ts, rules.starts k e e' ts → rules'.starts k e e' ts)
    (hemits : ∀ k i s, rules.emits k i s → rules'.emits k i s) : Reach env rules' c d := by
  induction h with
  | refl => exact .refl
  | tail _ hstep ih =>
    refine ih.tail ?_
    cases hstep with
    | work hk ht => exact .work hk ht
    | panic hk => exact .panic hk
    | start hk h => exact .start hk (hstarts _ _ _ _ h)
    | emit hk h hp hs => exact .emit hk (hemits _ _ _ h) hp hs

/-! ## What tasks weigh -/

/-- What some tasks weigh together. -/
def weight (w : Task τ → Nat) (ts : List (Task τ)) : Nat :=
  (ts.map w).sum

@[simp] theorem weight_nil (w : Task τ → Nat) : weight w [] = 0 := rfl

@[simp] theorem weight_cons (w : Task τ → Nat) (t : Task τ) (ts : List (Task τ)) :
    weight w (t :: ts) = w t + weight w ts :=
  List.sum_cons

@[simp] theorem weight_append (w : Task τ → Nat) (ts us : List (Task τ)) :
    weight w (ts ++ us) = weight w ts + weight w us := by
  rw [weight, List.map_append, List.sum_append, weight, weight]

theorem weight_eq_zero {w : Task τ → Nat} {ts : List (Task τ)} (h : ∀ t ∈ ts, w t = 0) :
    weight w ts = 0 :=
  List.sum_eq_zero fun _ hn =>
    have ⟨t, ht, heq⟩ := List.mem_map.mp hn
    heq ▸ h t ht

theorem weight_congr {w w' : Task τ → Nat} {ts : List (Task τ)} (h : ∀ t ∈ ts, w t = w' t) :
    weight w ts = weight w' ts :=
  congrArg List.sum (List.map_congr_left h)

theorem le_weight {w : Task τ → Nat} {ts : List (Task τ)} {t : Task τ} (h : t ∈ ts) :
    w t ≤ weight w ts :=
  List.single_le_sum (fun _ _ => Nat.zero_le _) _ (List.mem_map_of_mem h)

theorem weight_le {w w' : Task τ → Nat} {ts : List (Task τ)} (h : ∀ t ∈ ts, w t ≤ w' t) :
    weight w ts ≤ weight w' ts :=
  List.sum_le_sum h

/-- What the tasks of all threads weigh together. -/
def Weighs (w : Task τ → Nat) (total : Nat) (c : Crew ι σ τ) : Prop :=
  ∃ threads : Finset ι, (∀ k, k ∉ threads → weight w (c.stack k) = 0) ∧
    threads.sum (fun k => weight w (c.stack k)) = total

theorem weighs_of_forall {w : Task τ → Nat} {c : Crew ι σ τ} (h : ∀ k, c.stack k = []) :
    c.Weighs w 0 :=
  ⟨∅, fun k _ => by rw [h, weight_nil], rfl⟩

theorem Weighs.le_total {w : Task τ → Nat} {c : Crew ι σ τ} {total : Nat} (h : c.Weighs w total)
    {k : ι} {t : Task τ} (ht : t ∈ c.stack k) : w t ≤ total := by
  obtain ⟨threads, hrest, rfl⟩ := h
  have hle : w t ≤ weight w (c.stack k) := le_weight ht
  by_cases hk : k ∈ threads
  · exact hle.trans (Finset.single_le_sum (f := fun k => weight w (c.stack k))
      (fun _ _ => Nat.zero_le _) hk)
  · rw [hrest k hk] at hle
    exact hle.trans (Nat.zero_le _)

/-- Tasks that have become lighter weigh less together. -/
theorem Weighs.mono {w w' : Task τ → Nat} {c : Crew ι σ τ} {total : Nat} (h : c.Weighs w total)
    (hle : ∀ k, ∀ t ∈ c.stack k, w' t ≤ w t) : ∃ total' ≤ total, c.Weighs w' total' := by
  obtain ⟨threads, hrest, rfl⟩ := h
  have hthread : ∀ k, weight w' (c.stack k) ≤ weight w (c.stack k) := fun k => weight_le (hle k)
  exact ⟨_, Finset.sum_le_sum fun k _ => hthread k, threads,
    fun k hk => Nat.le_zero.mp (hrest k hk ▸ hthread k), rfl⟩

/-- When one thread goes on with other tasks, only what it has to do weighs something else. -/
theorem Weighs.update [DecidableEq ι] {w : Task τ → Nat} {c d : Crew ι σ τ} {total : Nat}
    (h : c.Weighs w total) {k : ι} {ts : List (Task τ)} (hs : d.stack = update c.stack k ts) :
    ∃ others, total = others + weight w (c.stack k) ∧ d.Weighs w (others + weight w ts) := by
  obtain ⟨threads, hrest, rfl⟩ := h
  have hothers : ∀ k' ∈ threads.erase k, weight w (d.stack k') = weight w (c.stack k') := by
    intro k' hk'
    rw [hs, Function.update_of_ne (Finset.ne_of_mem_erase hk')]
  refine ⟨(threads.erase k).sum fun k' => weight w (c.stack k'), ?_, insert k threads, ?_, ?_⟩
  · by_cases hk : k ∈ threads
    · exact (Finset.sum_erase_add _ _ hk).symm
    · rw [Finset.erase_eq_of_notMem hk, hrest k hk, Nat.add_zero]
  · intro k' hk'
    obtain ⟨hne, hnot⟩ := not_or.mp (mt Finset.mem_insert.mpr hk')
    rw [hs, Function.update_of_ne hne]
    exact hrest k' hnot
  · rw [← Finset.sum_erase_add _ _ (Finset.mem_insert_self k threads),
      Finset.erase_insert_eq_erase, Finset.sum_congr rfl hothers, hs, Function.update_self]

/-- In a turn the tasks that are gone weigh no more, those that are new weigh something, and those
that stay may have become lighter. -/
theorem Weighs.turns [DecidableEq ι] {w w' : Task τ → Nat} {c d : Crew ι σ τ} {total : Nat}
    (h : c.Weighs w total) {k : ι} {old new : List (Task τ)} (hturn : Turns k old new c d)
    (hle : ∀ k, ∀ t ∈ c.stack k, w' t ≤ w t) :
    ∃ stay, stay + weight w old ≤ total ∧ d.Weighs w' (stay + weight w' new) := by
  obtain ⟨rest, hc, hd, -⟩ := hturn.stack
  -- First the crew without the tasks that are gone.
  obtain ⟨others, htotal, hothers⟩ := h.update (d := c.turn k rest c.exchange) (k := k) rfl
  have hrest : ∀ k', ∀ t ∈ (c.turn k rest c.exchange).stack k', w' t ≤ w t := by
    intro k' t ht
    refine hle k' t ?_
    by_cases hk : k' = k
    · subst hk
      rw [stack_turn_self] at ht
      rw [hc]
      exact List.mem_append_right _ ht
    · rwa [stack_turn_of_ne _ _ _ hk] at ht
  obtain ⟨total', hlighter, hw'⟩ := hothers.mono hrest
  have hstack : d.stack = Function.update (c.turn k rest c.exchange).stack k (new ++ rest) :=
    hd.trans (Function.update_idem ..).symm
  obtain ⟨others', htotal', hnew⟩ := hw'.update hstack
  rw [stack_turn_self] at htotal'
  rw [hc, weight_append] at htotal
  refine ⟨total', by omega, ?_⟩
  have hsum : total' + weight w' new = others' + weight w' (new ++ rest) := by
    rw [weight_append]
    omega
  rw [hsum]
  exact hnew

end Crew

/-! ## Tallies -/

/-- Something that is handed on from task to task, kept by the exchange, or used up. -/
structure Tally (σ τ : Type) where
  /-- What a task carries that is to be performed. -/
  carried : Exchange σ → Task τ → Nat
  /-- What the exchange keeps. -/
  kept : Exchange σ → Nat
  /-- What a task has used up when it is performed. -/
  used : Task τ → Nat

namespace Tally

open Crew (Turns Weighs weight)

/-- There is at most `n` of it. -/
def AtMost (n : Nat) (q : Tally σ τ) (c : Crew ι σ τ) : Prop :=
  ∃ m, c.Weighs (q.carried c.exchange) m ∧
    m + q.kept c.exchange + weight q.used c.done ≤ n

variable {q : Tally σ τ} {c d : Crew ι σ τ} {n : Nat}

/-- What one task carries, what is kept and what was used up is no more than there is. -/
theorem AtMost.of_mem (h : q.AtMost n c) {k : ι} {t : Task τ} (ht : t ∈ c.stack k) :
    q.carried c.exchange t + q.kept c.exchange + weight q.used c.done ≤ n := by
  obtain ⟨m, hm, hle⟩ := h
  have hcarried := hm.le_total ht
  omega

theorem AtMost.kept_add_used_le (h : q.AtMost n c) :
    q.kept c.exchange + weight q.used c.done ≤ n := by
  obtain ⟨m, -, hle⟩ := h
  omega

/-- **What a turn makes of a tally.**  No task may weigh more than before. -/
theorem AtMost.of_turns [DecidableEq ι] (h : q.AtMost n c) {k : ι} {old new : List (Task τ)}
    (hturn : Turns k old new c d) {n' : Nat}
    (hstays : ∀ k, ∀ t ∈ c.stack k, q.carried d.exchange t ≤ q.carried c.exchange t)
    (hle : weight (q.carried d.exchange) new + q.kept d.exchange + weight q.used old + n ≤
      weight (q.carried c.exchange) old + q.kept c.exchange + n') : q.AtMost n' d := by
  obtain ⟨m, hm, htotal⟩ := h
  obtain ⟨stay, hstay, hnew⟩ := hm.turns hturn hstays
  refine ⟨_, hnew, ?_⟩
  rw [hturn.done, Crew.weight_append]
  omega

end Tally
end StreamConformance
