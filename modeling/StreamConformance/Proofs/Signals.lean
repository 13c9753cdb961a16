import Mathlib.Data.List.TakeWhile
import StreamConformance.Proofs.Channel.Account
import StreamConformance.Proofs.Receivers

/-!
# Signals up to the end

Nothing comes behind the completion or the error of a stream.  Where more is there than that, by
mistake of a peer or because a script has it so, only the part up to the first end counts.

* `Signal.untilEnd`, `Signal.itemsUntilEnd`: signals and items up to the first end.
* `endsOnce_untilEnd`, `concat_prefix_untilEnd`: that part ends once, and it is what may be sent.
-/

namespace StreamConformance

namespace Signal

variable {α : Type} {l : List (Signal α)} {s : Signal α}

/-- The signals up to the first one that ends a stream, with that. -/
def untilEnd (l : List (Signal α)) : List (Signal α) :=
  (l.takeWhile fun s => !s.isTerminal) ++ (l.find? isTerminal).toList

/-- The items before the first signal that ends a stream. -/
def itemsUntilEnd (l : List (Signal α)) : List α :=
  (l.takeWhile fun s => !s.isTerminal).filterMap item?

theorem ending?_eq_none : s.ending? = none ↔ s.isTerminal = false := by
  cases s <;> simp [ending?, isTerminal]

theorem findSome?_ending?_eq_none :
    l.findSome? ending? = none ↔ ∀ s ∈ l, s.isTerminal = false := by
  simp only [List.findSome?_eq_none_iff, ending?_eq_none]

theorem untilEnd_of_open (h : ∀ s ∈ l, s.isTerminal = false) : untilEnd l = l := by
  have hend : l.find? isTerminal = none :=
    List.find?_eq_none.mpr fun s hs => by simp [h s hs]
  rw [untilEnd, hend, List.takeWhile_eq_self_iff.mpr fun s hs => by simp [h s hs]]
  exact List.append_nil l

/-- What comes before the end is added. -/
theorem untilEnd_concat_of_open (h : ∀ s ∈ l, s.isTerminal = false) (s : Signal α) :
    untilEnd (l ++ [s]) = untilEnd l ++ [s] := by
  have hall : ∀ s ∈ l, (!s.isTerminal) = true := fun s hs => by simp [h s hs]
  have hend : l.find? isTerminal = none :=
    List.find?_eq_none.mpr fun s hs => by simp [h s hs]
  rw [untilEnd_of_open h, untilEnd, List.takeWhile_append_of_pos hall, List.find?_append, hend,
    Option.none_or]
  cases hs : s.isTerminal <;> simp [hs]

/-- What comes after the end is not. -/
theorem untilEnd_append_of_ended (h : ∃ s ∈ l, s.isTerminal = true) (m : List (Signal α)) :
    untilEnd (l ++ m) = untilEnd l := by
  obtain ⟨s, hs, hend⟩ := h
  have htake : (l ++ m).takeWhile (fun s => !s.isTerminal) = l.takeWhile fun s => !s.isTerminal := by
    rw [List.takeWhile_append, if_neg]
    intro hlength
    have hself := (List.takeWhile_prefix fun s : Signal α => !s.isTerminal).eq_of_length hlength
    have hopen := List.takeWhile_eq_self_iff.mp hself s hs
    rw [hend] at hopen
    cases hopen
  have hsome : (l.find? isTerminal).isSome = true := List.find?_isSome.mpr ⟨s, hs, hend⟩
  obtain ⟨a, ha⟩ := Option.isSome_iff_exists.mp hsome
  rw [untilEnd, htake, List.find?_append, ha, Option.some_or, untilEnd, ha]

theorem itemsUntilEnd_concat_of_open (h : ∀ s ∈ l, s.isTerminal = false) (s : Signal α) :
    itemsUntilEnd (l ++ [s]) = itemsUntilEnd l ++ s.item?.toList := by
  have hall : ∀ s ∈ l, (!s.isTerminal) = true := fun s hs => by simp [h s hs]
  rw [itemsUntilEnd, List.takeWhile_append_of_pos hall, List.filterMap_append, itemsUntilEnd,
    List.takeWhile_eq_self_iff.mpr hall]
  cases s <;> rfl

theorem untilEnd_cons (s : Signal α) (l : List (Signal α)) :
    untilEnd (s :: l) = s :: if s.isTerminal then [] else untilEnd l := by
  cases hs : s.isTerminal <;> simp [untilEnd, hs]

theorem exists_terminal_untilEnd :
    (∃ s ∈ untilEnd l, s.isTerminal = true) ↔ ∃ s ∈ l, s.isTerminal = true := by
  induction l with
  | nil => rfl
  | cons s l ih =>
    rw [untilEnd_cons]
    cases hs : s.isTerminal with
    | true => simp [hs]
    | false => simpa [hs] using ih

/-- How a stream ends is the first end of it. -/
theorem findSome?_ending?_untilEnd : (untilEnd l).findSome? ending? = l.findSome? ending? := by
  induction l with
  | nil => rfl
  | cons s l ih =>
    rw [untilEnd_cons, List.findSome?_cons, List.findSome?_cons]
    cases s with
    | next item => exact ih
    | complete | error => rfl

theorem itemsUntilEnd_untilEnd : itemsUntilEnd (untilEnd l) = itemsUntilEnd l := by
  induction l with
  | nil => rfl
  | cons s l ih =>
    rw [untilEnd_cons]
    cases hs : s.isTerminal with
    | true => simp [itemsUntilEnd, hs]
    | false =>
      unfold itemsUntilEnd at ih ⊢
      simp [hs, List.filterMap_cons, ih]

/-- After items only, what comes next may be sent. -/
theorem concat_prefix_untilEnd (h : ∀ s ∈ l, s.isTerminal = false) (s : Signal α)
    (m : List (Signal α)) : l ++ [s] <+: untilEnd (l ++ s :: m) := by
  induction l with
  | nil =>
    rw [List.nil_append, List.nil_append, untilEnd_cons]
    exact List.prefix_append [s] _
  | cons a l ih =>
    obtain ⟨ha, hl⟩ := List.forall_mem_cons.mp h
    rw [List.cons_append, List.cons_append, untilEnd_cons, ha]
    exact List.cons_prefix_cons.mpr ⟨rfl, ih hl⟩

/-- After items only, the first completion or error is the end. -/
theorem untilEnd_append_of_terminal (h : ∀ s ∈ l, s.isTerminal = false)
    (hs : s.isTerminal = true) (m : List (Signal α)) : untilEnd (l ++ s :: m) = l ++ [s] := by
  rw [List.append_cons, untilEnd_append_of_ended ⟨s, by simp, hs⟩, untilEnd_concat_of_open h,
    untilEnd_of_open h]

end Signal

theorem endsOnce_untilEnd (l : List (Signal Payload)) : EndsOnce (Signal.untilEnd l) := by
  induction l with
  | nil => exact List.Pairwise.nil
  | cons s l ih =>
    rw [Signal.untilEnd_cons]
    cases hs : s.isTerminal with
    | true => exact List.pairwise_singleton ..
    | false => exact List.pairwise_cons.mpr ⟨fun _ _ => hs, ih⟩

end StreamConformance
