import StreamConformance.Proofs.Text.Cutting

/-!
# Where texts are cut

What a cut finds, said of the text and not of the search for it: at a delimiter a text is cut where
it occurs first (`cut?_eq_some_iff`), at a single character also where it occurs last
(`cutLast?_eq_some_iff`), and it is not cut where there is none (`cut?_eq_none_iff`).  Numerals are
read as the numbers that they stand for, and nothing else is (`numeralUpTo?_eq_some_iff`).
-/

namespace StreamConformance
namespace Text

variable {d : Delimiter} {c : Char} {s before after start rest front : List Char} {n limit : Nat}

/-! ## The first cut -/

/-- A text is not cut exactly if the delimiter does not occur in it. -/
theorem cut?_eq_none_iff : cut? d s = none ↔ ¬ d.chars <:+: s := by
  constructor
  · intro h
    rintro ⟨before, after, rfl⟩
    induction before with
    | nil =>
      have hpre : d.chars.isPrefixOf (d.first :: (d.rest ++ after)) = true :=
        List.isPrefixOf_iff_prefix.mpr ⟨after, rfl⟩
      rw [List.nil_append, Delimiter.chars, List.cons_append, cut?, if_pos hpre] at h
      cases h
    | cons c before ih =>
      rw [List.cons_append, List.cons_append, cut?] at h
      split at h
      · cases h
      · exact ih (Option.map_eq_none_iff.mp h)
  · intro h
    rcases hcut : cut? d s with _ | ⟨before, after⟩
    · rfl
    · exact absurd ⟨before, after, by rw [List.append_assoc, ← append_of_cut? hcut]⟩ h

/-- A text is cut at the first occurrence of the delimiter. -/
theorem cut?_eq_some_iff :
    cut? d s = some (before, after) ↔ s = before ++ (d.chars ++ after) ∧
      ∀ u v, s = u ++ (d.chars ++ v) → before.length ≤ u.length := by
  have hfirst {before after : List Char} (h : cut? d s = some (before, after)) :
      ∀ u v, s = u ++ (d.chars ++ v) → before.length ≤ u.length := by
    induction s generalizing before with
    | nil => cases h
    | cons c s ih =>
      rw [cut?] at h
      split at h
      · obtain ⟨rfl, -⟩ := Prod.mk.inj (Option.some.inj h)
        exact fun u v _ => Nat.zero_le _
      · rename_i hpre
        obtain ⟨⟨before', after'⟩, hcut, heq⟩ := Option.map_eq_some_iff.mp h
        obtain ⟨rfl, rfl⟩ := Prod.mk.inj heq
        intro u v huv
        cases u with
        | nil => exact absurd (List.isPrefixOf_iff_prefix.mpr ⟨v, huv.symm⟩) hpre
        | cons c' u => exact Nat.succ_le_succ (ih hcut u v (List.tail_eq_of_cons_eq huv))
  constructor
  · exact fun h => ⟨append_of_cut? h, hfirst h⟩
  · rintro ⟨hs, hleast⟩
    rcases hcut : cut? d s with _ | ⟨before', after'⟩
    · exact absurd ⟨before, after, by rw [List.append_assoc, hs]⟩ (cut?_eq_none_iff.mp hcut)
    · -- Two occurrences that are both the first are the same.
      have hs' := append_of_cut? hcut
      have hlength : before'.length = before.length :=
        Nat.le_antisymm (hfirst hcut _ _ hs) (hleast _ _ hs')
      obtain ⟨rfl, hrest⟩ := List.append_inj (hs'.symm.trans hs) hlength
      rw [List.append_cancel_left hrest]

/-! ## The last cut, and the front of a text -/

/-- A text is cut at the last `c`, if it has one. -/
theorem cutLast?_eq_some_iff :
    cutLast? c s = some (before, after) ↔ s = before ++ c :: after ∧ c ∉ after := by
  constructor
  · intro h
    have hwhole := List.takeWhile_append_dropWhile (p := (· != c)) (l := s.reverse)
    unfold cutLast? at h
    split at h
    · cases h
    · rename_i x behind hdrop
      obtain ⟨rfl, rfl⟩ := Prod.mk.inj (Option.some.inj h)
      have hx : x = c := by
        have hhead := List.head?_dropWhile_not (· != c) s.reverse
        rw [hdrop] at hhead
        simpa using hhead
      refine ⟨?_, fun hmem => ?_⟩
      · rw [hdrop, hx] at hwhole
        simpa using (congrArg List.reverse hwhole).symm
      · have htake := List.mem_takeWhile_imp (List.mem_reverse.mp hmem)
        simp at htake
  · rintro ⟨rfl, hafter⟩
    have hpos : ∀ x ∈ after.reverse, (x != c) = true := fun x hx =>
      bne_iff_ne.mpr (ne_of_mem_of_not_mem (List.mem_reverse.mp hx) hafter)
    have hreverse : (before ++ c :: after).reverse = after.reverse ++ c :: before.reverse := by
      simp
    rw [cutLast?, hreverse, List.dropWhile_append_of_pos hpos, List.takeWhile_append_of_pos hpos]
    simp

theorem stripStart?_eq_some_iff : stripStart? start s = some rest ↔ s = start ++ rest := by
  rw [stripStart?]
  constructor
  · intro h
    split at h
    · rename_i hpre
      obtain ⟨t, rfl⟩ := List.isPrefixOf_iff_prefix.mp hpre
      rw [List.drop_left] at h
      rw [Option.some.inj h]
    · cases h
  · rintro rfl
    rw [if_pos (List.isPrefixOf_iff_prefix.mpr (List.prefix_append start rest)), List.drop_left]

/-- What is in front of the first `c`, or all of the text if there is none. -/
theorem takeWhile_ne_eq_iff :
    s.takeWhile (· != c) = front ↔
      ∃ behind, s = front ++ behind ∧ c ∉ front ∧ ∀ x ∈ behind.head?, x = c := by
  constructor
  · rintro rfl
    refine ⟨s.dropWhile (· != c), List.takeWhile_append_dropWhile.symm, fun hmem => ?_, ?_⟩
    · simpa using List.mem_takeWhile_imp hmem
    · intro x hx
      have hhead := List.head?_dropWhile_not (· != c) s
      rw [Option.mem_def.mp hx] at hhead
      simpa using hhead
  · rintro ⟨behind, rfl, hfront, hbehind⟩
    have hpos : ∀ x ∈ front, (x != c) = true := fun x hx =>
      bne_iff_ne.mpr (ne_of_mem_of_not_mem hx hfront)
    rw [List.takeWhile_append_of_pos hpos]
    cases behind with
    | nil => simp
    | cons x behind => simp [hbehind x rfl]

/-! ## Numerals -/

/-- A numeral of `n`: one or more digits with that value, and perhaps a plus sign in front. -/
def IsNumeral (s : List Char) (n : Nat) : Prop :=
  ∃ ds, (s = ds ∨ s = '+' :: ds) ∧ ds ≠ [] ∧ (∀ c ∈ ds, c.isDigit = true) ∧
    Nat.ofDigitChars 10 ds 0 = n

theorem digitsValue?_eq_some_iff :
    digitsValue? s = some n ↔
      s ≠ [] ∧ (∀ c ∈ s, c.isDigit = true) ∧ Nat.ofDigitChars 10 s 0 = n := by
  have hvalue : s.foldl (fun n c => 10 * n + digitValue c) 0 = Nat.ofDigitChars 10 s 0 := rfl
  rw [digitsValue?, hvalue]
  constructor
  · intro h
    split at h
    · cases h
    · rename_i hdigits
      simp only [Bool.or_eq_true, Bool.not_eq_true', not_or, List.isEmpty_iff,
        Bool.not_eq_false, List.all_eq_true] at hdigits
      exact ⟨hdigits.1, hdigits.2, Option.some.inj h⟩
  · rintro ⟨hne, hdigits, rfl⟩
    rw [if_neg]
    simpa [hne] using hdigits

theorem numeral?_eq_some_iff : numeral? s = some n ↔ IsNumeral s n := by
  unfold numeral?
  split
  · rename_i ds
    rw [digitsValue?_eq_some_iff]
    constructor
    · exact fun h => ⟨ds, Or.inr rfl, h⟩
    · rintro ⟨ds', rfl | heq, hne, hdigits, hn⟩
      · exact absurd (hdigits '+' List.mem_cons_self) (by decide)
      · rw [List.tail_eq_of_cons_eq heq]
        exact ⟨hne, hdigits, hn⟩
  · rename_i hplus
    rw [digitsValue?_eq_some_iff]
    constructor
    · exact fun h => ⟨s, Or.inl rfl, h⟩
    · rintro ⟨ds, rfl | rfl, h⟩
      · exact h
      · exact absurd rfl (hplus ds)

/-- A text is read as a number within the limit exactly if it is a numeral of it. -/
theorem numeralUpTo?_eq_some_iff :
    numeralUpTo? limit s = some n ↔ IsNumeral s n ∧ n ≤ limit := by
  rw [numeralUpTo?, Option.filter_eq_some_iff, numeral?_eq_some_iff, decide_eq_true_eq]

theorem isNumeral_digits (n : Nat) : IsNumeral (digits n) n :=
  (numeralUpTo?_eq_some_iff.mp (numeralUpTo?_digits (Nat.le_refl n))).1

end Text
end StreamConformance
