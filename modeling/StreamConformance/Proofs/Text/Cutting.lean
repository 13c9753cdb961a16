import Mathlib.Data.List.Chain
import Mathlib.Data.List.DropRight
import StreamConformance.Text.Blank
import StreamConformance.Text.Delimiter
import StreamConformance.Text.Numeral

/-!
# Cutting apart what was put together

Texts that are put together with a delimiter between them are the parts that `split` finds, unless
a delimiter begins earlier than it was meant to: inside of a part, or at the end of one, when the
characters of the delimiter are alike.

* `Delimiter.Ends`, `cut?_append`, `split_intercalate`: where the first delimiter is, and what the
  parts are.
* `NoPair`, `ends_pair`, `ends_single`: which parts a delimiter can be put behind.
* `forall_mem_intercalate`, `forall_getLast?_intercalate`, `NoPair.intercalate`: what a text that
  was put together inherits from its parts.
* `unlines`, `lines_unlines`, `lines_of_concat`: the lines of a text, with or without a line feed
  at its end.
* `IsTrimmed`, `trim_pad`: white space at both ends comes off.
* `numeralUpTo?_digits`: a number is read from its digits.
-/

namespace StreamConformance
namespace Text

variable {d : Delimiter} {c : Char} {p : Char → Bool} {w s text : List Char}
  {ws raws : List (List Char)}

/-! ## Delimiters -/

/-- The delimiter that is put behind `w` is the first one there. -/
def Delimiter.Ends (d : Delimiter) (w : List Char) : Prop :=
  ∀ u v, w ++ d.chars = u ++ (d.chars ++ v) → v = []

theorem Delimiter.Ends.tail (h : d.Ends (c :: w)) : d.Ends w :=
  fun u v huv => h (c :: u) v (by rw [List.cons_append, List.cons_append, huv])

/-- The text is cut at the delimiter that was put behind `w`. -/
theorem cut?_append (h : d.Ends w) (s : List Char) :
    cut? d (w ++ (d.chars ++ s)) = some (w, s) := by
  induction w with
  | nil =>
    have hpre : d.chars.isPrefixOf (d.first :: (d.rest ++ s)) = true :=
      List.isPrefixOf_iff_prefix.mpr ⟨s, rfl⟩
    rw [List.nil_append, Delimiter.chars, List.cons_append, cut?, if_pos hpre, ← List.cons_append,
      ← Delimiter.chars, List.drop_left]
  | cons c w ih =>
    have hpre : ¬ d.chars.isPrefixOf (c :: (w ++ (d.chars ++ s))) = true := by
      intro hpre
      have hshort : d.chars <+: (c :: w) ++ d.chars := by
        refine List.prefix_of_prefix_length_le (List.isPrefixOf_iff_prefix.mp hpre) ?_ ?_
        · exact ⟨s, by rw [List.append_assoc, List.cons_append]⟩
        · rw [List.length_append]
          omega
      obtain ⟨v, hv⟩ := hshort
      have hnil : v = [] := h [] v hv.symm
      have hlen := congrArg List.length hv
      rw [hnil, List.append_nil, List.length_append, List.length_cons] at hlen
      omega
    rw [List.cons_append, cut?, if_neg hpre, ih h.tail]
    rfl

theorem cut?_eq_none (h : d.Ends w) : cut? d w = none := by
  rcases hcut : cut? d w with _ | ⟨before, after⟩
  · rfl
  · have hw := append_of_cut? hcut
    have hnil : after ++ d.chars = [] := h before _ (by rw [hw]; simp)
    exact absurd (List.append_eq_nil_iff.mp hnil).2 (List.cons_ne_nil _ _)

/-- **What was put together with a delimiter is cut apart again.** -/
theorem split_intercalate (hne : ws ≠ []) (h : ∀ w ∈ ws, d.Ends w) :
    split d (d.chars.intercalate ws) = ws := by
  induction ws with
  | nil => exact absurd rfl hne
  | cons w ws ih =>
    have hw := h w List.mem_cons_self
    rw [split]
    by_cases hws : ws = []
    · rw [hws, List.intercalate_singleton]
      split
      · rfl
      · rename_i hcut
        rw [cut?_eq_none hw] at hcut
        cases hcut
    · rw [List.intercalate_cons_of_ne_nil hws, List.append_assoc]
      split
      · rename_i hcut
        rw [cut?_append hw] at hcut
        cases hcut
      · rename_i hcut
        rw [cut?_append hw] at hcut
        cases hcut
        rw [ih hws fun w' hw' => h w' (List.mem_cons_of_mem w hw')]

/-! ## Parts -/

/-- No `c` stands next to another. -/
def NoPair (c : Char) (s : List Char) : Prop :=
  s.IsChain fun a b => ¬ (a = c ∧ b = c)

theorem noPair_iff : NoPair c s ↔ ¬ [c, c] <:+: s := by
  constructor
  · intro h hin
    have hpair : NoPair c [c, c] := List.IsChain.infix h hin
    exact (List.isChain_cons_cons.mp hpair).1 ⟨rfl, rfl⟩
  · induction s with
    | nil => exact fun _ => List.IsChain.nil
    | cons a s ih =>
      intro h
      refine List.isChain_cons.mpr ⟨fun b hb hab => h ?_, ih fun hin => h (hin.trans
        (List.suffix_cons a s).isInfix)⟩
      obtain ⟨s', rfl⟩ : ∃ s', s = b :: s' := by
        cases s with
        | nil => cases hb
        | cons b' s' =>
          cases hb
          exact ⟨s', rfl⟩
      exact ⟨[], s', by rw [hab.1, hab.2]; rfl⟩

theorem noPair_of_not_mem (h : c ∉ s) : NoPair c s :=
  noPair_iff.mpr fun hin => h (hin.subset List.mem_cons_self)

/-- A delimiter of two characters that are alike can be put behind a text without such a pair that
does not end in the character. -/
theorem ends_pair (h : NoPair c w) (hlast : ∀ x ∈ w.getLast?, x ≠ c) :
    Delimiter.Ends ⟨c, [c]⟩ w := by
  intro u v huv
  have hpair : ¬ [c, c] <:+: w := noPair_iff.mp h
  rcases List.eq_nil_or_concat v with hv | ⟨v', x, rfl⟩
  · exact hv
  exfalso
  have hw : w ++ [c] = u ++ ([c, c] ++ v') := by
    have hsplit : (w ++ [c]) ++ [c] = (u ++ ([c, c] ++ v')) ++ [x] := by
      simpa [Delimiter.chars] using huv
    exact (List.append_inj' hsplit rfl).1
  rcases List.eq_nil_or_concat v' with rfl | ⟨v'', y, rfl⟩
  · have hsplit : w ++ [c] = (u ++ [c]) ++ [c] := by simpa using hw
    have hw' : w = u ++ [c] := (List.append_inj' hsplit rfl).1
    exact hlast c (by rw [hw', List.getLast?_concat]; exact rfl) rfl
  · have hsplit : w ++ [c] = (u ++ ([c, c] ++ v'')) ++ [y] := by simpa using hw
    have hw' : w = u ++ ([c, c] ++ v'') := (List.append_inj' hsplit rfl).1
    exact hpair ⟨u, v'', by rw [hw', List.append_assoc]⟩

/-- A delimiter of one character can be put behind a text without it. -/
theorem ends_single (h : c ∉ w) : Delimiter.Ends ⟨c, []⟩ w := by
  intro u v huv
  rcases List.eq_nil_or_concat v with hv | ⟨v', x, rfl⟩
  · exact hv
  have hsplit : w ++ [c] = (u ++ ([c] ++ v')) ++ [x] := by simpa [Delimiter.chars] using huv
  have hw : w = u ++ ([c] ++ v') := (List.append_inj' hsplit rfl).1
  exact absurd (by rw [hw]; simp) h

theorem NoPair.append (hw : NoPair c w) (hs : NoPair c s)
    (h : (∀ x ∈ w.getLast?, x ≠ c) ∨ ∀ y ∈ s.head?, y ≠ c) : NoPair c (w ++ s) := by
  refine List.isChain_append.mpr ⟨hw, hs, fun x hx y hy hxy => ?_⟩
  rcases h with h | h
  · exact h x hx hxy.1
  · exact h y hy hxy.2

/-! ## What is put together -/

section Intercalate

variable {sep : List Char} {P : Char → Prop}

theorem forall_mem_intercalate (hsep : ∀ c ∈ sep, P c) (h : ∀ w ∈ ws, ∀ c ∈ w, P c) :
    ∀ c ∈ sep.intercalate ws, P c := by
  induction ws with
  | nil => simp
  | cons w ws ih =>
    have hw := h w List.mem_cons_self
    by_cases hws : ws = []
    · rwa [hws, List.intercalate_singleton]
    · have hrest := ih fun w' hw' => h w' (List.mem_cons_of_mem w hw')
      rw [List.intercalate_cons_of_ne_nil hws]
      intro c hc
      rcases List.mem_append.mp hc with hc | hc
      · exact (List.mem_append.mp hc).elim (hw c) (hsep c)
      · exact hrest c hc

theorem forall_getLast?_append (hw : ∀ c ∈ w.getLast?, P c) (hs : ∀ c ∈ s.getLast?, P c) :
    ∀ c ∈ (w ++ s).getLast?, P c := by
  intro c hc
  rw [List.getLast?_append] at hc
  rcases Option.or_eq_some_iff.mp hc with hc | ⟨-, hc⟩
  · exact hs c hc
  · exact hw c hc

theorem forall_getLast?_intercalate (hsep : ∀ c ∈ sep.getLast?, P c)
    (h : ∀ w ∈ ws, ∀ c ∈ w.getLast?, P c) : ∀ c ∈ (sep.intercalate ws).getLast?, P c := by
  induction ws with
  | nil => simp
  | cons w ws ih =>
    have hw := h w List.mem_cons_self
    by_cases hws : ws = []
    · rwa [hws, List.intercalate_singleton]
    · rw [List.intercalate_cons_of_ne_nil hws]
      exact forall_getLast?_append (forall_getLast?_append hw hsep)
        (ih fun w' hw' => h w' (List.mem_cons_of_mem w hw'))

theorem NoPair.intercalate (hne : sep ≠ []) (hsep : c ∉ sep) (h : ∀ w ∈ ws, NoPair c w) :
    NoPair c (sep.intercalate ws) := by
  induction ws with
  | nil => exact List.IsChain.nil
  | cons w ws ih =>
    have hw := h w List.mem_cons_self
    by_cases hws : ws = []
    · rwa [hws, List.intercalate_singleton]
    · have hrest := ih fun w' hw' => h w' (List.mem_cons_of_mem w hw')
      have hlast : ∀ x ∈ sep.getLast?, x ≠ c := by
        rintro x hx rfl
        exact hsep (List.mem_of_getLast? hx)
      have hfirst : ∀ y ∈ (sep ++ sep.intercalate ws).head?, y ≠ c := by
        rintro y hy rfl
        rw [List.head?_append_of_ne_nil _ hne] at hy
        exact hsep (List.mem_of_head? hy)
      rw [List.intercalate_cons_of_ne_nil hws, List.append_assoc]
      exact hw.append ((noPair_of_not_mem hsep).append hrest (Or.inl hlast)) (Or.inr hfirst)

end Intercalate

/-! ## Lines -/

/-- Texts as lines, each with a line feed behind it. -/
def unlines (raws : List (List Char)) : List Char :=
  raws.flatMap (· ++ ['\n'])

theorem unlines_eq (raws : List (List Char)) :
    unlines raws = ['\n'].intercalate (raws ++ [[]]) := by
  induction raws with
  | nil => rfl
  | cons raw raws ih =>
    rw [unlines, List.flatMap_cons, ← unlines, ih, List.cons_append,
      List.intercalate_cons_of_ne_nil (List.append_ne_nil_of_right_ne_nil _ (List.cons_ne_nil _ _))]

theorem unlines_eq_concat (hne : raws ≠ []) :
    unlines raws = ['\n'].intercalate raws ++ ['\n'] := by
  induction raws with
  | nil => exact absurd rfl hne
  | cons raw raws ih =>
    rw [unlines, List.flatMap_cons, ← unlines]
    by_cases hraws : raws = []
    · rw [hraws, List.intercalate_singleton]
      exact List.append_nil _
    · rw [ih hraws, List.intercalate_cons_of_ne_nil hraws, ← List.append_assoc]

/-- The lines of a text that was put together of lines. -/
theorem lines_unlines (h : ∀ raw ∈ raws, '\n' ∉ raw) : lines (unlines raws) = raws := by
  have hends : ∀ raw ∈ raws ++ [[]], Delimiter.Ends ⟨'\n', []⟩ raw := by
    intro raw hraw
    rcases List.mem_append.mp hraw with hraw | hraw
    · exact ends_single (h raw hraw)
    · rw [List.mem_singleton.mp hraw]
      exact ends_single List.not_mem_nil
  have hsplit : split ⟨'\n', []⟩ (unlines raws) = raws ++ [[]] := by
    rw [unlines_eq]
    exact split_intercalate (List.append_ne_nil_of_right_ne_nil _ (List.cons_ne_nil _ _)) hends
  rw [lines, hsplit, List.reverse_append]
  exact List.reverse_reverse raws

/-- The lines of a text whose last line has no line feed behind it.  An empty last line is none. -/
theorem lines_of_concat (h : ∀ raw ∈ raws, '\n' ∉ raw) (htext : text ++ ['\n'] = unlines raws) :
    lines text = raws ∨ lines text ++ [[]] = raws := by
  have hne : raws ≠ [] := by
    rintro rfl
    exact absurd (List.append_eq_nil_iff.mp htext).2 (List.cons_ne_nil _ _)
  have hinter : text = ['\n'].intercalate raws :=
    List.append_cancel_right (htext.trans (unlines_eq_concat hne))
  have hsplit : split ⟨'\n', []⟩ text = raws := by
    rw [hinter]
    exact split_intercalate hne fun raw hraw => ends_single (h raw hraw)
  rw [lines, hsplit]
  rcases hrev : raws.reverse with _ | ⟨last, earlier⟩
  · exact Or.inl (List.reverse_eq_iff.mp hrev).symm
  · have hraws : raws = earlier.reverse ++ [last] := by
      rw [← List.reverse_reverse raws, hrev, List.reverse_cons]
    cases last with
    | nil => exact Or.inr hraws.symm
    | cons c last => exact Or.inl ((List.reverse_cons).trans hraws.symm)

/-! ## White space at the ends -/

/-- Nothing blank stands at either end. -/
def IsTrimmed (s : List Char) : Prop :=
  (∀ c ∈ s.head?, isBlank c = false) ∧ ∀ c ∈ s.getLast?, isBlank c = false

instance : DecidablePred IsTrimmed := fun s =>
  decidable_of_iff ((s.head?.all fun c => !isBlank c) = true ∧
      (s.getLast?.all fun c => !isBlank c) = true)
    (by simp only [IsTrimmed, Option.all_eq_true, Bool.not_eq_true', Option.mem_def])

theorem dropEndWhile_append (h : ∀ c ∈ s, p c = true) (w : List Char) :
    dropEndWhile p (w ++ s) = dropEndWhile p w := by
  rw [dropEndWhile, List.reverse_append,
    List.dropWhile_append_of_pos fun c hc => h c (List.mem_reverse.mp hc), ← dropEndWhile]

theorem dropEndWhile_eq_self (h : ∀ c ∈ s.getLast?, p c = false) : dropEndWhile p s = s := by
  rw [dropEndWhile]
  rcases hs : s.reverse with _ | ⟨c, s'⟩
  · exact (List.reverse_eq_iff.mp hs).symm
  · have hlast : c ∈ s.getLast? := by
      rw [List.getLast?_eq_head?_reverse, hs]
      exact rfl
    rw [List.dropWhile_cons_of_neg (by rw [h c hlast]; exact Bool.false_ne_true), ← hs,
      List.reverse_reverse]

theorem dropEndWhile_prefix (p : Char → Bool) (s : List Char) : dropEndWhile p s <+: s :=
  List.rdropWhile_prefix p s

/-- A text whose end is no `p` keeps it when what stands behind it loses its own. -/
theorem dropEndWhile_append_eq (hw : ∀ c ∈ w.getLast?, p c = false) (s : List Char) :
    dropEndWhile p (w ++ s) = w ++ dropEndWhile p s := by
  rw [dropEndWhile, List.reverse_append, List.dropWhile_append]
  split
  · rename_i hnil
    have hs : dropEndWhile p s = [] := by
      rw [dropEndWhile, List.isEmpty_iff.mp hnil, List.reverse_nil]
    rw [hs, List.append_nil, ← dropEndWhile, dropEndWhile_eq_self hw]
  · rw [List.reverse_append, List.reverse_reverse, ← dropEndWhile]

theorem trim_of_blank (h : ∀ c ∈ s, isBlank c = true) : trim s = [] := by
  rw [trim, List.dropWhile_eq_nil_iff.mpr h]
  rfl

/-- White space at the end does not matter to a trimmed text. -/
theorem trim_append_blank (h : ∀ c ∈ s, isBlank c = true) (w : List Char) :
    trim (w ++ s) = trim w := by
  rw [trim, trim, List.dropWhile_append]
  split
  · rename_i hnil
    rw [List.isEmpty_iff.mp hnil, List.dropWhile_eq_nil_iff.mpr h]
  · exact dropEndWhile_append h _

/-- **White space at the ends comes off.** -/
theorem trim_pad {pre post : List Char} (hpre : ∀ c ∈ pre, isBlank c = true)
    (hpost : ∀ c ∈ post, isBlank c = true) (hs : IsTrimmed s) :
    trim (pre ++ (s ++ post)) = s := by
  cases s with
  | nil =>
    refine trim_of_blank fun c hc => ?_
    rcases List.mem_append.mp hc with hc | hc
    · exact hpre c hc
    · exact hpost c hc
  | cons a s =>
    have ha : ¬ isBlank a = true := by
      rw [hs.1 a rfl]
      exact Bool.false_ne_true
    rw [trim, List.dropWhile_append_of_pos hpre, List.cons_append, List.dropWhile_cons_of_neg ha,
      ← List.cons_append, dropEndWhile_append hpost, dropEndWhile_eq_self hs.2]

/-! ## Numerals -/

theorem isDigit_of_mem_digits {n : Nat} (h : c ∈ digits n) : c.isDigit = true :=
  Nat.isDigit_of_mem_toDigits (by decide) (by decide) h

theorem digitsValue?_digits (n : Nat) : digitsValue? (digits n) = some n := by
  have hne : (digits n).isEmpty = false := by
    rw [digits, List.isEmpty_eq_false_iff]
    exact Nat.toDigits_ne_nil
  have hall : (digits n).all Char.isDigit = true :=
    List.all_eq_true.mpr fun c hc => isDigit_of_mem_digits hc
  rw [digitsValue?, hne, hall]
  exact congrArg some (Nat.ofDigitChars_toDigits (by decide) (by decide))

/-- **A number is read from its digits.** -/
theorem numeralUpTo?_digits {n limit : Nat} (h : n ≤ limit) :
    numeralUpTo? limit (digits n) = some n := by
  have hplus : numeral? (digits n) = digitsValue? (digits n) := by
    rw [numeral?]
    intro s hs
    have hmem : '+' ∈ digits n := by
      rw [hs]
      exact List.mem_cons_self
    exact absurd (isDigit_of_mem_digits hmem) (by decide)
  rw [numeralUpTo?, hplus, digitsValue?_digits]
  exact Option.filter_some_pos (decide_eq_true h)

end Text
end StreamConformance
