/-!
# Cutting a text at a delimiter

A delimiter is a nonempty run of characters.  `cut?` divides a text at its leftmost
occurrence, `split` at all of them, and `cutLast?` divides at the last occurrence of a single
character.  Occurrences do not overlap: the search goes on behind the one that was found.

The law that ties `cut?` to the text is `append_of_cut?`: the two parts with the delimiter
between them are the text again.
-/

namespace StreamConformance
namespace Text

/-- A run of characters that separates the parts of a text; it has at least one. -/
structure Delimiter where
  first : Char
  rest : List Char := []
  deriving DecidableEq

/-- The characters of a delimiter. -/
def Delimiter.chars (d : Delimiter) : List Char :=
  d.first :: d.rest

/-- The text before and the text after the leftmost occurrence of `d`. -/
def cut? (d : Delimiter) : List Char → Option (List Char × List Char)
  | [] => none
  | c :: cs =>
    if d.chars.isPrefixOf (c :: cs) then some ([], (c :: cs).drop d.chars.length)
    else (cut? d cs).map fun parts => (c :: parts.1, parts.2)

/-- The parts of a cut, with the delimiter between them, are the text. -/
theorem append_of_cut? {d : Delimiter} {s before after : List Char}
    (h : cut? d s = some (before, after)) : s = before ++ (d.chars ++ after) := by
  induction s generalizing before with
  | nil => simp [cut?] at h
  | cons c cs ih =>
    rw [cut?] at h
    split at h
    · rename_i hp
      obtain ⟨t, ht⟩ := List.isPrefixOf_iff_prefix.mp hp
      simp only [Option.some.injEq, Prod.mk.injEq] at h
      obtain ⟨rfl, rfl⟩ := h
      rw [← ht]
      simp
    · simp only [Option.map_eq_some_iff, Prod.mk.injEq] at h
      obtain ⟨⟨b, a⟩, hba, rfl, rfl⟩ := h
      rw [ih hba]
      rfl

/-- What is left behind a delimiter is shorter than the text. -/
theorem length_of_cut? {d : Delimiter} {s before after : List Char}
    (h : cut? d s = some (before, after)) : after.length < s.length := by
  rw [append_of_cut? h]
  simp [Delimiter.chars]
  omega

/-- The parts of a text between the occurrences of `d`; there is at least one part. -/
def split (d : Delimiter) (s : List Char) : List (List Char) :=
  match _h : cut? d s with
  | none => [s]
  | some (before, after) => before :: split d after
termination_by s.length
decreasing_by exact length_of_cut? _h

/-- The text before and the text after the last `c`. -/
def cutLast? (c : Char) (s : List Char) : Option (List Char × List Char) :=
  match (s.reverse.dropWhile (· != c)) with
  | [] => none
  | _ :: before => some (before.reverse, (s.reverse.takeWhile (· != c)).reverse)

/-- The text behind an opening run of characters, if it begins with it. -/
def stripStart? (start s : List Char) : Option (List Char) :=
  if start.isPrefixOf s then some (s.drop start.length) else none

/-- The lines of a text: the parts before each line feed, and what stands behind the last one
unless that is empty. -/
def lines (s : List Char) : List (List Char) :=
  match (split ⟨'\n', []⟩ s).reverse with
  | [] :: earlier => earlier.reverse
  | parts => parts.reverse

end Text
end StreamConformance
