import Mathlib.Data.String.Basic
import StreamConformance.Marble
import StreamConformance.Proofs.Json.Sizes

/-!
# Value maps

A value map gives payloads to characters, and nothing keeps it from giving more than one.  What then
counts is said here without the search that finds it: the last entry of a key (`IsLast`), and in it
the pair with the smallest data (`IsLeast`), so that each character means one payload
(`means_iff`).

Nothing is lost or reordered on the way in: every value map can be written, and is read as what was
written (`readValueMap_writeValueMap`).
-/

namespace StreamConformance

namespace Json

open Text (bytes)

variable {β : Type} {read : Bytes → Read β}

/-! ## Reading objects of one kind of value -/

/-- Read an object whose values are all read by `read`, in the order of the text. -/
def readEntries (read : Bytes → Read β) (fuel : Nat) (s : Bytes) : Read (List (String × β)) :=
  (readExpectedObject
      (fun key entries => .ok fun s => (read s).map fun r => ((key, r.1) :: entries, r.2))
      fuel [] s).map
    fun r => (r.1.reverse, r.2)

theorem readExpectedObject_writeObject {α : Type} {member : MemberReader α}
    {members : List (String × String)} {acc acc' : α} (h : TakesAll member members acc acc')
    {fuel : Nat} (hfuel : members.length < fuel) (rest : Bytes) :
    readExpectedObject member fuel acc (bytes (writeObject members) ++ rest) =
      .ok (acc', rest) := by
  have hread : ∃ s, bytes (writeObject members) ++ rest = 0x7B :: s ∧
      readMembers member fuel true acc s = .ok (acc', rest) := by
    cases members with
    | nil =>
      cases h
      obtain ⟨fuel, rfl⟩ := Nat.exists_eq_add_of_le' hfuel
      have hempty : bytes (writeObject []) = [0x7B, 0x7D] := by
        rw [Text.bytes_eq]
        rfl
      exact ⟨0x7D :: rest, by rw [hempty]; rfl, rfl⟩
    | cons m members => exact readMembers_writeObject h hfuel rest
  obtain ⟨s, hs, hread⟩ := hread
  rw [readExpectedObject, hs, skipSpace_of_not_isSpace rfl]
  exact hread

/-- An object is read as it was written if its values are. -/
theorem readEntries_writeObject {write : β → String} {entries : List (String × β)}
    (h : ∀ e ∈ entries, ∀ rest, Stops rest → read (bytes (write e.2) ++ rest) = .ok (e.2, rest))
    {fuel : Nat} (hfuel : entries.length < fuel) (rest : Bytes) :
    readEntries read fuel (bytes (writeObject (entries.map fun e => (e.1, write e.2))) ++ rest) =
      .ok (entries, rest) := by
  have hall := takesAll_keep Prod.fst h []
  have hlength : (entries.map fun e => (e.1, write e.2)).length < fuel := by
    rwa [List.length_map]
  rw [readEntries, readExpectedObject_writeObject hall hlength]
  simp [Except.map]

theorem readExpectedString_writeString (s : String) (rest : Bytes) :
    readExpectedString (bytes (writeString s) ++ rest) = .ok (s, rest) := by
  rw [bytes_writeString, List.cons_append, List.append_assoc, List.singleton_append,
    readExpectedString, skipSpace_of_not_isSpace rfl]
  simp [readScalar_writeString]

end Json

namespace Marble

open Text (bytes)
open Json (readEntries readExpectedString fuelFor length_le_length_writeObject)

/-! ## What is written is read -/

/-- The pairs of a value map as they are written. -/
def writePairs (pairs : List (String × String)) : String :=
  Json.writeObject (pairs.map fun e => (e.1, Json.writeString e.2))

/-- A value map as it is written. -/
def writeValueMap (values : ValueMap) : String :=
  Json.writeObject (values.map fun e => (e.1, writePairs e.2))

theorem readValueMap_eq (text : String) :
    readValueMap text =
      Json.finish (readEntries (readEntries readExpectedString (fuelFor (bytes text)))
        (fuelFor (bytes text)) (bytes text)) :=
  rfl

/-- **A value map is read as it was written**, with all its entries and pairs, in order. -/
theorem readValueMap_writeValueMap (values : ValueMap) :
    readValueMap (writeValueMap values) = .ok values := by
  -- The fuel is that of the whole text, also for the objects in it, which are no longer than it.
  have hfuel {members : List (String × String)} {size : Nat}
      (h : (bytes (Json.writeObject members)).length ≤ size) : members.length < 2 * size + 2 := by
    have hlength := (length_le_length_writeObject members).1
    omega
  have hpairs : ∀ e ∈ values, ∀ rest, Json.Stops rest →
      readEntries readExpectedString (fuelFor (bytes (writeValueMap values)))
        (bytes (writePairs e.2) ++ rest) = .ok (e.2, rest) := by
    intro e he rest _
    have hsize := (length_le_length_writeObject (values.map fun e => (e.1, writePairs e.2))).2 _
      (List.mem_map_of_mem he)
    have hlength := hfuel hsize
    rw [List.length_map] at hlength
    exact Json.readEntries_writeObject
      (fun e _ rest _ => Json.readExpectedString_writeString e.2 rest) hlength rest
  have hlength := hfuel (Nat.le_refl (bytes (writeValueMap values)).length)
  rw [List.length_map] at hlength
  have hread := Json.readEntries_writeObject hpairs hlength []
  rw [List.append_nil] at hread
  rw [readValueMap_eq, fuelFor, writeValueMap]
  exact congrArg Json.finish hread

/-! ## What is found in a value map -/

variable {α : Type} {key : String} {v : α} {entries : List (String × α)}
  {pairs : List (String × String)} {values : ValueMap} {c : Char} {p : Payload}

/-- The last entry of a key. -/
def IsLast (key : String) (entries : List (String × α)) (v : α) : Prop :=
  ∃ before after, entries = before ++ (key, v) :: after ∧ ∀ e ∈ after, e.1 ≠ key

/-- The pair with the smallest data; of several with the same data, the last. -/
structure IsLeast (pairs : List (String × String)) (p : Payload) : Prop where
  last : IsLast p.data pairs p.metadata
  least : ∀ e ∈ pairs, p.data ≤ e.1

/-- What a character means: the pair with the smallest data in its last entry, and itself if it has
no entry or if that is empty. -/
inductive Means (values : ValueMap) (c : Char) : Payload → Prop
  | entry {pairs : List (String × String)} {p : Payload} (last : IsLast c.toString values pairs)
      (least : IsLeast pairs p) : Means values c p
  | empty (last : IsLast c.toString values []) : Means values c ⟨c.toString, c.toString⟩
  | absent (h : ∀ e ∈ values, e.1 ≠ c.toString) : Means values c ⟨c.toString, c.toString⟩

theorem lastWith?_eq_some_iff : lastWith? key entries = some v ↔ IsLast key entries v := by
  rw [lastWith?, Option.map_eq_some_iff]
  constructor
  · rintro ⟨e, hfind, rfl⟩
    obtain ⟨hkey, after, before, hentries, hafter⟩ := List.find?_eq_some_iff_append.mp hfind
    obtain rfl := beq_iff_eq.mp hkey
    refine ⟨before.reverse, after.reverse, ?_, fun e' he' => ?_⟩
    · simpa using congrArg List.reverse hentries
    · simpa using hafter e' (List.mem_reverse.mp he')
  · rintro ⟨before, after, rfl, hafter⟩
    refine ⟨(key, v), List.find?_eq_some_iff_append.mpr ⟨beq_self_eq_true key, after.reverse,
      before.reverse, by simp, fun e he => ?_⟩, rfl⟩
    simpa using hafter e (List.mem_reverse.mp he)

theorem lastWith?_eq_none_iff : lastWith? key entries = none ↔ ∀ e ∈ entries, e.1 ≠ key := by
  simp [lastWith?, List.find?_eq_none]

theorem leastKey?_eq_none_iff : leastKey? entries = none ↔ entries = [] := by
  cases entries with
  | nil => exact iff_of_true rfl rfl
  | cons e entries =>
    rw [leastKey?]
    split <;> simp

theorem leastKey?_spec (h : leastKey? entries = some key) :
    (∃ v, (key, v) ∈ entries) ∧ ∀ e ∈ entries, key ≤ e.1 := by
  induction entries generalizing key with
  | nil => cases h
  | cons e entries ih =>
    rw [leastKey?] at h
    split at h
    · rename_i hnone
      obtain rfl := leastKey?_eq_none_iff.mp hnone
      obtain rfl := Option.some.inj h
      exact ⟨⟨e.2, List.mem_cons_self⟩, by simp⟩
    · rename_i least hleast
      obtain ⟨⟨v, hv⟩, hle⟩ := ih hleast
      obtain rfl := Option.some.inj h
      split
      · rename_i hlt
        exact ⟨⟨v, List.mem_cons_of_mem e hv⟩,
          List.forall_mem_cons.mpr ⟨hlt.le, hle⟩⟩
      · rename_i hlt
        exact ⟨⟨e.2, List.mem_cons_self⟩, List.forall_mem_cons.mpr
          ⟨le_refl _, fun e' he' => (not_lt.mp hlt).trans (hle e' he')⟩⟩

theorem leastPair?_eq_some_iff : leastPair? pairs = some p ↔ IsLeast pairs p := by
  unfold leastPair?
  split
  · rename_i hnone
    obtain rfl := leastKey?_eq_none_iff.mp hnone
    refine iff_of_false (by simp) fun h => ?_
    obtain ⟨before, after, hpairs, -⟩ := h.last
    simp at hpairs
  · rename_i least hleast
    obtain ⟨⟨v, hv⟩, hle⟩ := leastKey?_spec hleast
    rw [Option.map_eq_some_iff]
    constructor
    · rintro ⟨metadata, hlast, rfl⟩
      exact ⟨lastWith?_eq_some_iff.mp hlast, hle⟩
    · intro h
      obtain ⟨before, after, hpairs, -⟩ := h.last
      have hdata : least = p.data :=
        le_antisymm (hle (p.data, p.metadata) (by simp [hpairs])) (h.least _ hv)
      exact ⟨p.metadata, lastWith?_eq_some_iff.mpr (hdata ▸ h.last), by rw [hdata]⟩

theorem leastPair?_eq_none_iff : leastPair? pairs = none ↔ pairs = [] := by
  constructor
  · intro h
    unfold leastPair? at h
    split at h
    · exact leastKey?_eq_none_iff.mp ‹_›
    · rename_i least hleast
      obtain ⟨⟨v, hv⟩, -⟩ := leastKey?_spec hleast
      exact absurd rfl (lastWith?_eq_none_iff.mp (Option.map_eq_none_iff.mp h) _ hv)
  · rintro rfl
    rfl

theorem means_payloadOf (values : ValueMap) (c : Char) : Means values c (payloadOf values c) := by
  unfold payloadOf
  dsimp only
  rcases hentry : lastWith? c.toString values with _ | pairs
  · exact .absent (lastWith?_eq_none_iff.mp hentry)
  · have hlast := lastWith?_eq_some_iff.mp hentry
    rw [Option.bind_some]
    rcases hleast : leastPair? pairs with _ | p
    · obtain rfl := leastPair?_eq_none_iff.mp hleast
      exact .empty hlast
    · exact .entry hlast (leastPair?_eq_some_iff.mp hleast)

/-- **Each character means one payload**, and it is the one that is found for it. -/
theorem means_iff : Means values c p ↔ p = payloadOf values c := by
  constructor
  · intro h
    unfold payloadOf
    dsimp only
    cases h with
    | entry last least =>
      rw [lastWith?_eq_some_iff.mpr last, Option.bind_some, leastPair?_eq_some_iff.mpr least,
        Option.getD_some]
    | empty last =>
      rw [lastWith?_eq_some_iff.mpr last, Option.bind_some, leastPair?_eq_none_iff.mpr rfl,
        Option.getD_none]
    | absent h => rw [lastWith?_eq_none_iff.mpr h, Option.bind_none, Option.getD_none]
  · rintro rfl
    exact means_payloadOf values c

end Marble
end StreamConformance
