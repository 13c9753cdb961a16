import Mathlib.Algebra.GroupWithZero.Nat
import Mathlib.Algebra.Order.BigOperators.Group.List
import Mathlib.Algebra.Order.Group.Nat
import StreamConformance.Proofs.Json.RoundTrip

/-!
# How long a written value is

The bytes of a written value, counted part by part.  The escape of a text is that of its pieces, so
the count of a text that was put together is a sum, and so is that of an object: each member counts
with the bracket or the comma in front of it (`memberSize`).
-/

namespace StreamConformance
namespace Json

open Text (bytes bytes_eq bytes_append)

/-! ## Strings -/

theorem bytes_escape_append (s t : String) :
    bytes (escape (s ++ t)) = bytes (escape s) ++ bytes (escape t) := by
  simp only [bytes_eq, toList_escape, String.toList_append, List.flatMap_append]

theorem length_writeString (s : String) :
    (bytes (writeString s)).length = (bytes (escape s)).length + 2 := by
  simp [bytes_writeString]

/-! ## Objects -/

/-- The size of a member, with the bracket or the comma in front of it. -/
def memberSize (m : String × String) : Nat :=
  1 + (memberBytes m).length

theorem memberSize_eq (key text : String) :
    memberSize (key, text) = (bytes (escape key)).length + (bytes text).length + 4 := by
  simp only [memberSize, memberBytes, List.length_append, List.length_cons, length_writeString]
  omega

theorem length_writeObject_cons (m : String × String) (members : List (String × String)) :
    (bytes (writeObject (m :: members))).length = ((m :: members).map memberSize).sum + 1 := by
  have hlater : (laterBytes members).length = (members.map memberSize).sum := by
    induction members with
    | nil => rfl
    | cons m members ih =>
      rw [laterBytes, List.flatMap_cons, List.length_append, ← laterBytes, ih, List.map_cons,
        List.sum_cons, memberSize, List.length_cons, Nat.add_comm 1]
  rw [bytes_writeObject, List.map_cons, List.sum_cons, ← hlater, memberSize]
  simp only [List.length_cons, List.length_append, List.length_nil]
  omega

/-- An object has at least one byte for each of its members, and at least those of each value. -/
theorem length_le_length_writeObject (members : List (String × String)) :
    members.length ≤ (bytes (writeObject members)).length ∧
      ∀ m ∈ members, (bytes m.2).length ≤ (bytes (writeObject members)).length := by
  cases members with
  | nil => exact ⟨Nat.zero_le _, fun m hm => absurd hm List.not_mem_nil⟩
  | cons m members =>
    rw [length_writeObject_cons]
    refine ⟨?_, fun m' hm' => ?_⟩
    · have hone : ∀ m' ∈ (m :: members).map memberSize, 1 ≤ m' := by
        intro k hk
        obtain ⟨m', -, rfl⟩ := List.mem_map.mp hk
        exact Nat.le_add_right 1 _
      have hsum := List.length_le_sum_of_one_le _ hone
      rw [List.length_map] at hsum
      exact Nat.le_succ_of_le hsum
    · have hmem := List.le_sum_of_mem (List.mem_map_of_mem (f := memberSize) hm')
      rw [memberSize_eq m'.1 m'.2] at hmem
      omega

end Json
end StreamConformance
