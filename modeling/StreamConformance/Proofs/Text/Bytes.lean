import Mathlib.Data.List.Basic

/-!
# The bytes of a text

A text goes over the wire in UTF-8.  This file says of its bytes what a reader of bytes has to
know: they are those of its characters, one after another (`bytes_eq`), they can be turned back
into the text (`fromUTF8?_bytes`), an ASCII character is one byte (`encodeChar_of_lt`), and no
byte of any other character is an ASCII byte (`le_of_mem_encodeChar`).
-/

namespace StreamConformance
namespace Text

open String (utf8EncodeChar)

/-- The bytes of a text. -/
def bytes (s : String) : List UInt8 :=
  s.toUTF8.toList

/-- The loop behind `ByteArray.toList` appends the bytes from `i` on. -/
theorem toList_loop (b : ByteArray) (i : Nat) (reversed : List UInt8) :
    ByteArray.toList.loop b i reversed = reversed.reverse ++ b.data.toList.drop i := by
  induction i, reversed using ByteArray.toList.loop.induct b with
  | case1 i reversed hi ih =>
    have hget : b.data.toList.drop i = b.get! i :: b.data.toList.drop (i + 1) := by
      have hlt : i < b.data.toList.length := hi
      rw [List.drop_eq_getElem_cons hlt, ByteArray.get!, getElem!_pos b.data i hi]
      rfl
    rw [ByteArray.toList.loop.eq_1, if_pos hi, ih, hget]
    simp
  | case2 i reversed hi =>
    have hle : b.data.toList.length ≤ i := Nat.le_of_not_lt hi
    rw [ByteArray.toList.loop.eq_1, if_neg hi, List.drop_of_length_le hle, List.append_nil]

theorem toList_eq (b : ByteArray) : b.toList = b.data.toList := by
  rw [ByteArray.toList.eq_1, toList_loop]
  rfl

theorem bytes_eq_data (s : String) : bytes s = s.toByteArray.data.toList :=
  toList_eq _

theorem bytes_append (s t : String) : bytes (s ++ t) = bytes s ++ bytes t := by
  simp only [bytes_eq_data, String.toByteArray_append, ByteArray.toList_data_append]

theorem length_bytes (s : String) : (bytes s).length = s.utf8ByteSize := by
  rw [bytes_eq_data]
  rfl

/-- The bytes of a text are those of its characters. -/
theorem bytes_eq (s : String) : bytes s = s.toList.flatMap utf8EncodeChar := by
  rw [bytes_eq_data, ← String.utf8Encode_toList, List.utf8Encode.eq_1, List.data_toByteArray]

theorem toByteArray_bytes (s : String) : (bytes s).toByteArray = s.toByteArray := by
  rw [bytes_eq, ← List.utf8Encode.eq_1, String.utf8Encode_toList]

/-- The bytes of a text are read as that text. -/
theorem fromUTF8?_bytes (s : String) : String.fromUTF8? (bytes s).toByteArray = some s := by
  rw [toByteArray_bytes, String.fromUTF8?, dif_pos s.isValidUTF8]
  rfl

/-- An ASCII character is one byte. -/
theorem encodeChar_of_lt {c : Char} (h : c.toNat < 0x80) :
    utf8EncodeChar c = [UInt8.ofNat c.toNat] := by
  have hsmall : c.val.toNat ≤ 127 := Nat.le_of_lt_succ h
  rw [String.utf8EncodeChar.eq_1, if_pos hsmall]
  rfl

/-- No byte of another character is an ASCII byte. -/
theorem le_of_mem_encodeChar {c : Char} (h : 0x80 ≤ c.toNat) {b : UInt8}
    (hb : b ∈ utf8EncodeChar c) : 0x80 ≤ b := by
  have hsmall : ¬ c.val.toNat ≤ 127 := Nat.not_le_of_lt h
  rw [UInt8.le_iff_toNat_le]
  rw [String.utf8EncodeChar.eq_1, if_neg hsmall] at hb
  split at hb
  · simp only [List.mem_cons, List.not_mem_nil, or_false] at hb
    rcases hb with rfl | rfl <;> simp <;> omega
  · split at hb
    · simp only [List.mem_cons, List.not_mem_nil, or_false] at hb
      rcases hb with rfl | rfl | rfl <;> simp <;> omega
    · simp only [List.mem_cons, List.not_mem_nil, or_false] at hb
      rcases hb with rfl | rfl | rfl | rfl <;> simp <;> omega

end Text
end StreamConformance
