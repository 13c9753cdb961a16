import StreamConformance.Json.Printer
import StreamConformance.Json.Reader
import StreamConformance.Proofs.Text.Bytes

/-!
# What is written is read

Strings, numbers and objects are read as what they were written for, whatever stands behind them:
a string may be followed by anything, a number by what ends it (`Stops`), and an object by
anything once its members are read.
-/

namespace StreamConformance
namespace Json

open String (utf8EncodeChar)
open Text (bytes bytes_eq bytes_append encodeChar_of_lt le_of_mem_encodeChar)

/-! ## Strings -/

/-- Bytes that stand for themselves inside a string. -/
def IsPlain (b : UInt8) : Prop :=
  b ≠ 0x22 ∧ b ≠ 0x5C ∧ 0x20 ≤ b

theorem readStringAfter_plain {b : UInt8} (h : IsPlain b) (reversed rest : Bytes) :
    readStringAfter reversed (b :: rest) = readStringAfter (b :: reversed) rest := by
  obtain ⟨hquote, hslash, hcontrol⟩ := h
  conv_lhs => unfold readStringAfter
  rw [if_neg (by simpa using hquote), if_neg (by simpa using hslash),
    if_neg (by simpa using hcontrol)]

theorem readStringAfter_append_plain {bs : Bytes} (h : ∀ b ∈ bs, IsPlain b)
    (reversed rest : Bytes) :
    readStringAfter reversed (bs ++ rest) = readStringAfter (bs.reverse ++ reversed) rest := by
  induction bs generalizing reversed with
  | nil => rfl
  | cons b bs ih =>
    rw [List.cons_append, readStringAfter_plain (h b List.mem_cons_self),
      ih (fun b' hb' => h b' (List.mem_cons_of_mem _ hb'))]
    simp

/-- A control character is written as the two digits of its number. -/
theorem hex4?_hexDigit : ∀ n < 0x20,
    hex4? 0x30 0x30 (UInt8.ofNat (hexDigit (n / 16)).toNat)
      (UInt8.ofNat (hexDigit (n % 16)).toNat) = some n := by
  decide

theorem hexDigit_lt : ∀ n < 16, (hexDigit n).toNat < 0x80 := by
  decide

theorem readStringAfter_unicode {n : Nat} {h₁ h₂ h₃ h₄ : UInt8} (h : hex4? h₁ h₂ h₃ h₄ = some n)
    (hn : n < 0x20) (reversed rest : Bytes) :
    readStringAfter reversed (0x5C :: 0x75 :: h₁ :: h₂ :: h₃ :: h₄ :: rest) =
      readStringAfter (pushChar (Char.ofNat n) reversed) rest := by
  have htrailing : isTrailing n = false := by
    simp only [isTrailing, Bool.and_eq_false_iff, decide_eq_false_iff_not]
    omega
  have hleading : isLeading n = false := by
    simp only [isLeading, Bool.and_eq_false_iff, decide_eq_false_iff_not]
    omega
  conv_lhs => unfold readStringAfter
  simp only [h, htrailing, hleading]
  rfl

theorem readStringAfter_short {e : UInt8} {c : Char} (h : shortEscape? e = some c)
    (he : e ≠ 0x75) (reversed rest : Bytes) :
    readStringAfter reversed (0x5C :: e :: rest) = readStringAfter (pushChar c reversed) rest := by
  conv_lhs => unfold readStringAfter
  simp [h, he]

theorem readStringAfter_control {c : Char} (h : c.toNat < 0x20) (reversed rest : Bytes) :
    readStringAfter reversed
      (['\\', 'u', '0', '0', hexDigit (c.toNat / 16), hexDigit (c.toNat % 16)].flatMap
        utf8EncodeChar ++ rest) = readStringAfter (pushChar c reversed) rest := by
  have hlow : c.toNat % 16 < 16 := Nat.mod_lt _ (by decide)
  have hhigh : c.toNat / 16 < 16 := by omega
  have hbytes : ['\\', 'u', '0', '0', hexDigit (c.toNat / 16), hexDigit (c.toNat % 16)].flatMap
      utf8EncodeChar =
      [0x5C, 0x75, 0x30, 0x30, UInt8.ofNat (hexDigit (c.toNat / 16)).toNat,
        UInt8.ofNat (hexDigit (c.toNat % 16)).toNat] := by
    simp only [List.flatMap_cons, List.flatMap_nil, encodeChar_of_lt (hexDigit_lt _ hlow),
      encodeChar_of_lt (hexDigit_lt _ hhigh)]
    rfl
  rw [hbytes, List.cons_append, List.cons_append, List.cons_append, List.cons_append,
    List.cons_append, List.cons_append, List.nil_append,
    readStringAfter_unicode (hex4?_hexDigit _ h) h, Char.ofNat_toNat]

/-- The bytes of a character that needs no escape are no quotes, backslashes or control bytes. -/
theorem isPlain_of_mem_encodeChar {c : Char} (hquote : c ≠ '"') (hslash : c ≠ '\\')
    (hcontrol : ¬ c.toNat < 0x20) {b : UInt8} (hb : b ∈ utf8EncodeChar c) : IsPlain b := by
  by_cases hascii : c.toNat < 0x80
  · rw [encodeChar_of_lt hascii, List.mem_singleton] at hb
    subst hb
    have hnat : (UInt8.ofNat c.toNat).toNat = c.toNat :=
      UInt8.toNat_ofNat_of_lt' (Nat.lt_trans hascii (by decide))
    refine ⟨fun h => hquote ?_, fun h => hslash ?_, ?_⟩
    · exact Char.ext (UInt32.toNat_inj.mp (hnat.symm.trans (congrArg UInt8.toNat h)))
    · exact Char.ext (UInt32.toNat_inj.mp (hnat.symm.trans (congrArg UInt8.toNat h)))
    · rw [UInt8.le_iff_toNat_le, hnat]
      exact Nat.le_of_not_lt hcontrol
  · have hle : 0x80 ≤ b := le_of_mem_encodeChar (Nat.le_of_not_lt hascii) hb
    rw [UInt8.le_iff_toNat_le] at hle
    refine ⟨?_, ?_, UInt8.le_iff_toNat_le.mpr (Nat.le_trans (by decide) hle)⟩
    · rintro rfl
      exact absurd hle (by decide)
    · rintro rfl
      exact absurd hle (by decide)

/-- A written character is read as that character. -/
theorem readStringAfter_escapeChar (c : Char) (reversed rest : Bytes) :
    readStringAfter reversed ((escapeChar c).flatMap utf8EncodeChar ++ rest) =
      readStringAfter (pushChar c reversed) rest := by
  unfold escapeChar
  split
  · exact readStringAfter_short (e := 0x22) rfl (by decide) reversed rest
  · exact readStringAfter_short (e := 0x5C) rfl (by decide) reversed rest
  · exact readStringAfter_short (e := 0x62) rfl (by decide) reversed rest
  · exact readStringAfter_short (e := 0x74) rfl (by decide) reversed rest
  · exact readStringAfter_short (e := 0x6E) rfl (by decide) reversed rest
  · exact readStringAfter_short (e := 0x66) rfl (by decide) reversed rest
  · exact readStringAfter_short (e := 0x72) rfl (by decide) reversed rest
  · rename_i hquote hslash _ _ _ _ _
    split
    · rename_i hcontrol
      exact readStringAfter_control hcontrol reversed rest
    · rename_i hcontrol
      rw [List.flatMap_singleton, pushChar]
      exact readStringAfter_append_plain
        (fun b hb => isPlain_of_mem_encodeChar hquote hslash hcontrol hb) reversed rest

/-- A string has at most as many characters as its written form has bytes. -/
theorem length_le_length_bytes_escape (s : String) : s.length ≤ (bytes (escape s)).length := by
  rw [bytes_eq, toList_escape, ← String.length_toList]
  induction s.toList with
  | nil => exact Nat.le_refl 0
  | cons c cs ih =>
    have hpos : 0 < ((escapeChar c).flatMap utf8EncodeChar).length := by
      have hne : escapeChar c ≠ [] := by
        unfold escapeChar
        repeat' split
        all_goals exact List.cons_ne_nil _ _
      obtain ⟨e, es, he⟩ := List.exists_cons_of_ne_nil hne
      rw [he, List.flatMap_cons, List.length_append, String.length_utf8EncodeChar]
      exact Nat.add_pos_left e.utf8Size_pos _
    rw [List.flatMap_cons, List.flatMap_append, List.length_append, List.length_cons]
    omega

theorem readStringAfter_escape (s : String) (reversed rest : Bytes) :
    readStringAfter reversed (bytes (escape s) ++ rest) =
      readStringAfter ((bytes s).reverse ++ reversed) rest := by
  rw [bytes_eq, bytes_eq, toList_escape, List.flatMap_assoc]
  induction s.toList generalizing reversed with
  | nil => rfl
  | cons c cs ih =>
    rw [List.flatMap_cons, List.append_assoc, readStringAfter_escapeChar, ih, pushChar]
    simp

/-- A written string is read as that string, whatever stands behind it. -/
theorem readStringAfter_writeString (s : String) (rest : Bytes) :
    readStringAfter [] (bytes (escape s) ++ 0x22 :: rest) = .ok (s, rest) := by
  rw [readStringAfter_escape]
  unfold readStringAfter
  rw [if_pos (beq_self_eq_true _), List.append_nil, decodeReversed, List.reverse_reverse,
    Text.fromUTF8?_bytes]

/-! ## Numbers -/

/-- Bytes behind a number that are no part of it. -/
def Stops (rest : Bytes) : Prop :=
  ∀ b ∈ rest.head?, isDigit b = false ∧ b ≠ 0x2E ∧ b ≠ 0x65 ∧ b ≠ 0x45

/-- The byte of a digit. -/
def digitByte (c : Char) : UInt8 :=
  UInt8.ofNat c.toNat

theorem toNat_digitByte {c : Char} (h : c.isDigit = true) :
    (digitByte c).toNat = c.toNat ∧ 48 ≤ c.toNat ∧ c.toNat ≤ 57 := by
  obtain ⟨hlow, hhigh⟩ := Char.isDigit_iff_toNat.mp h
  exact ⟨UInt8.toNat_ofNat_of_lt' (Nat.lt_of_le_of_lt hhigh (by decide)), hlow, hhigh⟩

theorem isDigit_digitByte {c : Char} (h : c.isDigit = true) : isDigit (digitByte c) = true := by
  obtain ⟨hnat, hlow, hhigh⟩ := toNat_digitByte h
  simp only [isDigit, Bool.and_eq_true, decide_eq_true_eq, UInt8.le_iff_toNat_le, hnat]
  exact ⟨hlow, hhigh⟩

theorem digitValue_digitByte {c : Char} (h : c.isDigit = true) :
    digitValue (digitByte c) = c.toNat - '0'.toNat := by
  rw [digitValue, (toNat_digitByte h).1]
  rfl

theorem bytes_writeNat (n : Nat) : bytes (writeNat n) = (Nat.toDigits 10 n).map digitByte := by
  rw [bytes_eq, writeNat, String.toList_ofList, List.map_eq_flatMap]
  refine List.flatMap_congr fun c hc => ?_
  have hdigit := Nat.isDigit_of_mem_toDigits (by decide) (by decide) hc
  obtain ⟨-, -, hhigh⟩ := toNat_digitByte hdigit
  exact encodeChar_of_lt (Nat.lt_of_le_of_lt hhigh (by decide))

theorem le_ofDigitChars (ds : List Char) (n : Nat) : n ≤ Nat.ofDigitChars 10 ds n := by
  induction ds generalizing n with
  | nil => exact Nat.le_refl n
  | cons c ds ih =>
    rw [Nat.ofDigitChars_cons]
    exact Nat.le_trans (by omega) (ih _)

/-- Digits find room in a significand if their number does. -/
theorem appendDigits_map {ds : List Char} (hds : ∀ c ∈ ds, c.isDigit = true) {n : Nat}
    (h : Nat.ofDigitChars 10 ds n < 0x10000000000000000) (taken : Nat) :
    appendDigits n taken (ds.map digitByte) = (Nat.ofDigitChars 10 ds n, taken + ds.length) := by
  induction ds generalizing n taken with
  | nil => rfl
  | cons c ds ih =>
    have hc := hds c List.mem_cons_self
    rw [Nat.ofDigitChars_cons] at h
    have hlt := Nat.lt_of_le_of_lt (le_ofDigitChars ds _) h
    rw [List.map_cons, appendDigits, digitValue_digitByte hc, if_pos hlt,
      ih (fun c' hc' => hds c' (List.mem_cons_of_mem _ hc')) h, Nat.ofDigitChars_cons,
      List.length_cons]
    simp only [Nat.add_assoc, Nat.add_comm 1]

theorem isDigit_toDigits (n : Nat) : ∀ c ∈ Nat.toDigits 10 n, c.isDigit = true :=
  fun _ hc => Nat.isDigit_of_mem_toDigits (by decide) (by decide) hc

theorem integer?_toDigits {n : Nat} (h : n < 0x10000000000000000) :
    integer? ((Nat.toDigits 10 n).map digitByte) = some n := by
  rw [integer?, appendDigits_map (isDigit_toDigits n) (by rwa [Nat.ofDigitChars_ten_toDigits]),
    Nat.ofDigitChars_ten_toDigits]
  simp

/-- Only zero begins with the digit zero. -/
theorem head_toDigits (n : Nat) :
    ∃ c cs, Nat.toDigits 10 n = c :: cs ∧ (c = '0' → n = 0 ∧ cs = []) := by
  induction n using Nat.strongRecOn with
  | ind n ih =>
    rw [Nat.toDigits_eq_if (by decide)]
    split
    · refine ⟨_, [], rfl, fun h => ⟨?_, rfl⟩⟩
      have hdigits : ∀ m < 10, m.digitChar = '0' → m = 0 := by decide
      exact hdigits n ‹_› h
    · rename_i hn
      obtain ⟨c, cs, hcs, hzero⟩ := ih (n / 10) (by omega)
      refine ⟨c, cs ++ [(n % 10).digitChar], by rw [hcs, List.cons_append], fun h => ?_⟩
      have := (hzero h).1
      omega

section Number

variable {rest : Bytes} (hrest : Stops rest)
include hrest

theorem readFraction_of_stops : readFraction rest = .ok (([], false), rest) := by
  cases rest with
  | nil => rfl
  | cons b rest =>
    obtain ⟨-, hpoint, -, -⟩ := hrest b rfl
    rw [readFraction, if_neg (by simpa using hpoint)]

theorem readExponent_of_stops : readExponent rest = .ok (none, rest) := by
  cases rest with
  | nil => rfl
  | cons b rest =>
    obtain ⟨-, -, hlower, hupper⟩ := hrest b rfl
    exact if_neg (by simp [hlower, hupper])

theorem readScale_of_stops {whole : Bytes} {n : Nat} (h : integer? whole = some n) :
    readScale false whole rest = .ok (.integer n, rest) := by
  simp only [readScale, readFraction_of_stops hrest, readExponent_of_stops hrest, classify, h]
  rfl

theorem takeWhile_isDigit {ds : Bytes} (hds : ∀ b ∈ ds, isDigit b = true) :
    (ds ++ rest).takeWhile isDigit = ds ∧ (ds ++ rest).dropWhile isDigit = rest := by
  have hhead : rest.takeWhile isDigit = [] ∧ rest.dropWhile isDigit = rest := by
    cases rest with
    | nil => exact ⟨rfl, rfl⟩
    | cons b rest => simp [(hrest b rfl).1]
  rw [List.takeWhile_append_of_pos hds, List.dropWhile_append_of_pos hds, hhead.1, hhead.2]
  simp

theorem readMagnitude_zero : readMagnitude false (0x30 :: rest) = readScale false [0x30] rest := by
  cases rest with
  | nil => rfl
  | cons b rest =>
    obtain ⟨hdigit, -⟩ := hrest b rfl
    have hnot : ¬ isDigit b = true := by simp [hdigit]
    exact if_neg hnot

theorem readMagnitude_of_ne {b : UInt8} {ds : Bytes} (hne : b ≠ 0x30)
    (hds : ∀ b' ∈ b :: ds, isDigit b' = true) :
    readMagnitude false (b :: ds ++ rest) = readScale false (b :: ds) rest := by
  obtain ⟨htake, hdrop⟩ := takeWhile_isDigit hrest hds
  have hnot : ¬ (b == 0x30) = true := by simp [hne]
  refine (if_neg hnot).trans ((if_pos (hds b List.mem_cons_self)).trans ?_)
  exact congrArg₂ (readScale false) htake hdrop

/-- A written number is read as that number. -/
theorem readMagnitude_writeNat {n : Nat} (hn : n < 0x10000000000000000) :
    readMagnitude false (bytes (writeNat n) ++ rest) = .ok (.integer n, rest) := by
  have hscale := readScale_of_stops hrest (integer?_toDigits hn)
  have hdigits : ∀ b ∈ (Nat.toDigits 10 n).map digitByte, isDigit b = true := by
    intro b hb
    obtain ⟨c, hc, rfl⟩ := List.mem_map.mp hb
    exact isDigit_digitByte (isDigit_toDigits n c hc)
  obtain ⟨c, cs, hcs, hzero⟩ := head_toDigits n
  have hc := isDigit_toDigits n c (hcs ▸ List.mem_cons_self)
  rw [bytes_writeNat]
  rw [hcs, List.map_cons] at hscale hdigits ⊢
  rw [← hscale]
  by_cases hc0 : c = '0'
  · obtain ⟨-, rfl⟩ := hzero hc0
    subst hc0
    exact readMagnitude_zero hrest
  · refine readMagnitude_of_ne hrest (fun h => hc0 ?_) hdigits
    have hnat := (toNat_digitByte hc).1.symm.trans (congrArg UInt8.toNat h)
    exact Char.ext (UInt32.toNat_inj.mp hnat)

end Number

/-! ## Values -/

theorem skipSpace_of_not_isSpace {b : UInt8} (h : isSpace b = false) (s : Bytes) :
    skipSpace (b :: s) = b :: s :=
  List.dropWhile_cons_of_neg (by simp [h])

theorem bytes_writeString (s : String) :
    bytes (writeString s) = 0x22 :: (bytes (escape s) ++ [0x22]) := by
  have hquote : bytes "\"" = [0x22] := by
    rw [bytes_eq]
    rfl
  rw [writeString, bytes_append, bytes_append, hquote]
  rfl

theorem readScalar_writeString (s : String) (rest : Bytes) :
    readScalar 0x22 (bytes (escape s) ++ 0x22 :: rest) = .ok (.string s, rest) := by
  simp only [readScalar, beq_self_eq_true, readStringAfter_writeString]
  rfl

/-- A text is read as a value, with what `level` stands for to spare: fuel, and brackets that may
still be opened. -/
def ReadsAs (level : Nat) (text : String) (v : Value) : Prop :=
  ∀ fuel depth rest, level ≤ fuel → level ≤ depth → Stops rest →
    readValue fuel depth (bytes text ++ rest) = .ok (v, rest)

theorem ReadsAs.mono {level level' : Nat} {text : String} {v : Value}
    (h : ReadsAs level text v) (hle : level ≤ level') : ReadsAs level' text v :=
  fun fuel depth rest hfuel hdepth =>
    h fuel depth rest (Nat.le_trans hle hfuel) (Nat.le_trans hle hdepth)

/-- A value that begins with no white space and no bracket is a scalar. -/
theorem readValue_scalar {b : UInt8} (hspace : isSpace b = false) (harray : b ≠ 0x5B)
    (hobject : b ≠ 0x7B) (fuel depth : Nat) (s : Bytes) :
    readValue (fuel + 1) depth (b :: s) = readScalar b s := by
  conv_lhs => unfold readValue
  simp only [skipSpace_of_not_isSpace hspace]
  rw [if_neg (by simpa using harray), if_neg (by simpa using hobject)]

theorem readsAs_writeString (s : String) : ReadsAs 1 (writeString s) (.string s) := by
  intro fuel depth rest hfuel _ _
  obtain ⟨fuel, rfl⟩ := Nat.exists_eq_add_of_le' hfuel
  rw [bytes_writeString, List.cons_append, List.append_assoc, List.singleton_append,
    readValue_scalar rfl (by decide) (by decide), readScalar_writeString]

theorem ne_of_isDigit {b b' : UInt8} (hb : isDigit b = true) (hb' : isDigit b' = false) :
    b ≠ b' := by
  rintro rfl
  rw [hb] at hb'
  cases hb'

theorem readsAs_writeNat {n : Nat} (hn : n < 0x10000000000000000) :
    ReadsAs 1 (writeNat n) (.number (.integer n)) := by
  intro fuel depth rest hfuel _ hrest
  obtain ⟨fuel, rfl⟩ := Nat.exists_eq_add_of_le' hfuel
  have hread := readMagnitude_writeNat hrest hn
  have hhead : ∃ b ds, bytes (writeNat n) = b :: ds ∧ isDigit b = true := by
    obtain ⟨c, cs, hcs, -⟩ := head_toDigits n
    rw [bytes_writeNat, hcs]
    exact ⟨_, _, rfl, isDigit_digitByte (isDigit_toDigits n c (hcs ▸ List.mem_cons_self))⟩
  obtain ⟨b, ds, hbytes, hb⟩ := hhead
  have hother : ∀ b', isDigit b' = false → (b == b') = false :=
    fun b' hb' => beq_eq_false_iff_ne.mpr (ne_of_isDigit hb hb')
  have hspace : isSpace b = false := by
    simp only [isSpace, hother 0x20 rfl, hother 0x09 rfl, hother 0x0A rfl, hother 0x0D rfl]
    rfl
  rw [hbytes, List.cons_append] at hread ⊢
  rw [readValue_scalar hspace (ne_of_isDigit hb rfl) (ne_of_isDigit hb rfl)]
  simp only [readScalar, hother 0x22 rfl, hother 0x6E rfl, hother 0x74 rfl, hother 0x66 rfl,
    hother 0x2D rfl, hb, hread]
  rfl

/-! ## Objects -/

/-- The bytes of a member whose value is written already. -/
def memberBytes (m : String × String) : Bytes :=
  bytes (writeString m.1) ++ 0x3A :: bytes m.2

/-- The bytes of members that stand behind another one. -/
def laterBytes (members : List (String × String)) : Bytes :=
  members.flatMap fun m => 0x2C :: memberBytes m

theorem bytes_writeObject (m : String × String) (members : List (String × String)) :
    bytes (writeObject (m :: members)) =
      0x7B :: (memberBytes m ++ (laterBytes members ++ [0x7D])) := by
  have hliteral : bytes "\x7b" = [0x7B] ∧ bytes "\x7d" = [0x7D] ∧ bytes "," = [0x2C] ∧
      bytes ":" = [0x3A] := by
    simp only [bytes_eq]
    exact ⟨rfl, rfl, rfl, rfl⟩
  obtain ⟨hopen, hclose, hcomma, hcolon⟩ := hliteral
  have hmember : ∀ m : String × String, bytes (writeString m.1 ++ ":" ++ m.2) = memberBytes m := by
    intro m
    rw [bytes_append, bytes_append, hcolon, List.append_assoc]
    rfl
  have hjoin : bytes (",".intercalate ((m :: members).map fun m => writeString m.1 ++ ":" ++ m.2)) =
      memberBytes m ++ laterBytes members := by
    induction members generalizing m with
    | nil => simp [hmember, laterBytes]
    | cons m' members ih =>
      have hlater := ih m'
      rw [List.map_cons] at hlater
      rw [List.map_cons, List.map_cons, String.intercalate_cons_cons, bytes_append, bytes_append,
        hmember, hcomma, hlater]
      simp [laterBytes]
  rw [writeObject, bytes_append, bytes_append, hopen, hclose, hjoin]
  simp

theorem stops_laterBytes (members : List (String × String)) (rest : Bytes) :
    Stops (laterBytes members ++ 0x7D :: rest) := by
  intro b hb
  cases members with
  | nil =>
    obtain rfl := Option.some.inj hb
    decide
  | cons m members =>
    obtain rfl := Option.some.inj hb
    decide

section Members

variable {α : Type} {member : MemberReader α}

/-- What a reader of members makes of a written member. -/
def Takes (member : MemberReader α) (m : String × String) (acc acc' : α) : Prop :=
  ∃ value, member m.1 acc = .ok value ∧
    ∀ rest, Stops rest → value (bytes m.2 ++ rest) = .ok (acc', rest)

/-- What a reader of members makes of some written members, one after another. -/
inductive TakesAll (member : MemberReader α) : List (String × String) → α → α → Prop where
  | nil (acc : α) : TakesAll member [] acc acc
  | cons {m : String × String} {members : List (String × String)} {acc acc' acc'' : α}
      (head : Takes member m acc acc') (tail : TakesAll member members acc' acc'') :
      TakesAll member (m :: members) acc acc''

/-- Behind a bracket or comma a member is read, and then those behind it. -/
theorem readMembers_item {m : String × String} {acc acc' : α} {first : Bool} {fuel : Nat}
    {s rest : Bytes} (hm : Takes member m acc acc') (hrest : Stops rest)
    (hs : nextItem 0x7D first s = .ok (.item 0x22 (bytes (escape m.1) ++
      0x22 :: 0x3A :: (bytes m.2 ++ rest)))) :
    readMembers member (fuel + 1) first acc s = readMembers member fuel false acc' rest := by
  obtain ⟨value, hvalue, hread⟩ := hm
  conv_lhs => unfold readMembers
  have hkey : readKey 0x22 (bytes (escape m.1) ++ 0x22 :: 0x3A :: (bytes m.2 ++ rest)) =
      .ok (m.1, 0x3A :: (bytes m.2 ++ rest)) :=
    readStringAfter_writeString m.1 _
  have hcolon : readColon (0x3A :: (bytes m.2 ++ rest)) = .ok (bytes m.2 ++ rest) := rfl
  simp only [hs, hkey, hvalue, hcolon, hread rest hrest]

theorem readMembers_laterBytes {members : List (String × String)} {acc acc' : α}
    (h : TakesAll member members acc acc') {fuel : Nat} (hfuel : members.length < fuel)
    (rest : Bytes) :
    readMembers member fuel false acc (laterBytes members ++ 0x7D :: rest) = .ok (acc', rest) := by
  induction h generalizing fuel with
  | nil acc =>
    obtain ⟨fuel, rfl⟩ := Nat.exists_eq_add_of_le' hfuel
    rfl
  | @cons m members acc acc' acc'' hm htail ih =>
    obtain ⟨fuel, rfl⟩ := Nat.exists_eq_add_of_le' (Nat.zero_lt_of_lt hfuel)
    rw [readMembers_item hm (stops_laterBytes members rest)]
    · exact ih (Nat.lt_of_succ_lt_succ hfuel)
    · simp only [laterBytes, memberBytes, List.flatMap_cons, bytes_writeString, List.cons_append,
        List.append_assoc, List.nil_append]
      rfl

/-- The members of a written object are read one after another. -/
theorem readMembers_writeObject {m : String × String} {members : List (String × String)}
    {acc acc' : α} (h : TakesAll member (m :: members) acc acc') {fuel : Nat}
    (hfuel : (m :: members).length < fuel) (rest : Bytes) :
    ∃ s, bytes (writeObject (m :: members)) ++ rest = 0x7B :: s ∧
      readMembers member fuel true acc s = .ok (acc', rest) := by
  refine ⟨memberBytes m ++ (laterBytes members ++ 0x7D :: rest), by simp [bytes_writeObject], ?_⟩
  obtain ⟨fuel, rfl⟩ := Nat.exists_eq_add_of_le' (Nat.zero_lt_of_lt hfuel)
  cases h with
  | cons hm htail =>
    rw [readMembers_item hm (stops_laterBytes members rest)]
    · exact readMembers_laterBytes htail (Nat.lt_of_succ_lt_succ hfuel) rest
    · simp only [memberBytes, bytes_writeString, List.cons_append, List.append_assoc,
        List.nil_append]
      rfl

end Members

/-- A member with its value, written and as it is read. -/
structure Member where
  key : String
  text : String
  value : Value

/-- The member as it is written. -/
def Member.written (m : Member) : String × String :=
  (m.key, m.text)

/-- The member as it is read. -/
def Member.read (m : Member) : String × Value :=
  (m.key, m.value)

/-- Members are taken in by reading their values and keeping them in reverse. -/
theorem takesAll_keep {γ β : Type} {read : Bytes → Read β} {text : γ → String} {value : γ → β}
    {members : List γ} (key : γ → String)
    (h : ∀ m ∈ members, ∀ rest, Stops rest → read (bytes (text m) ++ rest) = .ok (value m, rest))
    (acc : List (String × β)) :
    TakesAll (fun key acc => .ok fun s => (read s).map fun r => ((key, r.1) :: acc, r.2))
      (members.map fun m => (key m, text m)) acc
      ((members.map fun m => (key m, value m)).reverse ++ acc) := by
  induction members generalizing acc with
  | nil => exact .nil acc
  | cons m members ih =>
    have htail := ih (fun m' hm' => h m' (List.mem_cons_of_mem _ hm')) ((key m, value m) :: acc)
    rw [List.map_cons, List.map_cons, List.reverse_cons, List.append_assoc]
    refine .cons ⟨_, rfl, fun rest hrest => ?_⟩ htail
    simp only [h m List.mem_cons_self rest hrest]
    rfl

theorem takesAll_collect {level fuel depth : Nat} {members : List Member}
    (h : ∀ m ∈ members, ReadsAs level m.text m.value) (hfuel : level ≤ fuel)
    (hdepth : level ≤ depth) (acc : List (String × Value)) :
    TakesAll (fun key acc => .ok fun s =>
        (readValue fuel depth s).map fun r => ((key, r.1) :: acc, r.2))
      (members.map Member.written) acc ((members.map Member.read).reverse ++ acc) :=
  takesAll_keep Member.key (fun m hm rest hrest => h m hm fuel depth rest hfuel hdepth hrest) acc

/-- A written object is read as that object. -/
theorem readsAs_writeObject {level : Nat} {m : Member} {members : List Member}
    (h : ∀ m' ∈ m :: members, ReadsAs level m'.text m'.value) :
    ReadsAs (level + members.length + 3) (writeObject ((m :: members).map Member.written))
      (.object ((m :: members).map Member.read)) := by
  intro fuel depth rest hfuel hdepth _
  obtain ⟨fuel, rfl⟩ := Nat.exists_eq_add_of_le' (Nat.le_trans (Nat.le_add_left 1 _) hfuel)
  have hfuel' : level ≤ fuel := by omega
  have hdepth' : level ≤ depth - 1 := by omega
  have hall := takesAll_collect h hfuel' hdepth' []
  rw [List.append_nil] at hall
  have hlength : ((m :: members).map Member.written).length < fuel := by
    rw [List.length_map, List.length_cons]
    omega
  obtain ⟨s, hs, hread⟩ := readMembers_writeObject hall hlength rest
  have hdeep : ¬ depth ≤ 1 := by omega
  rw [List.map_cons, hs]
  conv_lhs => unfold readValue
  rw [skipSpace_of_not_isSpace rfl]
  simp only [if_neg hdeep, hread]
  simp [Except.map]

end Json
end StreamConformance
