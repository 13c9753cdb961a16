import StreamConformance.Json.Basic
import StreamConformance.Json.Decimal

/-!
# Reading JSON text

The readers work on bytes and return what is left behind the value.  They are strict: no
leading zeros, no trailing commas, no raw control characters in strings, surrogate escapes
only in pairs, and a string must be valid UTF-8 --- which is found out when its closing quote
is reached, so anything else that is wrong inside a string comes first.

Objects are read by `readMembers`, which shows every key to a reader of the caller's choice.
So a format can refuse a key on the spot, before the text behind it is looked at, refuse a
value while it is read, or keep it for later.

## Depth and fuel

Arrays and objects may nest `maxDepth - 1` deep.  The recursion itself runs on fuel; every
call that goes deeper or further has used up a byte, so `fuelFor` the text is always enough.
-/

namespace StreamConformance
namespace Json

/-- A text as the bytes that are still to be read. -/
abbrev Bytes := List UInt8

/-- What a reader returns: a value and the bytes behind it. -/
abbrev Read (α : Type) := Except Fault (α × Bytes)

/-- One more than the depth to which arrays and objects may nest. -/
def maxDepth : Nat := 128

/-- Space, tab, line feed and carriage return may surround tokens. -/
def isSpace (b : UInt8) : Bool :=
  b == 0x20 || b == 0x09 || b == 0x0A || b == 0x0D

/-- Skip the white space before a token. -/
def skipSpace (s : Bytes) : Bytes :=
  s.dropWhile isSpace

/-- The digits `0` to `9`. -/
def isDigit (b : UInt8) : Bool :=
  0x30 ≤ b && b ≤ 0x39

/-- The value of a digit. -/
def digitValue (b : UInt8) : Nat :=
  b.toNat - 0x30

/-! ### Strings -/

/-- The value of a hexadecimal digit of either case. -/
def hexValue? (b : UInt8) : Option Nat :=
  if 0x30 ≤ b && b ≤ 0x39 then some (b.toNat - 0x30)
  else if 0x61 ≤ b && b ≤ 0x66 then some (b.toNat - 0x61 + 10)
  else if 0x41 ≤ b && b ≤ 0x46 then some (b.toNat - 0x41 + 10)
  else none

/-- The value of four hexadecimal digits. -/
def hex4? (a b c d : UInt8) : Option Nat :=
  match hexValue? a, hexValue? b, hexValue? c, hexValue? d with
  | some a, some b, some c, some d => some (((a * 16 + b) * 16 + c) * 16 + d)
  | _, _, _, _ => none

/-- The character that an escape of one letter stands for. -/
def shortEscape? (b : UInt8) : Option Char :=
  if b == 0x22 then some '"'
  else if b == 0x5C then some '\\'
  else if b == 0x2F then some '/'
  else if b == 0x62 then some '\x08'
  else if b == 0x66 then some '\x0c'
  else if b == 0x6E then some '\n'
  else if b == 0x72 then some '\r'
  else if b == 0x74 then some '\t'
  else none

/-- The first half of a surrogate pair. -/
def isLeading (n : Nat) : Bool :=
  0xD800 ≤ n && n ≤ 0xDBFF

/-- The second half of a surrogate pair. -/
def isTrailing (n : Nat) : Bool :=
  0xDC00 ≤ n && n ≤ 0xDFFF

/-- The character that a surrogate pair stands for. -/
def pairedChar (leading trailing : Nat) : Char :=
  Char.ofNat (0x10000 + (leading - 0xD800) * 0x400 + (trailing - 0xDC00))

/-- Put the bytes of a character in front of bytes that are kept in reverse. -/
def pushChar (c : Char) (reversed : Bytes) : Bytes :=
  (String.utf8EncodeChar c).reverse ++ reversed

/-- The text of bytes that were kept in reverse, if they are valid UTF-8. -/
def decodeReversed (reversed : Bytes) : Except Fault String :=
  match String.fromUTF8? reversed.reverse.toByteArray with
  | some s => .ok s
  | none => .error .malformed

/-- Read a string behind its opening quote; `reversed` holds the bytes of its characters so
far, the last one first. -/
def readStringAfter (reversed : Bytes) : Bytes → Read String
  | [] => .error .truncated
  | b :: s =>
    if b == 0x22 then
      match decodeReversed reversed with
      | .ok text => .ok (text, s)
      | .error e => .error e
    else if b == 0x5C then
      match s with
      | [] => .error .truncated
      | e :: s =>
        if e == 0x75 then
          match s with
          | h₁ :: h₂ :: h₃ :: h₄ :: s =>
            match hex4? h₁ h₂ h₃ h₄ with
            | none => .error .malformed
            | some n =>
              if isTrailing n then .error .malformed
              else if isLeading n then
                match s with
                | [] => .error .truncated
                | x :: s =>
                  if x != 0x5C then .error .malformed
                  else
                    match s with
                    | [] => .error .truncated
                    | x :: s =>
                      if x != 0x75 then .error .malformed
                      else
                        match s with
                        | t₁ :: t₂ :: t₃ :: t₄ :: s =>
                          match hex4? t₁ t₂ t₃ t₄ with
                          | none => .error .malformed
                          | some m =>
                            if isTrailing m then
                              readStringAfter (pushChar (pairedChar n m) reversed) s
                            else .error .malformed
                        | _ => .error .truncated
              else readStringAfter (pushChar (Char.ofNat n) reversed) s
          | _ => .error .truncated
        else
          match shortEscape? e with
          | some c => readStringAfter (pushChar c reversed) s
          | none => .error .malformed
    else if b < 0x20 then .error .malformed
    else readStringAfter (b :: reversed) s

/-! ### Numbers -/

/-- Append digits to a significand, the first of them first, until one of them would make it
too large for 64 bits; the others do not count.  The result is the significand and the number
of digits that were appended, `taken` more than here. -/
def appendDigits (significand taken : Nat) : Bytes → Nat × Nat
  | [] => (significand, taken)
  | b :: s =>
    let longer := 10 * significand + digitValue b
    if longer < 0x10000000000000000 then appendDigits longer (taken + 1) s else (significand, taken)

/-- The decimal number with these parts.  Digits before the point that have found no room in
the significand still count as places; digits behind the point that have found none are lost. -/
def decimal (whole fraction : Bytes) (exponent : Int) : Decimal :=
  let (significand, integral) := appendDigits 0 0 whole
  let (significand, fractional) := appendDigits significand 0 fraction
  ⟨significand, exponent + (whole.length - integral : Nat) - fractional⟩

/-- The value of a number of one or more digits, if 64 bits have room for it. -/
def integer? (whole : Bytes) : Option Nat :=
  match appendDigits 0 0 whole with
  | (n, taken) => if taken == whole.length then some n else none

/-- The double that a decimal number is read as, if it is in range. -/
def toDouble (d : Decimal) : Except Fault Number :=
  if d.overflows then .error .malformed else .ok .float

/-- What a number with these digits and this sign is if it has neither fraction nor exponent.
An integer keeps its value if it fits into 64 bits, signed or not; minus zero does not. -/
def classify (negative : Bool) (whole : Bytes) : Except Fault Number :=
  match integer? whole with
  | none => toDouble (decimal whole [] 0)
  | some n =>
    if !negative then .ok (.integer n)
    else if 0 < n && n ≤ 0x8000000000000000 then .ok (.integer (-n))
    else .ok .float

/-- Read the digits of a fraction, if there is one; the flag says whether there is. -/
def readFraction : Bytes → Read (Bytes × Bool)
  | [] => .ok (([], false), [])
  | b :: s =>
    if b == 0x2E then
      match s.takeWhile isDigit, s.dropWhile isDigit with
      | [], [] => .error .truncated
      | [], _ :: _ => .error .malformed
      | ds, s => .ok ((ds, true), s)
    else .ok (([], false), b :: s)

/-- A bound for the digits of an exponent.  No text has room for so many places, so that all
exponents from here on are alike. -/
def exponentLimit : Nat := 0x80000000

/-- Read the digits of an exponent behind its letter and sign. -/
def readExponentDigits (negative : Bool) : Bytes → Read (Option Int)
  | [] => .error .truncated
  | b :: s =>
    if isDigit b then
      let n : Nat :=
        ((b :: s).takeWhile isDigit).foldl (fun n b => min (10 * n + digitValue b) exponentLimit) 0
      .ok (some (if negative then -n else n), (b :: s).dropWhile isDigit)
    else .error .malformed

/-- Read an exponent, if there is one. -/
def readExponent : Bytes → Read (Option Int)
  | [] => .ok (none, [])
  | b :: s =>
    if b == 0x65 || b == 0x45 then
      match s with
      | 0x2B :: s => readExponentDigits false s
      | 0x2D :: s => readExponentDigits true s
      | s => readExponentDigits false s
    else .ok (none, b :: s)

/-- Read what may follow the whole digits of a number: a fraction and an exponent. -/
def readScale (negative : Bool) (whole : Bytes) (s : Bytes) : Read Number :=
  match readFraction s with
  | .error e => .error e
  | .ok ((fraction, pointed), s) =>
    match readExponent s with
    | .error e => .error e
    | .ok (exponent, s) =>
      let number :=
        if pointed || exponent.isSome then toDouble (decimal whole fraction (exponent.getD 0))
        else classify negative whole
      number.map fun n => (n, s)

/-- Read a number behind its sign. -/
def readMagnitude (negative : Bool) : Bytes → Read Number
  | [] => .error .truncated
  | b :: s =>
    if b == 0x30 then
      match s with
      | d :: _ => if isDigit d then .error .malformed else readScale negative [b] s
      | [] => readScale negative [b] s
    else if isDigit b then
      readScale negative ((b :: s).takeWhile isDigit) ((b :: s).dropWhile isDigit)
    else .error .malformed

/-! ### Scalars and literals -/

/-- Read the rest of a literal, byte by byte. -/
def readLiteral (value : Value) : Bytes → Bytes → Read Value
  | [], s => .ok (value, s)
  | _ :: _, [] => .error .truncated
  | l :: ls, b :: s => if l == b then readLiteral value ls s else .error .malformed

/-- Read a value that is neither an array nor an object and begins with the byte `b`. -/
def readScalar (b : UInt8) (s : Bytes) : Read Value :=
  if b == 0x22 then
    match readStringAfter [] s with
    | .ok (text, s) => .ok (.string text, s)
    | .error e => .error e
  else if b == 0x6E then readLiteral .null [0x75, 0x6C, 0x6C] s
  else if b == 0x74 then readLiteral (.bool true) [0x72, 0x75, 0x65] s
  else if b == 0x66 then readLiteral (.bool false) [0x61, 0x6C, 0x73, 0x65] s
  else if b == 0x2D then (readMagnitude true s).map fun r => (.number r.1, r.2)
  else if isDigit b then (readMagnitude false (b :: s)).map fun r => (.number r.1, r.2)
  else .error .malformed

/-! ### Arrays and objects -/

/-- What comes next between the brackets of an array or object. -/
inductive Next where
  /-- The closing bracket, and the bytes behind it. -/
  | closed (rest : Bytes)
  /-- An item that begins with the byte `b`, and the bytes behind that byte. -/
  | item (b : UInt8) (rest : Bytes)

/-- Find the next item behind an opening bracket (`first`) or behind an item.  Items after the
first stand behind a comma, and a comma is not followed by the closing bracket. -/
def nextItem (close : UInt8) (first : Bool) (s : Bytes) : Except Fault Next :=
  match skipSpace s with
  | [] => .error .truncated
  | b :: s =>
    if b == close then .ok (.closed s)
    else if first then .ok (.item b s)
    else if b != 0x2C then .error .malformed
    else
      match skipSpace s with
      | [] => .error .truncated
      | b :: s => if b == close then .error .malformed else .ok (.item b s)

/-- Read a key that begins with the byte `b`. -/
def readKey (b : UInt8) (s : Bytes) : Read String :=
  if b != 0x22 then .error .malformed else readStringAfter [] s

/-- Read the colon behind a key. -/
def readColon (s : Bytes) : Except Fault Bytes :=
  match skipSpace s with
  | [] => .error .truncated
  | b :: s => if b == 0x3A then .ok s else .error .malformed

/-- How a format takes in the members of an object: given a key and what came of the members
before, it refuses the key, or says how the value behind it is read. -/
abbrev MemberReader (α : Type) := String → α → Except Fault (Bytes → Read α)

/-- Read the members of an object behind its opening brace (`first`) or behind a member.  A
key is shown to `member` before the colon behind it is looked at. -/
def readMembers {α : Type} (member : MemberReader α) : Nat → Bool → α → Bytes → Read α
  | 0, _, _, _ => .error .truncated
  | fuel + 1, first, acc, s =>
    match nextItem 0x7D first s with
    | .error e => .error e
    | .ok (.closed s) => .ok (acc, s)
    | .ok (.item b s) =>
      match readKey b s with
      | .error e => .error e
      | .ok (key, s) =>
        match member key acc with
        | .error e => .error e
        | .ok value =>
          match readColon s with
          | .error e => .error e
          | .ok s =>
            match value s with
            | .error e => .error e
            | .ok (acc, s) => readMembers member fuel false acc s

/-- Read the elements of an array behind its opening bracket (`first`) or behind an element. -/
def readElements (element : Bytes → Read Value) :
    Nat → Bool → List Value → Bytes → Read (List Value)
  | 0, _, _, _ => .error .truncated
  | fuel + 1, first, reversed, s =>
    match nextItem 0x5D first s with
    | .error e => .error e
    | .ok (.closed s) => .ok (reversed.reverse, s)
    | .ok (.item b s) =>
      match element (b :: s) with
      | .error e => .error e
      | .ok (v, s) => readElements element fuel false (v :: reversed) s

/-- Read a value of any shape.  `depth` is one more than the number of levels that may still
be opened. -/
def readValue : Nat → Nat → Bytes → Read Value
  | 0, _, _ => .error .truncated
  | fuel + 1, depth, s =>
    match skipSpace s with
    | [] => .error .truncated
    | b :: s =>
      if b == 0x5B then
        if depth ≤ 1 then .error .malformed
        else
          (readElements (readValue fuel (depth - 1)) fuel true [] s).map
            fun r => (.array r.1, r.2)
      else if b == 0x7B then
        if depth ≤ 1 then .error .malformed
        else
          (readMembers
              (fun key members => .ok fun s =>
                (readValue fuel (depth - 1) s).map fun r => ((key, r.1) :: members, r.2))
              fuel true [] s).map
            fun r => (.object r.1.reverse, r.2)
      else readScalar b s

/-- Enough fuel for every reading of a text. -/
def fuelFor (s : Bytes) : Nat :=
  2 * s.length + 2

/-- Read a value that must be a string.  A scalar of another kind is read whole before it is
refused; an array or object is refused at its opening bracket. -/
def readExpectedString (s : Bytes) : Read String :=
  match skipSpace s with
  | [] => .error .truncated
  | b :: s =>
    if b == 0x5B || b == 0x7B then .error .mismatched
    else
      match readScalar b s with
      | .error e => .error e
      | .ok (.string text, s) => .ok (text, s)
      | .ok _ => .error .mismatched

/-- Read a value that must be an object, member by member; anything else is refused as in
`readExpectedString`. -/
def readExpectedObject {α : Type} (member : MemberReader α) (fuel : Nat) (acc : α)
    (s : Bytes) : Read α :=
  match skipSpace s with
  | [] => .error .truncated
  | b :: s =>
    if b == 0x7B then readMembers member fuel true acc s
    else if b == 0x5B then .error .mismatched
    else
      match readScalar b s with
      | .error e => .error e
      | .ok _ => .error .mismatched

/-- Only white space may follow a whole text. -/
def finish {α : Type} : Read α → Except Fault α
  | .error e => .error e
  | .ok (a, s) => if (skipSpace s).isEmpty then .ok a else .error .malformed

end Json
end StreamConformance
