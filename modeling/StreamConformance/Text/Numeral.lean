/-!
# Numerals

A numeral is an optional plus sign and one or more ASCII digits, most significant first.
Leading zeros are allowed; a numeral stands for a number of a given range or for nothing.
`digits` is the inverse direction: the shortest numeral of a number, without a sign.
-/

namespace StreamConformance
namespace Text

/-- The value of an ASCII digit. -/
def digitValue (c : Char) : Nat :=
  c.toNat - '0'.toNat

/-- The number that a nonempty run of ASCII digits stands for. -/
def digitsValue? (s : List Char) : Option Nat :=
  if s.isEmpty || !s.all Char.isDigit then none
  else some (s.foldl (fun n c => 10 * n + digitValue c) 0)

/-- The number that a numeral stands for. -/
def numeral? : List Char → Option Nat
  | '+' :: s => digitsValue? s
  | s => digitsValue? s

/-- The number that a numeral stands for, if it is at most `limit`. -/
def numeralUpTo? (limit : Nat) (s : List Char) : Option Nat :=
  (numeral? s).filter (· ≤ limit)

/-- The decimal digits of a number. -/
def digits (n : Nat) : List Char :=
  Nat.toDigits 10 n

end Text
end StreamConformance
