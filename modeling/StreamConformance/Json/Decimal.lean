/-!
# The range of a decimal number

A number with a fraction, an exponent or too many digits for 64 bits is read as a double: a
significand below `2 ^ 64` times a power of ten.  Which double that is does not matter to any
format built on top of the reader; whether there is one does.

Both factors are rounded to doubles first and multiplied then, so it is the product of the
rounded factors that decides, and near the largest double the answer differs from that for the
number as it was written --- in both directions.  A division cannot leave the range, so a
negative exponent is always fine.

The doubles met here are natural numbers, and `roundToDouble` stays among them; a number that
already is one is left alone (`roundToDouble_of_lt`).
-/

namespace StreamConformance
namespace Json

/-- The number `significand * 10 ^ exponent`. -/
structure Decimal where
  significand : Nat
  exponent : Int
  deriving DecidableEq

/-- The double nearest to a natural number, as a number of 53 significant bits; a number
halfway between two doubles goes to the one with an even significand. -/
def roundToDouble (n : Nat) : Nat :=
  let unit := 1 <<< (n.log2 + 1 - 53)
  let below := n / unit
  let rest := 2 * (n % unit)
  if unit < rest || (rest == unit && below % 2 == 1) then (below + 1) * unit else below * unit

/-- A number of at most 53 bits is a double. -/
theorem roundToDouble_of_lt {n : Nat} (h : n < 0x20000000000000) : roundToDouble n = n := by
  have bits : n.log2 + 1 - 53 = 0 := by
    rcases Nat.eq_zero_or_pos n with rfl | positive
    · decide
    · have : n.log2 < 53 := (Nat.log2_lt (Nat.ne_of_gt positive)).2 h
      omega
  simp [roundToDouble, bits, Nat.mod_one]

/-- Halfway between the largest double and the power of two above it.  From here on a number
has no finite double next to it. -/
def doubleLimit : Nat := (1 <<< 1024) - (1 <<< 970)

/-- The largest power of ten that a double can stand for. -/
def maxPower : Nat := 308

/-- Whether a decimal number is out of the range of doubles. -/
def Decimal.overflows (d : Decimal) : Bool :=
  match d.exponent with
  | .negSucc _ => false
  | .ofNat e =>
    d.significand != 0 &&
      (maxPower < e || doubleLimit ≤ roundToDouble d.significand * roundToDouble (Nat.pow 10 e))

end Json
end StreamConformance
