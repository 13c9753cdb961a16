/-!
# JSON values

A value as a reader sees it.  Of a number only what the formats built on top of it ask for is
kept: whether it is an integer that fits into 64 bits, and which; every other number is a
`float`, which is never an identifier and never a count.

A reading fails for one of three reasons, and reading goes from left to right, so the reason
is that of the first problem met.
-/

namespace StreamConformance
namespace Json

/-- Why a text is not the JSON that was asked for. -/
inductive Fault where
  /-- The text ends inside a value. -/
  | truncated
  /-- The text is not JSON. -/
  | malformed
  /-- The text is JSON of the wrong shape. -/
  | mismatched
  deriving DecidableEq

/-- The wording of a fault. -/
def Fault.message : Fault → String
  | .truncated => "unexpected end of JSON input"
  | .malformed => "invalid JSON"
  | .mismatched => "JSON of an unexpected shape"

/-- A number, as far as its readers tell numbers apart. -/
inductive Number where
  /-- An integer of at most 64 bits, written without fraction and exponent. -/
  | integer (value : Int)
  /-- Any other number. -/
  | float
  deriving DecidableEq

/-- A value of the format. -/
inductive Value where
  | null
  | bool (value : Bool)
  | number (value : Number)
  | string (value : String)
  | array (elements : List Value)
  | object (members : List (String × Value))

/-- A value that is an integer between zero and `limit`. -/
def Value.natUpTo? (limit : Nat) : Value → Option Nat
  | .number (.integer (.ofNat n)) => if n ≤ limit then some n else none
  | _ => none

/-- The text of a string value. -/
def Value.string? : Value → Option String
  | .string s => some s
  | _ => none

end Json
end StreamConformance
