/-!
# Writing JSON text

Strings are written with the short escapes where there is one, other control characters as
`\u00xx` with lower-case digits, and everything else as it is.  Members follow each other
without blanks, in the order given.
-/

namespace StreamConformance
namespace Json

/-- A lower-case hexadecimal digit. -/
def hexDigit (n : Nat) : Char :=
  if n < 10 then Char.ofNat ('0'.toNat + n) else Char.ofNat ('a'.toNat + (n - 10))

/-- How one character is written inside a string. -/
def escapeChar (c : Char) : List Char :=
  match c with
  | '"' => ['\\', '"']
  | '\\' => ['\\', '\\']
  | '\x08' => ['\\', 'b']
  | '\t' => ['\\', 't']
  | '\n' => ['\\', 'n']
  | '\x0c' => ['\\', 'f']
  | '\r' => ['\\', 'r']
  | c =>
    if c.toNat < 0x20 then ['\\', 'u', '0', '0', hexDigit (c.toNat / 16), hexDigit (c.toNat % 16)]
    else [c]

/-- The characters between the quotes of a written string.  All that is known of them is
`toList_escape`, so that long texts are not written out where a proof compares them. -/
@[irreducible] def escape (s : String) : String :=
  String.ofList (s.toList.flatMap escapeChar)

/-- Character by character, in order. -/
theorem toList_escape (s : String) : (escape s).toList = s.toList.flatMap escapeChar := by
  rw [escape, String.toList_ofList]

/-- A written string. -/
def writeString (s : String) : String :=
  "\"" ++ escape s ++ "\""

/-- A written number. -/
def writeNat (n : Nat) : String :=
  String.ofList (Nat.toDigits 10 n)

/-- A written object whose values are written already. -/
def writeObject (members : List (String × String)) : String :=
  "\x7b" ++ ",".intercalate (members.map fun m => writeString m.1 ++ ":" ++ m.2) ++ "\x7d"

end Json
end StreamConformance
