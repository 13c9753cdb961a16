import StreamConformance.Text.Unprintable

/-!
# Quoted text

Messages quote the text they speak about: in double quotes, with a backslash before quotes
and backslashes, short escapes for tab, carriage return, line feed and NUL, and every
character without a glyph of its own as its code point in braces.  An apostrophe is shown as
it is.
-/

namespace StreamConformance
namespace Text

/-- The hexadecimal digits of a number, lower case, without padding. -/
def hexDigits (n : Nat) : List Char :=
  Nat.toDigits 16 n

/-- How one character is shown between quotes. -/
def quoteChar (c : Char) : List Char :=
  match c with
  | '"' => ['\\', '"']
  | '\\' => ['\\', '\\']
  | '\t' => ['\\', 't']
  | '\r' => ['\\', 'r']
  | '\n' => ['\\', 'n']
  | '\x00' => ['\\', '0']
  | c =>
    if isUnprintable c then ['\\', 'u', '{'] ++ hexDigits c.toNat ++ ['}'] else [c]

/-- A text in double quotes, with everything escaped that could not be read back. -/
def quote (s : String) : String :=
  String.ofList ('"' :: (s.toList.flatMap quoteChar ++ ['"']))

end Text
end StreamConformance
