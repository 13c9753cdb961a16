import StreamConformance.FileTree
import StreamConformance.Script.Parser

/-!
# Tests of a script

A script is a text.  Lines that say `!`, white space aside, separate its tests; what stands
before the first separator belongs to no test, and neither does a segment of blank lines.
The first line of a test that is not blank carries its name as second token, and the lines
behind it are its commands.
-/

namespace StreamConformance
namespace Script

/-- The line between two tests. -/
def separator : Line := ['!']

/-- A test: its name and its lines, the name line first. -/
structure Test where
  name : String
  lines : List Line

/-- The test of a segment of lines.  Blank lines at its beginning do not count. -/
def Test.ofLines (segment : List Line) : Test :=
  let lines := segment.dropWhile Text.isBlankText
  { name := ((lines.head?.bind fun line => (tokens (Text.trim line))[1]?)).getD ""
    lines := lines }

/-- The commands of a test. -/
def Test.commands (t : Test) : List Command :=
  parseLines (t.lines.tail.map Text.trim)

/-- A line that separates tests. -/
def isSeparator (line : Line) : Bool :=
  Text.trim line == separator

/-- The lines before the first separator, and the segments behind each separator up to the
next one. -/
def segments : List Line → List Line × List (List Line)
  | [] => ([], [])
  | line :: lines =>
    match segments lines with
    | (segment, later) =>
      if isSeparator line then ([], segment :: later) else (line :: segment, later)

/-- The lines of a script, without the carriage returns at their ends. -/
def linesOf (text : String) : List Line :=
  (Text.lines text.toList).map (Text.dropEndWhile (· == '\r'))

/-- The tests of a script, in order. -/
def parse (text : String) : List Test :=
  ((segments (linesOf text)).2.filter
      fun segment => segment.any fun line => !Text.isBlankText line).map Test.ofLines

/-- The cause for which bytes that are no text cannot be read. -/
def notText : String := "stream did not contain valid UTF-8"

/-- The tests of the script that was read from a path. -/
def load (path : String) (bytes : ByteArray) : Except Fault (List Test) :=
  match String.fromUTF8? bytes with
  | some text => .ok (parse text)
  | none => .error (.scriptUnreadable path notText)

/-- The tests of the script at a path. -/
def loadFrom (files : FileTree) (path : String) : Except Fault (List Test) :=
  match files.read path with
  | .ok bytes => load path bytes
  | .error e => .error (.scriptUnreadable path e.text)

end Script
end StreamConformance
