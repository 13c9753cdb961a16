import StreamConformance.Fault
import StreamConformance.Json.Reader
import StreamConformance.Signal
import StreamConformance.Text.Blank
import StreamConformance.Text.Delimiter

/-!
# Marble notation

A marble text writes down the signals of a stream, one character each: `|` completes, `#`
fails, `-` is a tick that only makes the text easier to read, as is white space, and any
other character is an item.  A value map may follow behind `&&`, a JSON object that gives
characters the payload they stand for; a character without one stands for itself.

The number and kinds of the signals are decided by the characters alone: the value map is
asked for the payloads of items and for nothing else.
-/

namespace StreamConformance
namespace Marble

/-- The payloads that single characters stand for: for each key, in the order of the text, the
pairs of its object, in the order of the text. -/
abbrev ValueMap := List (String × List (String × String))

/-- Separates the characters from their value map. -/
def valueMapDelimiter : Text.Delimiter := ⟨'&', ['&']⟩

/-- Read a value map: an object whose values are objects of strings. -/
def readValueMap (text : String) : Except Json.Fault ValueMap :=
  let s := text.toUTF8.toList
  let fuel := Json.fuelFor s
  let pairs (s : Json.Bytes) : Json.Read (List (String × String)) :=
    (Json.readExpectedObject
        (fun data pairs => .ok fun s =>
          (Json.readExpectedString s).map fun r => ((data, r.1) :: pairs, r.2))
        fuel [] s).map
      fun r => (r.1.reverse, r.2)
  Json.finish <|
    (Json.readExpectedObject
        (fun key entries => .ok fun s =>
          (pairs s).map fun r => ((key, r.1) :: entries, r.2))
        fuel [] s).map
      fun r => (r.1.reverse, r.2)

/-- The value of the last pair with a key. -/
def lastWith? {α : Type} (key : String) (pairs : List (String × α)) : Option α :=
  (pairs.reverse.find? (·.1 == key)).map Prod.snd

/-- The smallest key of some pairs. -/
def leastKey? {α : Type} : List (String × α) → Option String
  | [] => none
  | (key, _) :: pairs =>
    match leastKey? pairs with
    | none => some key
    | some least => some (if least < key then least else key)

/-- The payload of the pair with the smallest key; of several pairs with one key the last
counts. -/
def leastPair? (pairs : List (String × String)) : Option Payload :=
  match leastKey? pairs with
  | none => none
  | some data => (lastWith? data pairs).map fun metadata => ⟨data, metadata⟩

/-- The payload that a character stands for. -/
def payloadOf (values : ValueMap) (c : Char) : Payload :=
  let key := c.toString
  (((lastWith? key values).bind leastPair?).getD ⟨key, key⟩)

/-- The signal that a character stands for in the text `sequence`, if it is not a tick. -/
def signalOf? (values : ValueMap) (sequence : String) (c : Char) : Option (Signal Payload) :=
  if c == '-' then none
  else if c == '|' then some .complete
  else if c == '#' then some (.error s!"marble error in {sequence}")
  else if Text.isBlank c then none
  else some (.next (payloadOf values c))

/-- The signals of a marble text. -/
def parse (text : String) : Except Fault (List (Signal Payload)) :=
  match Text.cut? valueMapDelimiter text.toList with
  | none => .ok (text.toList.filterMap (signalOf? [] text))
  | some (sequence, map) =>
    let map := String.ofList map
    match readValueMap map with
    | .error cause => .error (.invalidValueMap map cause)
    | .ok values =>
      .ok (sequence.filterMap (signalOf? values (String.ofList sequence)))

end Marble
end StreamConformance
