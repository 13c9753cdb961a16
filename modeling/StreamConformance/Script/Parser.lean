import StreamConformance.Marble
import StreamConformance.Script.Command
import StreamConformance.Text.Numeral

/-!
# Reading the lines of a test

A line is a keyword and its arguments, separated by `%%`, with white space around it.
`parseLine` reads one line on its own.  `parseLines` reads the lines of a test: a channel
line takes the lines behind it up to the first closing marker as its block, whatever stands
between, and every other line stands for itself.

Arguments are read from left to right as the keyword needs them, and the first one that is
missing or unreadable is the one that the reason names.
-/

namespace StreamConformance
namespace Script

/-- A line as its characters. -/
abbrev Line := List Char

/-- Separates the tokens of a line. -/
def tokenDelimiter : Text.Delimiter := ⟨'%', ['%']⟩

/-- Separates the expected payloads of `assert received`. -/
def valueDelimiter : Text.Delimiter := ⟨'&', ['&']⟩

/-- Separates the data of an expected payload from its metadata. -/
def pairDelimiter : Text.Delimiter := ⟨',', []⟩

/-- Opens the block of a channel. -/
def blockOpen : Line := ['{']

/-- Closes the block of a channel. -/
def blockClose : Line := ['}']

/-- The tokens of a line; there is at least one. -/
def tokens (line : Line) : List String :=
  (Text.split tokenDelimiter line).map String.ofList

/-- The first token of a line. -/
def keyword (line : Line) : String :=
  (tokens line).headD ""

/-- The token at `index`; `what` says what it would have been. -/
def argument (ts : List String) (index : Nat) (what : String) : Except String String :=
  match ts[index]? with
  | some t => .ok t
  | none => .error s!"missing {what} (argument {index})"

/-- The count at `index`. -/
def count (ts : List String) (index : Nat) : Except String Nat :=
  match argument ts index "count" with
  | .error reason => .error reason
  | .ok t =>
    match Text.numeralUpTo? Demand.limit t.toList with
    | some n => .ok n
    | none => .error s!"count {Text.quote t} is not a non-negative integer"

/-- The data at `index` and the metadata behind it. -/
def payloadAt (ts : List String) (index : Nat) : Except String Payload := do
  let data ← argument ts index "data"
  let metadata ← argument ts (index + 1) "metadata"
  pure ⟨data, metadata⟩

/-- An expected payload: data and metadata with a comma between them. -/
def expectedPayload (text : List Char) : Except String Payload :=
  match Text.cut? pairDelimiter text with
  | some (data, metadata) => .ok ⟨String.ofList data, String.ofList metadata⟩
  | none => .error s!"value {Text.quote (String.ofList text)} is not a data,metadata pair"

/-- The expected payloads of `assert received`. -/
def expectedPayloads (text : String) : Except String (List Payload) :=
  (Text.split valueDelimiter text.toList).mapM expectedPayload

/-- The instruction of a `subscribe` line. -/
def parseSubscribe (ts : List String) : Except String Instruction := do
  let token ← argument ts 1 "interaction kind"
  match InteractionKind.ofToken? token with
  | none => .error s!"unknown interaction kind {Text.quote token}"
  | some kind =>
    let id ← argument ts 2 "id"
    let payload ← payloadAt ts 3
    pure (.subscribe kind id payload)

/-- The instruction of an `await` line; `none` for an unknown condition. -/
def parseAwait (ts : List String) : Except String (Option Instruction) := do
  match ts[1]? with
  | some "terminal" =>
    let id ← argument ts 2 "id"
    pure (some (.await id .terminal))
  | some "atLeast" =>
    let id ← argument ts 2 "id"
    let n ← count ts 3
    pure (some (.await id (.atLeast n)))
  | some "no_events" =>
    let id ← argument ts 2 "id"
    let window ← count ts 3
    pure (some (.await id (.noEvents window)))
  | _ => pure none

/-- The check that an `assert` line names; `none` for an unknown one. -/
def parseCheck (ts : List String) : Except String (Option Check) := do
  match ts[1]? with
  | some "no_error" => pure (some .noError)
  | some "error" => pure (some .error)
  | some "completed" => pure (some .completed)
  | some "no_completed" => pure (some .notCompleted)
  | some "canceled" => pure (some .canceled)
  | some "received" =>
    let text ← argument ts 3 "values"
    let payloads ← expectedPayloads text
    pure (some (.received payloads))
  | some "received_n" =>
    let n ← count ts 3
    pure (some (.receivedCount n))
  | some "received_at_least" =>
    let n ← count ts 3
    pure (some (.receivedAtLeast n))
  | _ => pure none

/-- The instruction of an `assert` line; `none` for an unknown check. -/
def parseAssert (ts : List String) : Except String (Option Instruction) := do
  match ← parseCheck ts with
  | none => pure none
  | some check =>
    let id ← argument ts 2 "id"
    pure (some (.assert id check))

/-- The instruction of a line with a count and an id. -/
def parseCounted (make : Nat → String → Instruction) (ts : List String) :
    Except String Instruction := do
  let n ← count ts 1
  let id ← argument ts 2 "id"
  pure (make n id)

/-- The instruction of a `respond` line. -/
def parseRespond (ts : List String) : Except String Instruction := do
  let text ← argument ts 1 "marble"
  match Marble.parse text with
  | .ok signals => pure (.respond signals)
  | .error fault => .error fault.message

/-- The instruction that tokens ask for; `none` for an unknown keyword, condition or check. -/
def parseTokens (ts : List String) : Except String (Option Instruction) :=
  match ts.headD "" with
  | "subscribe" => (parseSubscribe ts).map some
  | "echochannel" => (payloadAt ts 1).map fun initial => some (.echoChannel initial)
  | "await" => parseAwait ts
  | "assert" => parseAssert ts
  | "take" => (parseCounted .take ts).map some
  | "request" => (parseCounted .request ts).map some
  | "cancel" => (argument ts 1 "id").map fun id => some (.cancel id)
  | "respond" => (parseRespond ts).map some
  | "EOF" => .ok (some .eof)
  | "pass" => .ok (some .pass)
  | "fail" => .ok (some .fail)
  | _ => .ok none

/-- The instruction of a trimmed line. -/
def parseLine (line : Line) : Instruction :=
  match parseTokens (tokens line) with
  | .ok (some instruction) => instruction
  | .ok none => .unknown (String.ofList line)
  | .error reason => .malformed (String.ofList line) reason

/-- The instruction of a trimmed line inside a block, where blank lines and opening markers
ask for nothing and a channel has no place. -/
def parseBlockLine (line : Line) : Option Instruction :=
  if line.isEmpty || line == blockOpen then none
  else if keyword line == "channel" then
    some (.malformed (String.ofList line) "channel blocks cannot be nested")
  else some (parseLine line)

/-- The command of a channel line with the lines of its block. -/
def parseChannel (line : Line) (block : List Line) : Command :=
  match payloadAt (tokens line) 1 with
  | .ok initial => .channel initial (block.filterMap parseBlockLine)
  | .error reason => .single (.malformed (String.ofList line) reason)

/-- The commands of the trimmed lines of a test. -/
def parseLines : List Line → List Command
  | [] => []
  | line :: lines =>
    if line.isEmpty then parseLines lines
    else if line == blockClose then
      .single (.malformed (String.ofList line) "closing marker outside a channel block") ::
        parseLines lines
    else if keyword line == "channel" then
      match _h : lines.dropWhile (· != blockClose) with
      | [] =>
        [.single
          (.malformed (String.ofList line) "channel block is missing its closing marker")]
      | _ :: behind =>
        parseChannel line (lines.takeWhile (· != blockClose)) :: parseLines behind
    else .single (parseLine line) :: parseLines lines
termination_by lines => lines.length
decreasing_by
  all_goals simp_wf
  have hs : (lines.dropWhile (· != blockClose)).length ≤ lines.length :=
    (List.dropWhile_suffix _).length_le
  rw [_h, List.length_cons] at hs
  omega

end Script
end StreamConformance
