import StreamConformance.Json.Basic
import StreamConformance.Text.Quoted

/-!
# Faults

What can go wrong while a script is loaded or run, one constructor per cause, and the wording
of each in `Fault.message`.  A fault ends the test in which it arises and no other.
-/

namespace StreamConformance

/-- A cause for which a script or a test cannot go on. -/
inductive Fault where
  /-- The script cannot be read. -/
  | scriptUnreadable (path cause : String)
  /-- No connection to the peer can be made. -/
  | unreachable (endpoint cause : String)
  | unsupportedUri (uri : String)
  | malformedCommand (line reason : String)
  | invalidValueMap (map : String) (cause : Json.Fault)
  /-- A test without subscriber and without channel has no verdict. -/
  | noInteraction (test : String)
  /-- The commands of a channel block ended in a panic. -/
  | channelAborted (test : String)
  /-- Reading from or writing to a connection failed. -/
  | broken (cause : String)
  /-- The body of a frame is not a frame. -/
  | codec (cause : Json.Fault)
  | frameTooLarge (size : Nat)
  | connectionClosed
  deriving DecidableEq

/-- The wording of a fault. -/
def Fault.message : Fault → String
  | .scriptUnreadable path cause => s!"failed to read script {path}: {cause}"
  | .unreachable endpoint cause => s!"failed to connect to {endpoint}: {cause}"
  | .unsupportedUri uri => s!"unsupported uri: {uri}"
  | .malformedCommand line reason => s!"malformed command {Text.quote line}: {reason}"
  | .invalidValueMap map cause => s!"invalid marble value map {Text.quote map}: {cause.message}"
  | .noInteraction test => s!"test {test} has no subscriber and no channel"
  | .channelAborted test => s!"channel script for {test} terminated abnormally"
  | .broken cause => s!"io error: {cause}"
  | .codec cause => s!"frame codec error: {cause.message}"
  | .frameTooLarge size => s!"frame of {size} bytes exceeds the frame size limit"
  | .connectionClosed => "connection closed"

/-- How a thread of execution ends that does not return: with a text, or with a value that is
no text. -/
inductive Panic where
  | text (message : String)
  | wordless
  deriving DecidableEq

/-- The wording of a panic inside a test. -/
def Panic.message : Panic → String
  | .text message => message
  | .wordless => "test thread panicked"

end StreamConformance
