import StreamConformance.Endpoint

/-!
# Command line

The arguments of the command are read one after another.  An option with a value takes it from
the same argument --- behind `=`, or behind the letter of a short option --- or else from the
next argument, which then must not look like an option itself.  Options may be given once,
except for the list of tests.  A request for help ends the reading; so does the first argument
that makes no sense.

The peer is given by a uri or by host and port, not by both.
-/

namespace StreamConformance
namespace CommandLine

/-- What was given on the command line. -/
structure Options where
  file : Option String := none
  host : Option String := none
  port : Option Nat := none
  uri : Option String := none
  tests : List String := []
  debug : Bool := false
  /-- Milliseconds that each connection may take. -/
  connectTimeout : Option Nat := none
  deriving DecidableEq

/-- The options that take a value. -/
inductive Valued where
  | file
  | host
  | port
  | uri
  | tests
  | connectTimeout
  deriving DecidableEq

/-- The option with a long name. -/
def Valued.ofName? (name : String) : Option Valued :=
  if name == "file" then some .file
  else if name == "host" then some .host
  else if name == "port" then some .port
  else if name == "uri" then some .uri
  else if name == "tests" then some .tests
  else if name == "connect-timeout-ms" then some .connectTimeout
  else none

/-- The value of a port.  It is a signed numeral, of which only zero may have a minus. -/
def port? (value : String) : Option Nat :=
  match value.toList with
  | '-' :: digits => if !digits.isEmpty && digits.all (· == '0') then some 0 else none
  | numeral => Text.numeralUpTo? Endpoint.maxPort numeral

/-- The largest number of milliseconds that a connection may be given. -/
def maxTimeout : Nat := 0xFFFFFFFFFFFFFFFF

/-- The names of a list of tests. -/
def names (value : String) : List String :=
  (value.toList.splitOn ',').map String.ofList

/-- Give an option a value; nothing is returned for a value that it cannot have, and for an
option that has one already. -/
def Options.set (o : Options) (option : Valued) (value : String) : Option Options :=
  match option with
  | .file => if o.file.isSome || value.isEmpty then none else some { o with file := some value }
  | .host => if o.host.isSome then none else some { o with host := some value }
  | .port =>
    if o.port.isSome then none else (port? value).map fun n => { o with port := some n }
  | .uri => if o.uri.isSome then none else some { o with uri := some value }
  | .tests => some { o with tests := o.tests ++ names value }
  | .connectTimeout =>
    if o.connectTimeout.isSome then none
    else
      (Text.numeralUpTo? maxTimeout value.toList).map fun n =>
        { o with connectTimeout := some n }

/-- What an argument is by itself. -/
inductive Argument where
  | help
  | debug
  /-- An option that takes a value, and the value, if it is in the same argument. -/
  | valued (option : Valued) (value : Option String)
  /-- Nothing but values that belong to no option may follow. -/
  | escape
  | unknown
  deriving DecidableEq

/-- An argument with a long name, without its dashes. -/
def Argument.ofLong (s : List Char) : Argument :=
  let name := String.ofList (s.takeWhile (· != '='))
  let value :=
    match s.dropWhile (· != '=') with
    | _ :: value => some (String.ofList value)
    | [] => none
  match Valued.ofName? name, value with
  | some option, value => .valued option value
  | none, some _ => .unknown
  | none, none => if name == "debug" then .debug else if name == "help" then .help else .unknown

/-- What the text of an argument says. -/
def Argument.ofText (text : String) : Argument :=
  match text.toList with
  | ['-', '-'] => .escape
  | '-' :: '-' :: s => .ofLong s
  | '-' :: 'h' :: _ => .help
  | ['-', 'f'] => .valued .file none
  | '-' :: 'f' :: '=' :: value => .valued .file (some (String.ofList value))
  | '-' :: 'f' :: value => .valued .file (some (String.ofList value))
  | _ => .unknown

/-- Whether an argument may be the value of the option before it. -/
def isValue (text : String) : Bool :=
  match text.toList with
  | ['-'] => true
  | '-' :: _ => false
  | _ => true

/-- What the command is asked to do. -/
inductive Invocation where
  | run (o : Options)
  | help
  | misuse
  deriving DecidableEq

/-- The options are complete: the script is given, and the peer at most once. -/
def Options.finish (o : Options) : Invocation :=
  if o.file.isNone || (o.uri.isSome && (o.host.isSome || o.port.isSome)) then .misuse else .run o

/-- Read arguments, after some options. -/
def readFrom (o : Options) : List String → Invocation
  | [] => o.finish
  | text :: rest =>
    match Argument.ofText text with
    | .help => .help
    | .debug => if o.debug then .misuse else readFrom { o with debug := true } rest
    | .escape => if rest.isEmpty then o.finish else .misuse
    | .unknown => .misuse
    | .valued option (some value) =>
      match o.set option value with
      | some o => readFrom o rest
      | none => .misuse
    | .valued option none =>
      match rest with
      | [] => .misuse
      | value :: rest =>
        if isValue value then
          match o.set option value with
          | some o => readFrom o rest
          | none => .misuse
        else .misuse

/-- Read the arguments of the command. -/
def read (arguments : List String) : Invocation :=
  readFrom {} arguments

/-- The host to connect to, unless another is given. -/
def defaultHost : String := "localhost"

/-- The port to connect to, unless another is given. -/
def defaultPort : Nat := 4567

/-- The settings that options stand for. -/
def Options.settings (o : Options) : Except Fault Settings :=
  let endpoint :=
    match o.uri with
    | some uri => Endpoint.parse uri
    | none => .ok ⟨o.host.getD defaultHost, o.port.getD defaultPort⟩
  endpoint.map fun endpoint =>
    let s : Settings := { script := o.file.getD "", endpoint := endpoint }
    let s := (s.withTests o.tests).withDebug o.debug
    match o.connectTimeout with
    | some n => s.withConnectTimeout n
    | none => s

/-- The exit status of the command. -/
inductive ExitStatus where
  /-- All selected tests were run, whatever became of them. -/
  | success
  /-- The script was not run. -/
  | failure
  | misuse
  | panicked
  deriving DecidableEq

/-- The number of an exit status. -/
def ExitStatus.code : ExitStatus → Nat
  | .success => 0
  | .failure => 1
  | .misuse => 2
  | .panicked => 101

/-- How a fault is told. -/
def faultLine (f : Fault) : String :=
  "error: " ++ f.message

/-- The line that tells how long a test took: milliseconds, rounded to three places. -/
def timeLine (nanoseconds : Nat) : String :=
  let micros := (nanoseconds + 500) / 1000
  let places := String.ofList (Text.digits (micros % 1000))
  let zeros := "".pushn '0' (3 - places.length)
  s!"TIME: {micros / 1000}." ++ zeros ++ places ++ " MILLISECONDS"

/-- What help there is. -/
def usage : List String :=
  ["Runs scripted reactive protocol interactions against a server",
    "",
    "Usage: tck-driver [OPTIONS] --file <FILE>",
    "",
    "Options:",
    "  -f, --file <FILE>              Script of tests to run",
    "      --host <HOST>              [default: localhost]",
    "      --port <PORT>              [default: 4567]",
    "      --uri <URI>                Peer address as `tcp://host:port`",
    "      --tests <TESTS>            Only run the named tests (comma separated, repeatable)",
    "      --debug                    Debug logging including every frame on the wire",
    "      --connect-timeout-ms <MS>  [default: 5000]",
    "  -h, --help                     Print help"]

end CommandLine
end StreamConformance
