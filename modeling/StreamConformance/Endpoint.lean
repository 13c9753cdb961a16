import StreamConformance.Fault
import StreamConformance.Text.Blank
import StreamConformance.Text.Delimiter
import StreamConformance.Text.Numeral

/-!
# Endpoints and settings

An endpoint is a host and a port; its text is a uri, and `Endpoint.parse` reads uris of that
form back.  Brackets around the host, as in an address with colons, are taken off, and a path
behind the authority is ignored.
-/

namespace StreamConformance

/-- Where a peer listens. -/
structure Endpoint where
  host : String
  port : Nat
  deriving DecidableEq

/-- The largest port. -/
def Endpoint.maxPort : Nat := 0xFFFF

/-- The uri of an endpoint. -/
def Endpoint.text (e : Endpoint) : String :=
  "tcp://" ++ e.host ++ ":" ++ String.ofList (Text.digits e.port)

/-- What an authority may be: a host, a colon, and a port. -/
def Endpoint.ofAuthority? (authority : List Char) : Option Endpoint :=
  match Text.cutLast? ':' authority with
  | none => none
  | some (host, port) =>
    let host := Text.dropEndWhile (· == ']') (host.dropWhile (· == '['))
    if host.isEmpty then none
    else (Text.numeralUpTo? maxPort port).map fun n => ⟨String.ofList host, n⟩

/-- The endpoint that a uri names. -/
def Endpoint.parse (uri : String) : Except Fault Endpoint :=
  let endpoint :=
    (Text.stripStart? "tcp://".toList uri.toList).bind fun rest =>
      Endpoint.ofAuthority? (rest.takeWhile (· != '/'))
  match endpoint with
  | some e => .ok e
  | none => .error (.unsupportedUri uri)

/-- Everything that is needed to run a script against a peer. -/
structure Settings where
  script : String
  endpoint : Endpoint
  /-- The tests to run; all of them if there is none. -/
  tests : List String := []
  debug : Bool := false
  /-- Milliseconds that each connection may take. -/
  connectTimeout : Nat := 5000

/-- Restrict the run to a test, beside those selected before. -/
def Settings.withTest (s : Settings) (name : String) : Settings :=
  { s with tests := s.tests ++ [name] }

/-- Restrict the run to some tests, beside those selected before. -/
def Settings.withTests (s : Settings) (names : List String) : Settings :=
  { s with tests := s.tests ++ names }

def Settings.withDebug (s : Settings) (debug : Bool) : Settings :=
  { s with debug := debug }

def Settings.withConnectTimeout (s : Settings) (milliseconds : Nat) : Settings :=
  { s with connectTimeout := milliseconds }

end StreamConformance
