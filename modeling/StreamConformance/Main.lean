import StreamConformance.Client.Network
import StreamConformance.CommandLine
import StreamConformance.Suite
import StreamConformance.Wire.Reader
import Std.Async.DNS
import Std.Async.TCP

/-!
# The command

The command runs a script against a peer over the network.  What the tests of the script do is
said by `Trial.turn` and the reactions of `Network`; this module connects them to sockets.  It
carries what was written on a connection to its socket, tells the network what has arrived and
what became of an attempt to connect, and measures time.
-/

namespace StreamConformance
namespace Console

open Client (Network NetworkStep Arrival)
open Std.Net (IPAddr SocketAddress)

/-- A socket that is connected to the peer. -/
abbrev Socket := Std.Async.TCP.Socket.Client

/-- A socket and what has been read from it. -/
structure Line where
  socket : Socket
  /-- The read that goes on. -/
  reading : Std.Async.AsyncTask (Option ByteArray)
  /-- Bytes that are not yet a frame. -/
  bytes : List UInt8 := []
  ended : Bool := false

/-- The sockets of a run, by the numbers of their connections. -/
structure Lines where
  settings : Settings
  all : Array Line := #[]

/-- The state of a test that is run over the network. -/
abbrev NetworkTrial := Trial Network NetworkStep

/-- The number of an error, which some sources give as a negative number. -/
def errorCode (code : UInt32) : Nat :=
  if code.toNat < 0x80000000 then code.toNat else 0x100000000 - code.toNat

/-- The operating system's part of an error. -/
def systemError (e : IO.Error) : SystemError :=
  match e with
  | .alreadyExists _ code details => .ofCode (errorCode code) details
  | .otherError code details => .ofCode (errorCode code) details
  | .resourceBusy code details => .ofCode (errorCode code) details
  | .resourceVanished code details => .ofCode (errorCode code) details
  | .unsupportedOperation code details => .ofCode (errorCode code) details
  | .hardwareFault code details => .ofCode (errorCode code) details
  | .unsatisfiedConstraints code details => .ofCode (errorCode code) details
  | .illegalOperation code details => .ofCode (errorCode code) details
  | .protocolError code details => .ofCode (errorCode code) details
  | .timeExpired code details => .ofCode (errorCode code) details
  | .interrupted _ code details => .ofCode (errorCode code) details
  | .noFileOrDirectory _ code details => .ofCode (errorCode code) details
  | .invalidArgument _ code details => .ofCode (errorCode code) details
  | .permissionDenied _ code details => .ofCode (errorCode code) details
  | .resourceExhausted _ code details => .ofCode (errorCode code) details
  | .inappropriateType _ code details => .ofCode (errorCode code) details
  | .noSuchThing _ code details => .ofCode (errorCode code) details
  | .unexpectedEof => ⟨0, Wire.shortRead⟩
  | .userError message => ⟨0, message⟩

/-- Wait until an operation on a socket has ended. -/
def await {α : Type} (operation : Std.Async.Async α) : IO (Except SystemError α) := do
  match ← IO.wait (← operation.toIO) with
  | .ok a => pure (.ok a)
  | .error e => pure (.error (systemError e))

/-! ### Reading -/

/-- Bytes that a read may return at once. -/
def chunk : UInt64 := 65536

/-- See what has arrived from a socket. -/
def Line.poll (l : Line) : IO (Line × List Arrival) := do
  if l.ended then return (l, [])
  match ← l.reading.getState with
  | .finished =>
    match ← await (.ofAsyncTask l.reading) with
    | .ok (some more) =>
      match Wire.readComplete (l.bytes ++ more.toList) with
      | (frames, .ok bytes) =>
        let reading ← (l.socket.recv? chunk).toIO
        return ({ l with reading := reading, bytes := bytes }, frames.map .frame)
      | (frames, .error fault) =>
        return ({ l with ended := true }, frames.map .frame ++ [.ended (some fault)])
    | .ok none =>
      let fault :=
        match Wire.readFrame l.bytes with
        | .failed fault => some fault
        | _ => none
      return ({ l with ended := true }, [.ended fault])
    | .error e => return ({ l with ended := true }, [.ended (some (.broken e.text))])
  | _ => return (l, [])

/-- See what has arrived on the connections of a run, and put it in transit. -/
def Lines.poll (s : Lines) (n : Network) : IO (Lines × Network) := do
  let mut s := s
  let mut n := n
  for k in [0:s.all.size] do
    if let some l := s.all[k]? then
      let (l, arrived) ← l.poll
      s := { s with all := s.all.setIfInBounds k l }
      for a in arrived do
        if s.settings.debug then
          if let .frame f := a then IO.eprintln s!"recv {f.body}"
        n := n.arrive k a
  return (s, n)

/-! ### Connecting -/

/-- An address with a port. -/
def withPort (port : UInt16) : IPAddr → SocketAddress
  | .v4 addr => .v4 { addr := addr, port := port }
  | .v6 addr => .v6 { addr := addr, port := port }

/-- Wait for a task for some milliseconds. -/
partial def waitFor {α : Type} (t : Std.Async.AsyncTask α) (deadline : Nat) :
    IO (Except SystemError α) := do
  match ← t.getState with
  | .finished => await (.ofAsyncTask t)
  | _ =>
    if (← IO.monoMsNow) < deadline then
      IO.sleep 1
      waitFor t deadline
    else pure (.error ⟨0, "connection timed out"⟩)

/-- Connect to the first address that can be reached. -/
def connectTo (timeout : Nat) : List SocketAddress → SystemError →
    IO (Except SystemError Socket)
  | [], latest => pure (.error latest)
  | addr :: rest, _ => do
    let attempt ← try
        let socket ← Std.Async.TCP.Socket.Client.mk
        let t ← (socket.connect addr).toIO
        match ← waitFor t ((← IO.monoMsNow) + timeout) with
        | .ok () => pure (Except.ok socket)
        | .error e => pure (.error e)
      catch e => pure (.error (systemError e))
    match attempt with
    | .ok socket => pure (.ok socket)
    | .error e => connectTo timeout rest e

/-- Make a connection of a run. -/
def Lines.dial (s : Lines) : IO (Lines × Except Fault Unit) := do
  let endpoint := s.settings.endpoint
  let refused (cause : String) : Except Fault Unit := .error (.unreachable endpoint.text cause)
  match ← await (Std.Async.DNS.getAddrInfo endpoint.host "") with
  | .error e => pure (s, refused ("failed to lookup address information: " ++ e.description))
  | .ok addrs =>
    let addrs := addrs.toList.map (withPort (UInt16.ofNat endpoint.port))
    let attempt :=
      if s.settings.connectTimeout == 0 && !addrs.isEmpty then
        pure (.error ⟨0, "cannot set a 0 duration timeout"⟩)
      else connectTo s.settings.connectTimeout addrs ⟨0, "no addresses resolved"⟩
    match ← attempt with
    | .error e => pure (s, refused (if e.code == 0 then e.description else e.text))
    | .ok socket =>
      try socket.noDelay catch _ => pure ()
      let reading ← (socket.recv? chunk).toIO
      pure ({ s with all := s.all.push { socket := socket, reading := reading } }, .ok ())

/-! ### Running -/

/-- Carry what was written to the sockets. -/
def Lines.flush (s : Lines) (n : Network) : IO Network := do
  let mut n := n
  for k in [0:s.all.size] do
    let (next, frames) := n.carry k
    n := next
    if s.settings.debug then
      for f in frames do
        IO.eprintln s!"send {f.body}"
    if let some l := s.all[k]? then
      unless frames.isEmpty do
        discard <| await (l.socket.sendAll (frames.filterMap fun f => f.encode.toOption).toArray)
  return n

/-- Give a trial another far side. -/
def withFar (t : NetworkTrial) (n : Network) : NetworkTrial :=
  { t with exchange := { t.exchange with far := n } }

/-- Do the jobs of a trial until none is left.  The deadline is the end of the window that the
trial waits for. -/
partial def drive (s : Lines) (deadline : Option Nat) (t : NetworkTrial) :
    IO (Lines × NetworkTrial × Trial.Ending) := do
  match t.turn Network.environment with
  | .finished => return (s, t, .done)
  | .next t => drive s deadline t
  | .faulted f t => return (s, t, .faulted f)
  | .panicked p t => return (s, t, .panicked p)
  | .blocked .dialing =>
    let (s, dialed) ← s.dial
    drive s deadline (withFar t { t.exchange.far with dialed := some dialed })
  | .blocked b =>
    let t := withFar t (← s.flush t.exchange.far)
    let (s, n) ← s.poll t.exchange.far
    let t := withFar t n
    match n.deliver, b, deadline with
    | some (far, calls), _, _ => drive s deadline (t.interrupt far calls)
    | none, .window _ _ milliseconds, none =>
      drive s (some ((← IO.monoMsNow) + milliseconds)) t
    | none, .window .., some due =>
      if due ≤ (← IO.monoMsNow) then drive s none t.closeWindow
      else
        IO.sleep 1
        drive s deadline t
    | none, _, _ =>
      IO.sleep 1
      drive s deadline t

/-- Carry out commands in order, up to the first that does not end well. -/
def driveAll (s : Lines) : List Script.Command → NetworkTrial →
    IO (Lines × NetworkTrial × Trial.Ending)
  | [], t => pure (s, t, .done)
  | c :: commands, t => do
    match ← drive s none { t with jobs := [.command c] } with
    | (s, t, .done) => driveAll s commands t
    | (s, t, ending) => pure (s, t, ending)

/-- More tasks than the release of connections can lead to. -/
def releaseFuel : Nat := 1000000000

/-- Run a test, and give up its connections. -/
def runTest (s : Lines) (test : Script.Test) : IO Outcome := do
  let (s, t, ending) ← driveAll s test.commands { name := test.name, exchange := { far := {} } }
  let t := withFar t (← s.flush t.exchange.far)
  discard <| s.flush (t.release Network.environment releaseFuel).far
  for l in s.all do
    discard <| await l.socket.shutdown
  return (Suite.outcome? t ending).getD (.errored Panic.wordless.message)

/-- Run the selected tests of a script.  A test that cannot be started ends the run. -/
def runAll (settings : Settings) : List Script.Test → Summary → IO (Except Panic Summary)
  | [], summary => pure (.ok summary)
  | test :: tests, summary => do
    if !Suite.selects settings.tests test.name then runAll settings tests summary
    else
      IO.println (Progress.line (.started test.name))
      match Suite.startPanic? test with
      | some p => pure (.error p)
      | none =>
        let began ← IO.monoNanosNow
        let outcome ← runTest { settings := settings } test
        let report : Report := { name := test.name, outcome := outcome }
        IO.println (Progress.line (.finished report))
        IO.println (CommandLine.timeLine ((← IO.monoNanosNow) - began))
        runAll settings tests { reports := summary.reports ++ [report] }

/-- Read the script of some settings. -/
def loadScript (settings : Settings) : IO (Except Fault (List Script.Test)) := do
  try
    return Script.load settings.script (← IO.FS.readBinFile settings.script)
  catch e =>
    return .error (.scriptUnreadable settings.script (systemError e).text)

/-- Run the script of some options. -/
def runScript (o : CommandLine.Options) : IO CommandLine.ExitStatus := do
  let fail (f : Fault) : IO CommandLine.ExitStatus := do
    IO.eprintln (CommandLine.faultLine f)
    return .failure
  match o.settings with
  | .error f => fail f
  | .ok settings =>
    match ← loadScript settings with
    | .error f => fail f
    | .ok tests =>
      match ← runAll settings tests {} with
      | .ok summary =>
        IO.println summary.line
        return .success
      | .error p =>
        IO.eprintln p.message
        return .panicked

/-- Run the command with some arguments, and return its exit status. -/
def run (arguments : List String) : IO UInt32 := do
  let status ←
    match CommandLine.read arguments with
    | .run o => runScript o
    | .help =>
      CommandLine.usage.forM IO.println
      pure .success
    | .misuse =>
      CommandLine.usage.forM IO.eprintln
      pure .misuse
  return UInt32.ofNat status.code

end Console
end StreamConformance

/-- The command. -/
def main (arguments : List String) : IO UInt32 :=
  StreamConformance.Console.run arguments
