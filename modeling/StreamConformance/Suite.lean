import StreamConformance.Script.Test
import StreamConformance.Trial

/-!
# Suites

A suite runs the tests of a script one after another and reports on each.  A list of names
selects the tests to run; an empty list selects all of them.  A fault or a panic inside a test
is the outcome of that test and of no other.

The name of a test becomes the name of its thread, so a test whose name contains NUL ends the
suite in a panic before the test begins.
-/

namespace StreamConformance

/-- What is reported of a test. -/
inductive Outcome where
  | passed
  | failed
  | channel (met : Bool)
  /-- The test ended in a fault or a panic. -/
  | errored (message : String)
  deriving DecidableEq

/-- Passed tests, and channels that met their expectations. -/
def Outcome.isSuccess : Outcome → Bool
  | .passed => true
  | .channel met => met
  | .failed => false
  | .errored _ => false

/-- A verdict as an outcome. -/
def Outcome.ofVerdict : Verdict → Outcome
  | .pass => .passed
  | .fail => .failed
  | .channel met => .channel met

/-- How an outcome is announced. -/
def Outcome.label : Outcome → String
  | .passed => "PASSED"
  | .failed => "FAILED"
  | .errored _ => "FAILED"
  | .channel true => "CHANNEL PASSED"
  | .channel false => "CHANNEL FAILED"

/-- The outcome of a test. -/
structure Report where
  name : String
  outcome : Outcome
  deriving DecidableEq

/-- The line that announces the outcome of a test. -/
def Report.line (r : Report) : String :=
  r.outcome.label ++ ": " ++ r.name

/-- The reports on the tests that were run, in the order of the script. -/
structure Summary where
  reports : List Report := []

namespace Summary

/-- The number of tests whose outcome is a success. -/
def passed (s : Summary) : Nat :=
  s.reports.countP fun r => r.outcome.isSuccess

/-- The number of the other tests. -/
def failed (s : Summary) : Nat :=
  s.reports.length - s.passed

def allPassed (s : Summary) : Bool :=
  s.failed == 0

/-- The outcome of the first test with a name. -/
def outcomeOf? (s : Summary) (name : String) : Option Outcome :=
  (s.reports.find? (·.name == name)).map (·.outcome)

/-- The line that closes a run. -/
def line (s : Summary) : String :=
  s!"{s.passed} of {s.reports.length} tests passed"

end Summary

/-- What a suite announces while it runs. -/
inductive Progress where
  | started (name : String)
  | finished (report : Report)
  deriving DecidableEq

/-- The line with which progress is announced on a console. -/
def Progress.line : Progress → String
  | .started name => "TEST STARTED: " ++ name
  | .finished report => report.line

/-- The report that is announced, if it is one. -/
def Progress.report? : Progress → Option Report
  | .started _ => none
  | .finished report => some report

/-- Why a suite stops before its last test. -/
inductive Stop where
  /-- A panic outside of any test. -/
  | panicked (p : Panic)
  /-- A test that does not come to an end. -/
  | unfinished
  deriving DecidableEq

/-- A run of a suite. -/
structure SuiteRun (σ : Type) where
  exchange : Exchange σ
  /-- What was announced, the latest first. -/
  reversed : List Progress := []
  stopped : Option Stop := none

namespace SuiteRun

variable {σ : Type}

/-- Announce something. -/
def announce (p : Progress) (run : SuiteRun σ) : SuiteRun σ :=
  { run with reversed := p :: run.reversed }

/-- What was announced, in order. -/
def progress (run : SuiteRun σ) : List Progress :=
  run.reversed.reverse

/-- The reports that were announced. -/
def summary (run : SuiteRun σ) : Summary :=
  { reports := run.progress.filterMap Progress.report? }

end SuiteRun

namespace Suite

variable {σ τ : Type}

/-- Whether a list of names selects a test. -/
def selects (allowed : List String) (name : String) : Bool :=
  allowed.isEmpty || allowed.contains name

/-- The outcome of a trial whose commands came to an end. -/
def outcome? (t : Trial σ τ) : Trial.Ending → Option Outcome
  | .done =>
    match t.verdict with
    | .ok v => some (.ofVerdict v)
    | .error f => some (.errored f.message)
  | .faulted f => some (.errored f.message)
  | .panicked p => some (.errored p.message)
  | .stuck => none
  | .exhausted => none

/-- The panic with which the start of a test ends, if its thread cannot have its name. -/
def startPanic? (test : Script.Test) : Option Panic :=
  threadNamePanic? ("tck-" ++ test.name)

/-- Run a test on a thread of its own. -/
def runTest (env : Environment σ τ) (fuel : Nat) (test : Script.Test) (e : Exchange σ) :
    Exchange σ × Except Stop Outcome :=
  match startPanic? test with
  | some p => (e, .error (.panicked p))
  | none =>
    match Trial.executeAll env fuel test.commands { name := test.name, exchange := e } with
    | (t, ending) =>
      match outcome? t ending with
      | some outcome => (t.release env fuel, .ok outcome)
      | none => (t.exchange, .error .unfinished)

/-- Run a test if it is selected, and report on it. -/
def step (env : Environment σ τ) (fuel : Nat) (allowed : List String) (run : SuiteRun σ)
    (test : Script.Test) : SuiteRun σ :=
  if run.stopped.isSome || !selects allowed test.name then run
  else
    let started := run.announce (.started test.name)
    match runTest env fuel test run.exchange with
    | (e, .ok outcome) =>
      { started with exchange := e }.announce (.finished { name := test.name, outcome := outcome })
    | (e, .error stop) => { started with exchange := e, stopped := some stop }

/-- Run the selected tests of a script, one after another. -/
def run (env : Environment σ τ) (fuel : Nat) (allowed : List String)
    (tests : List Script.Test) (far : σ) : SuiteRun σ :=
  tests.foldl (step env fuel allowed) { exchange := { far := far } }

end Suite
end StreamConformance
