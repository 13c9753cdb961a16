import Mathlib.Data.List.TakeWhile
import StreamConformance.Proofs.Suite.Reports
import StreamConformance.Proofs.Text.Bytes

/-!
# Tests whose threads cannot be named

A test runs on a thread that has its name, and the name of a thread cannot hold the character NUL.
A suite does not ask whether it does: it starts the thread of a test on the thread it runs on
itself, outside of all that catches a panic, so a name with NUL is the end of the whole suite.  The
reports on the tests before it are lost with it, and the tests behind it are not run at all.

No other name, and nothing else in a script, can do this.

* `threadNamePanic?_eq_none`: the names that a thread can have.
* `Suite.ReportsAll`: a suite comes to its end and reports on every test that is selected.
* `Suite.foldl_step_eq`: a suite runs the tests up to the first whose thread cannot be named.
* `Suite.reportsAll_iff`: a suite reports on all tests exactly if the threads of all can be named.
-/

namespace StreamConformance

open Script (Test)

/-- The character that no thread may have in its name. -/
def nul : Char := Char.ofNat 0

namespace Text

theorem zero_mem_encodeChar {c : Char} : 0 ∈ String.utf8EncodeChar c ↔ c = nul := by
  constructor
  · intro h
    by_cases hc : c.toNat < 0x80
    · rw [encodeChar_of_lt hc, List.mem_singleton] at h
      have hzero : c.toNat = 0 := by
        have := congrArg UInt8.toNat h
        rw [UInt8.toNat_ofNat', UInt8.toNat_zero] at this
        omega
      rw [← Char.ofNat_toNat c, hzero]
      rfl
    · exact absurd (le_of_mem_encodeChar (Nat.le_of_not_lt hc) h) (by decide)
  · rintro rfl
    decide

theorem zero_mem_bytes {s : String} : 0 ∈ bytes s ↔ nul ∈ s.toList := by
  rw [bytes_eq, List.mem_flatMap]
  simp only [zero_mem_encodeChar, exists_eq_right]

end Text

/-- A thread can have the names without NUL. -/
theorem threadNamePanic?_eq_none {name : String} :
    threadNamePanic? name = none ↔ nul ∉ name.toList := by
  rw [← Text.zero_mem_bytes, Text.bytes, threadNamePanic?]
  split
  next h => simpa using h
  next h => simpa using h

namespace Suite

variable {σ τ : Type} {env : Environment σ τ} {fuel : Nat} {allowed : List String}
  {test : Test} {tests : List Test} {run : SuiteRun σ} {p : Panic}

/-- The tests that are selected, in order. -/
def selected (allowed : List String) (tests : List Test) : List Test :=
  tests.filter fun test => selects allowed test.name

theorem mem_selected :
    test ∈ selected allowed tests ↔ test ∈ tests ∧ (allowed = [] ∨ test.name ∈ allowed) := by
  rw [selected, List.mem_filter, selects, Bool.or_eq_true, List.isEmpty_iff, List.contains_iff_mem]

/-- The thread of a test can have its name. -/
def isNamable (test : Test) : Bool :=
  !test.name.toList.contains nul

theorem isNamable_iff : isNamable test = true ↔ nul ∉ test.name.toList := by
  rw [isNamable, Bool.not_eq_true', ← Bool.not_eq_true, List.contains_iff_mem]

theorem startPanic?_eq_none : startPanic? test = none ↔ isNamable test = true := by
  have hthread : nul ∉ "tck-".toList := by decide
  rw [startPanic?, threadNamePanic?_eq_none, isNamable_iff, String.toList_append, List.mem_append]
  simp only [hthread, false_or]

/-- A suite comes to its end and reports on every test that is selected, in order. -/
structure ReportsAll (env : Environment σ τ) (fuel : Nat) (allowed : List String)
    (tests : List Test) (far : σ) : Prop where
  finishes : (Suite.run env fuel allowed tests far).stopped = none
  reports : (Suite.run env fuel allowed tests far).summary.reports.map Report.name =
    (selected allowed tests).map Test.name

/-- A test whose thread cannot be named is announced, and then the suite ends in a panic. -/
theorem step_of_startPanic (hrun : run.stopped = none) (h : selects allowed test.name = true)
    (hp : startPanic? test = some p) :
    step env fuel allowed run test =
      { run.announce (.started test.name) with stopped := some (.panicked p) } := by
  have hgo : ¬ (run.stopped.isSome || !selects allowed test.name) = true := by
    rw [hrun, h]
    decide
  rw [step, if_neg hgo, runTest, hp]
  rfl

/-- Tests that are not selected leave no trace. -/
theorem foldl_step_selected (run : SuiteRun σ) :
    (selected allowed tests).foldl (step env fuel allowed) run =
      tests.foldl (step env fuel allowed) run := by
  rw [selected, List.foldl_filter]
  congr 1
  funext run test
  split
  next => rfl
  next h => exact (step_of_not_selects (Bool.not_eq_true _ ▸ h) run).symm

/-- The tests before the first whose thread cannot be named come first. -/
theorem foldl_step_split (run : SuiteRun σ) :
    tests.foldl (step env fuel allowed) run =
      ((selected allowed tests).dropWhile isNamable).foldl (step env fuel allowed)
        (((selected allowed tests).takeWhile isNamable).foldl (step env fuel allowed) run) := by
  rw [← List.foldl_append, List.takeWhile_append_dropWhile, foldl_step_selected]

/-- **A suite runs the tests up to the first whose thread cannot be named, announces that one as
well, and ends there.** -/
theorem foldl_step_eq (hrun : run.stopped = none)
    (hends : (tests.foldl (step env fuel allowed) run).stopped ≠ some .unfinished) :
    ∃ reports : List Report,
      reports.map Report.name = ((selected allowed tests).takeWhile isNamable).map Test.name ∧
      (tests.foldl (step env fuel allowed) run).progress =
        run.progress ++ reports.flatMap Report.announcements ++
          (((selected allowed tests).dropWhile isNamable).head?.map fun test =>
            Progress.started test.name).toList ∧
      (tests.foldl (step env fuel allowed) run).stopped =
        (((selected allowed tests).dropWhile isNamable).head?.bind startPanic?).map .panicked := by
  rw [foldl_step_split] at hends ⊢
  have hchosen : ∀ test ∈ selected allowed tests, selects allowed test.name = true :=
    fun test h => (List.mem_filter.mp h).2
  have hfilter : ((selected allowed tests).takeWhile isNamable).filter
      (fun test => selects allowed test.name) = (selected allowed tests).takeWhile isNamable :=
    List.filter_eq_self.mpr fun test h => hchosen test ((List.takeWhile_prefix _).subset h)
  -- a suite that a test without end has stopped would stay where it is
  obtain ⟨hstopped, cs, hcs, hprogress⟩ := runs_of_foldl hrun
    (fun test h _ => startPanic?_eq_none.mpr (List.mem_takeWhile_imp h))
    (fun h => hends (by rw [foldl_step_of_stopped (by rw [h]; simp), h]))
  rw [hfilter] at hcs hprogress
  refine ⟨_, hcs.names, ?_⟩
  rw [← hprogress]
  cases hrest : (selected allowed tests).dropWhile isNamable with
  | nil => exact ⟨(List.append_nil _).symm, hstopped⟩
  | cons test rest =>
    have hodd : isNamable test = false := by
      have := List.head?_dropWhile_not isNamable (selected allowed tests)
      rw [hrest] at this
      simpa using this
    have hmem : test ∈ selected allowed tests :=
      (List.dropWhile_suffix _).subset (hrest ▸ List.mem_cons_self)
    obtain ⟨p, hp⟩ : ∃ p, startPanic? test = some p :=
      Option.ne_none_iff_exists'.mp fun h => by
        rw [startPanic?_eq_none, hodd] at h
        exact Bool.false_ne_true h
    rw [List.foldl_cons, step_of_startPanic hstopped (hchosen test hmem) hp,
      foldl_step_of_stopped (by simp)]
    simp [SuiteRun.progress, SuiteRun.announce, hp]

/-- **A script aborts a suite exactly if it gives a test that is selected a name with NUL.**  Let no
test be without end.  Then the suite comes to its end and reports on all tests that are selected if
and only if none of them has NUL in its name.  In any case the reports that were announced are those
on the tests before the first of these, and the suite ends in the panic of starting its thread. -/
theorem reportsAll_iff (env : Environment σ τ) (fuel : Nat) (allowed : List String) (text : String)
    (far : σ)
    (hends : (Suite.run env fuel allowed (Script.parse text) far).stopped ≠ some .unfinished) :
    (ReportsAll env fuel allowed (Script.parse text) far ↔
      ∀ test ∈ Script.parse text, allowed = [] ∨ test.name ∈ allowed → nul ∉ test.name.toList) ∧
    (Suite.run env fuel allowed (Script.parse text) far).summary.reports.map Report.name =
      ((selected allowed (Script.parse text)).takeWhile isNamable).map Test.name ∧
    (Suite.run env fuel allowed (Script.parse text) far).stopped =
      (((selected allowed (Script.parse text)).dropWhile isNamable).head?.bind startPanic?).map
        .panicked := by
  obtain ⟨reports, hnames, hprogress, hstopped⟩ := foldl_step_eq rfl hends
  have hreports : (Suite.run env fuel allowed (Script.parse text) far).summary.reports = reports := by
    rw [SuiteRun.summary, Suite.run, hprogress, List.filterMap_append, List.filterMap_append,
      filterMap_announcements]
    cases ((selected allowed (Script.parse text)).dropWhile isNamable).head? <;>
      simp [SuiteRun.progress, Progress.report?]
  have hall : (∀ test ∈ Script.parse text, allowed = [] ∨ test.name ∈ allowed →
      nul ∉ test.name.toList) ↔ ∀ test ∈ selected allowed (Script.parse text),
        isNamable test = true := by
    simp only [mem_selected, isNamable_iff, and_imp]
  rw [hreports, hall]
  refine ⟨⟨fun h => ?_, fun h => ⟨?_, ?_⟩⟩, hnames, hstopped⟩
  · -- all names are reported, so none was left behind the first odd one
    have hlength := congrArg List.length (h.reports.symm.trans (hreports ▸ hnames))
    rw [List.length_map, List.length_map] at hlength
    rw [← List.takeWhile_eq_self_iff]
    exact ((List.takeWhile_prefix _).eq_of_length hlength.symm)
  · rw [Suite.run, hstopped, List.dropWhile_eq_nil_iff.mpr h]
    rfl
  · rw [hreports, hnames, List.takeWhile_eq_self_iff.mpr h]

/-- A script of three tests.  The thread of the second cannot have its name. -/
def interruptedText : String :=
  "!\nname%%first\npass\n!\nname%%a\x00b\npass\n!\nname%%later\npass"

/-- All tests are selected, and the suite ends without a report on the second and the third. -/
theorem not_reportsAll_interrupted :
    (Suite.run cautious 20 [] (Script.parse interruptedText) 0).stopped ≠ some .unfinished ∧
      (Suite.run cautious 20 [] (Script.parse interruptedText) 0).summary.reports.map Report.name =
        ["first"] ∧
      ¬ ReportsAll cautious 20 [] (Script.parse interruptedText) 0 := by
  refine ⟨by decide +kernel, by decide +kernel, fun h => ?_⟩
  have hstopped : (Suite.run cautious 20 [] (Script.parse interruptedText) 0).stopped ≠ none := by
    decide +kernel
  exact hstopped h.finishes

theorem reportsAll_interrupted :
    (Suite.run cautious 20 ["first", "later"] (Script.parse interruptedText) 0).stopped ≠
        some .unfinished ∧
      ReportsAll cautious 20 ["first", "later"] (Script.parse interruptedText) 0 ∧
      (Suite.run cautious 20 ["a\x00b", "later"]
        (Script.parse interruptedText) 0).summary.reports.map Report.name = [] ∧
      (Suite.run cautious 20 ["a\x00b", "later"] (Script.parse interruptedText) 0).stopped =
        some (.panicked (.text ("thread name may not contain interior null bytes: " ++
          "NulError(5, [116, 99, 107, 45, 97, 0, 98])"))) := by
  have hends : (Suite.run cautious 20 ["first", "later"]
      (Script.parse interruptedText) 0).stopped ≠ some .unfinished := by
    decide +kernel
  have hodd := reportsAll_iff cautious 20 ["a\x00b", "later"] interruptedText 0 (by decide +kernel)
  exact ⟨hends, (reportsAll_iff cautious 20 _ interruptedText 0 hends).1.mpr (by decide +kernel),
    hodd.2.1.trans (by decide +kernel), hodd.2.2.trans (by decide +kernel)⟩

end Suite
end StreamConformance
