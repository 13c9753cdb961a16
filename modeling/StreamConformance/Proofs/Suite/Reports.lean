import Mathlib.Data.List.Basic
import StreamConformance.Suite

/-!
# What a suite reports

A suite runs the tests that are selected one after another, and what it reports of a test is how the
thread of that test came to its end, in whichever way that was.  A fault or a panic is the end of
its own thread and of nothing else: the next test begins all the same.

Two things can keep a suite from this, and both are left out here: a test whose thread cannot have
its name, and a test that does not come to an end.

* `Conclusion`, `Suite.Concludes`: how the thread of a test ends, and what is reported of it.
* `Suite.Runs`: tests one after another, each from what the one before has left.
* `Suite.runs_of_foldl`: a suite runs the tests that are selected, and announces each of them.
* `Suite.reports_of_run`: the reports, the announcements and the counts of a suite.
-/

namespace StreamConformance

open Script (Test)

/-- How the thread of a test ends. -/
inductive Conclusion where
  | verdict (v : Verdict)
  | fault (f : Fault)
  | panic (p : Panic)
  deriving DecidableEq

/-- What is reported of a test whose thread has ended. -/
def Conclusion.outcome : Conclusion → Outcome
  | .verdict .pass => .passed
  | .verdict .fail => .failed
  | .verdict (.channel met) => .channel met
  | .fault f => .errored f.message
  | .panic (.text message) => .errored message
  | .panic .wordless => .errored "test thread panicked"

/-- The report on a test whose thread has ended. -/
def Conclusion.report (test : Test) (c : Conclusion) : Report where
  name := test.name
  outcome := c.outcome

/-- What is announced of a test that is reported on. -/
def Report.announcements (r : Report) : List Progress :=
  [.started r.name, .finished r]

namespace Suite

variable {σ τ : Type} {env : Environment σ τ} {fuel : Nat} {allowed : List String}
  {test : Test} {tests : List Test} {e e' : Exchange σ} {run : SuiteRun σ} {c : Conclusion}
  {cs : List Conclusion}

/-- The thread of a test, begun at the exchange `e`, ends and leaves the exchange `e'`. -/
inductive Concludes (env : Environment σ τ) (fuel : Nat) (test : Test) (e : Exchange σ) :
    Conclusion → Exchange σ → Prop where
  | verdict {t : Trial σ τ} {v : Verdict}
      (h : Trial.executeAll env fuel test.commands { name := test.name, exchange := e } = (t, .done))
      (hv : t.verdict = .ok v) : Concludes env fuel test e (.verdict v) (t.release env fuel)
  | noVerdict {t : Trial σ τ} {f : Fault}
      (h : Trial.executeAll env fuel test.commands { name := test.name, exchange := e } = (t, .done))
      (hv : t.verdict = .error f) : Concludes env fuel test e (.fault f) (t.release env fuel)
  | fault {t : Trial σ τ} {f : Fault}
      (h : Trial.executeAll env fuel test.commands { name := test.name, exchange := e } =
        (t, .faulted f)) : Concludes env fuel test e (.fault f) (t.release env fuel)
  | panic {t : Trial σ τ} {p : Panic}
      (h : Trial.executeAll env fuel test.commands { name := test.name, exchange := e } =
        (t, .panicked p)) : Concludes env fuel test e (.panic p) (t.release env fuel)

/-- How the thread of a test ends is settled by the test and by the exchange it begins at. -/
theorem Concludes.unique {c₁ c₂ : Conclusion} {e₁ e₂ : Exchange σ}
    (h₁ : Concludes env fuel test e c₁ e₁) (h₂ : Concludes env fuel test e c₂ e₂) :
    c₁ = c₂ ∧ e₁ = e₂ := by
  cases h₁ <;> cases h₂ <;> simp_all

/-- Tests that run one after another, each at what the one before has left. -/
inductive Runs (env : Environment σ τ) (fuel : Nat) :
    List Test → Exchange σ → List Conclusion → Exchange σ → Prop where
  | nil (e : Exchange σ) : Runs env fuel [] e [] e
  | cons {test : Test} {tests : List Test} {e e' e'' : Exchange σ} {c : Conclusion}
      {cs : List Conclusion} (h : Concludes env fuel test e c e') (hs : Runs env fuel tests e' cs e'') :
      Runs env fuel (test :: tests) e (c :: cs) e''

/-- Each test has its own report, under its own name. -/
theorem Runs.names (h : Runs env fuel tests e cs e') :
    (List.zipWith (fun test c => Conclusion.report test c) tests cs).map Report.name =
      tests.map Test.name := by
  induction h with
  | nil => rfl
  | cons _ _ ih => rw [List.zipWith_cons_cons, List.map_cons, List.map_cons, ih]; rfl

/-! ## One test -/

/-- A test comes to an end, and that is its outcome, or it never comes to an end. -/
theorem runTest_cases (env : Environment σ τ) (fuel : Nat) (hname : startPanic? test = none)
    (e : Exchange σ) :
    (∃ c e', Concludes env fuel test e c e' ∧ runTest env fuel test e = (e', .ok c.outcome)) ∨
      ∃ e', runTest env fuel test e = (e', .error .unfinished) := by
  rw [runTest, hname]
  dsimp only
  rcases h : Trial.executeAll env fuel test.commands { name := test.name, exchange := e } with
    ⟨t, ending⟩
  dsimp only
  cases ending with
  | done =>
    refine Or.inl ?_
    rcases hv : t.verdict with f | v
    · exact ⟨.fault f, _, .noVerdict h hv, by rw [outcome?, hv]; rfl⟩
    · refine ⟨.verdict v, _, .verdict h hv, ?_⟩
      rw [outcome?, hv]
      cases v <;> rfl
  | faulted f => exact Or.inl ⟨.fault f, _, .fault h, rfl⟩
  | panicked p =>
    refine Or.inl ⟨.panic p, _, .panic h, ?_⟩
    cases p <;> rfl
  | stuck | exhausted => exact Or.inr ⟨_, rfl⟩

theorem step_of_stopped (h : run.stopped ≠ none) (test : Test) :
    step env fuel allowed run test = run := by
  rw [step, if_pos]
  rw [Option.isSome_iff_ne_none.mpr h, Bool.true_or]

theorem step_of_not_selects (h : selects allowed test.name = false) (run : SuiteRun σ) :
    step env fuel allowed run test = run := by
  rw [step, if_pos]
  rw [h, Bool.not_false, Bool.or_true]

/-- What a suite does with a test that is selected. -/
theorem step_of_selects (env : Environment σ τ) (fuel : Nat) (hrun : run.stopped = none)
    (h : selects allowed test.name = true) (hname : startPanic? test = none) :
    (∃ c e', Concludes env fuel test run.exchange c e' ∧
        (step env fuel allowed run test).exchange = e' ∧
        (step env fuel allowed run test).stopped = none ∧
        (step env fuel allowed run test).progress =
          run.progress ++ (c.report test).announcements) ∨
      (step env fuel allowed run test).stopped = some .unfinished := by
  have hgo : ¬ (run.stopped.isSome || !selects allowed test.name) = true := by
    rw [hrun, h]
    decide
  rw [step, if_neg hgo]
  rcases runTest_cases env fuel hname run.exchange with
    ⟨c, e', hc, heq⟩ | ⟨e', heq⟩
  · refine Or.inl ⟨c, e', hc, ?_⟩
    rw [heq]
    refine ⟨rfl, hrun, ?_⟩
    simp [SuiteRun.progress, SuiteRun.announce, Report.announcements, Conclusion.report]
  · refine Or.inr ?_
    rw [heq]

/-! ## All tests -/

/-- A suite that has stopped does nothing more. -/
theorem foldl_step_of_stopped (h : run.stopped ≠ none) (tests : List Test) :
    tests.foldl (step env fuel allowed) run = run := by
  induction tests with
  | nil => rfl
  | cons test tests ih => rw [List.foldl_cons, step_of_stopped h, ih]

/-- **A suite runs the tests that are selected, one after another, and announces each of them.** -/
theorem runs_of_foldl (hrun : run.stopped = none)
    (hnames : ∀ test ∈ tests, selects allowed test.name = true → startPanic? test = none)
    (hends : (tests.foldl (step env fuel allowed) run).stopped ≠ some .unfinished) :
    (tests.foldl (step env fuel allowed) run).stopped = none ∧
      ∃ cs, Runs env fuel (tests.filter fun test => selects allowed test.name) run.exchange cs
          (tests.foldl (step env fuel allowed) run).exchange ∧
        (tests.foldl (step env fuel allowed) run).progress = run.progress ++
          (List.zipWith (fun test c => Conclusion.report test c)
            (tests.filter fun test => selects allowed test.name) cs).flatMap
              Report.announcements := by
  induction tests generalizing run with
  | nil => exact ⟨hrun, [], .nil _, (List.append_nil _).symm⟩
  | cons test tests ih =>
    have hnames' : ∀ test ∈ tests, selects allowed test.name = true → startPanic? test = none :=
      fun t ht => hnames t (List.mem_cons_of_mem test ht)
    rw [List.foldl_cons] at hends ⊢
    cases hsel : selects allowed test.name with
    | false =>
      rw [step_of_not_selects hsel] at hends ⊢
      rw [List.filter_cons_of_neg (by rw [hsel]; exact Bool.false_ne_true)]
      exact ih hrun hnames' hends
    | true =>
      rw [List.filter_cons_of_pos (by rw [hsel])]
      rcases step_of_selects env fuel hrun hsel
        (hnames test List.mem_cons_self hsel) with ⟨c, e', hc, he, hgoes, hsaid⟩ | hstop
      · obtain ⟨hstopped, cs, hcs, hprogress⟩ := ih hgoes hnames' hends
        rw [he] at hcs
        refine ⟨hstopped, c :: cs, .cons hc hcs, ?_⟩
        rw [hprogress, hsaid, List.append_assoc, List.zipWith_cons_cons, List.flatMap_cons]
      · rw [foldl_step_of_stopped (by rw [hstop]; simp), hstop] at hends
        exact absurd rfl hends

/-- The reports among the announcements are those that were announced. -/
theorem filterMap_announcements (reports : List Report) :
    (reports.flatMap Report.announcements).filterMap Progress.report? = reports := by
  induction reports with
  | nil => rfl
  | cons r reports ih => rw [List.flatMap_cons, List.filterMap_append, ih]; rfl

theorem isSuccess_iff (o : Outcome) :
    o.isSuccess = true ↔ o = .passed ∨ o = .channel true := by
  cases o <;> simp [Outcome.isSuccess]

theorem passed_le (s : Summary) : s.passed ≤ s.reports.length :=
  List.countP_le_length

theorem passed_add_failed (s : Summary) : s.passed + s.failed = s.reports.length :=
  Nat.add_sub_cancel' (passed_le s)

/-- All tests passed if nothing but a success is reported. -/
theorem allPassed_iff (s : Summary) :
    s.allPassed = true ↔ ∀ r ∈ s.reports, r.outcome = .passed ∨ r.outcome = .channel true := by
  have hfailed : s.failed = 0 ↔ s.passed = s.reports.length := by
    have := passed_add_failed s
    omega
  rw [Summary.allPassed, beq_iff_eq, hfailed, Summary.passed, List.countP_eq_length]
  simp only [isSuccess_iff]

/-- **What a suite reports.**  Let the thread of every test that is selected be one that can be
created, and that ends.  Then there is one report for each of these tests, in the order of the
script, also for tests with the same name; it says how the thread of that test ended.  Each test is
announced and then its report, with nothing in between, and of the other tests nothing is heard. -/
theorem reports_of_run (env : Environment σ τ) (fuel : Nat) (allowed : List String)
    (tests : List Test) (far : σ)
    (hnames : ∀ test ∈ tests, allowed = [] ∨ test.name ∈ allowed → startPanic? test = none)
    (hends : (Suite.run env fuel allowed tests far).stopped ≠ some .unfinished) :
    (∃ cs, Runs env fuel (tests.filter fun test => allowed = [] ∨ test.name ∈ allowed) { far := far }
          cs (Suite.run env fuel allowed tests far).exchange ∧
        (Suite.run env fuel allowed tests far).summary.reports =
          List.zipWith (fun test c => { name := test.name, outcome := Conclusion.outcome c })
            (tests.filter fun test => allowed = [] ∨ test.name ∈ allowed) cs) ∧
      (Suite.run env fuel allowed tests far).summary.reports.map Report.name =
        (tests.filter fun test => allowed = [] ∨ test.name ∈ allowed).map Test.name ∧
      (Suite.run env fuel allowed tests far).progress =
        (Suite.run env fuel allowed tests far).summary.reports.flatMap
          (fun r => [.started r.name, .finished r]) ∧
      (Suite.run env fuel allowed tests far).stopped = none ∧
      (Suite.run env fuel allowed tests far).summary.passed +
          (Suite.run env fuel allowed tests far).summary.failed =
        (Suite.run env fuel allowed tests far).summary.reports.length ∧
      ((Suite.run env fuel allowed tests far).summary.allPassed = true ↔
        ∀ r ∈ (Suite.run env fuel allowed tests far).summary.reports,
          r.outcome = .passed ∨ r.outcome = .channel true) := by
  have hsel : ∀ name, selects allowed name = true ↔ allowed = [] ∨ name ∈ allowed := by
    intro name
    rw [selects, Bool.or_eq_true, List.isEmpty_iff, List.contains_iff_mem]
  have hchosen : (tests.filter fun test => decide (allowed = [] ∨ test.name ∈ allowed)) =
      tests.filter fun test => selects allowed test.name := by
    refine List.filter_congr fun test _ => ?_
    rw [Bool.eq_iff_iff, decide_eq_true_iff, hsel]
  have hstart : ({ exchange := { far := far } } : SuiteRun σ).stopped = none := rfl
  obtain ⟨hstopped, cs, hcs, hprogress⟩ := runs_of_foldl hstart
    (fun test ht h => hnames test ht ((hsel test.name).mp h)) hends
  have hreports : (Suite.run env fuel allowed tests far).summary.reports =
      List.zipWith (fun test c => Conclusion.report test c)
        (tests.filter fun test => selects allowed test.name) cs := by
    rw [SuiteRun.summary, Suite.run, hprogress]
    exact filterMap_announcements _
  rw [hchosen]
  refine ⟨⟨cs, hcs, hreports⟩, ?_, ?_, hstopped, ?_, ?_⟩
  · rw [hreports, hcs.names]
  · rw [hreports, Suite.run, hprogress]
    rfl
  · exact passed_add_failed _
  · exact allPassed_iff _

/-- A far side that answers nothing.  The first attempt to connect to it is refused, the next two
end the thread, and the ones behind them succeed. -/
def cautious : Environment Nat Unit where
  dial n :=
    some (n + 1,
      match n with
      | 0 => .refused (.unreachable "peer" "refused")
      | 1 => .panicked (.text "no luck")
      | 2 => .panicked .wordless
      | k => .connected k)
  react _ n := (n, [])
  idle _ := none

/-- Tests that come to all kinds of ends, two of them with the same name and one that is not
selected. -/
def assorted : List Test :=
  [("a", ["subscribe%%rs%%A%%d%%m"]), ("b", ["echochannel%%d%%m"]), ("x", ["echochannel%%d%%m"]),
    ("a", ["subscribe%%rr%%A%%d%%m"]), ("c", ["pass"]), ("b", ["echochannel%%d%%m"]),
    ("a", ["subscribe%%rs%%A%%d%%m", "fail"]), ("c", ["subscribe%%sub%%A%%d%%m"])].map
    fun (name, lines) =>
      { name := name, lines := (("name%%" ++ name) :: lines).map String.toList }

theorem reports_of_assorted :
    (∀ test ∈ assorted, (["a", "b", "c"] = [] ∨ test.name ∈ ["a", "b", "c"]) →
        startPanic? test = none) ∧
      (Suite.run cautious 20 ["a", "b", "c"] assorted 0).stopped ≠ some .unfinished ∧
      (Suite.run cautious 20 ["a", "b", "c"] assorted 0).summary.reports =
        [⟨"a", .errored "failed to connect to peer: refused"⟩, ⟨"b", .errored "no luck"⟩,
          ⟨"a", .errored "test thread panicked"⟩,
          ⟨"c", .errored "test c has no subscriber and no channel"⟩, ⟨"b", .channel true⟩,
          ⟨"a", .failed⟩, ⟨"c", .passed⟩] ∧
      (Suite.run cautious 20 ["a", "b", "c"] assorted 0).summary.reports.map Report.name =
        ["a", "b", "a", "c", "b", "a", "c"] := by
  have hnames : ∀ test ∈ assorted, (["a", "b", "c"] = [] ∨ test.name ∈ ["a", "b", "c"]) →
      startPanic? test = none := by
    decide +kernel
  have hends : (Suite.run cautious 20 ["a", "b", "c"] assorted 0).stopped ≠ some .unfinished := by
    decide +kernel
  exact ⟨hnames, hends, by decide +kernel,
    (reports_of_run cautious 20 ["a", "b", "c"] assorted 0 hnames hends).2.1.trans (by decide)⟩

end Suite
end StreamConformance
