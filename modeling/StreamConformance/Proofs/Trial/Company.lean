import Mathlib.Logic.Function.Basic
import Mathlib.Logic.Relation
import StreamConformance.Proofs.Trial.Order

/-!
# Trials in company

A company is a trial with any number of other threads that work at the same exchange, each with a
stack of its own.  The thread of the trial carries out its commands one after another; the others
belong to the far side, and begin with whatever calls it likes to make.  The far side may change
in any way at any time, and may make calls on the trial's thread as well when that waits.

Of the far side only one thing is asked: it asks nothing of a producer that has not given it a
subscription (`Company.Permits`).

Everything that a thread does is entered into a log, with the number of jobs that the thread has
behind it.  That number tells calls from what comes after their return: as long as a call goes on,
what its thread does has more jobs behind it than the call itself had.

* `Company.Step`, `Company.Reach`: what companies do.
* `Company.Step.turns`: every step is a job done, some calls, or the end of a thread's work.
* `Company.Step.isOrderly`: a trial has nothing to do for the script of a channel before its gate was
  fired.
-/

namespace StreamConformance

open Function (update)
open Script (Command)
open Trial (Does)

/-- A job that was done. -/
structure Company.Entry (ι τ : Type) where
  /-- The thread that has done it; there is none for the trial's own. -/
  thread : Option ι
  /-- The number of jobs that the thread had behind it. -/
  behind : Nat
  job : Job τ

/-- A trial, and other threads that work at the same exchange. -/
structure Company (ι σ τ : Type) where
  trial : Trial σ τ
  /-- What another thread has still to do, the innermost call first. -/
  stack : ι → List (Task τ) := fun _ => []
  /-- The jobs done so far, in order. -/
  log : List (Company.Entry ι τ) := []

namespace Company

variable {ι σ τ : Type}

/-- The exchange at which all threads work. -/
abbrev exchange (c : Company ι σ τ) : Exchange σ :=
  c.trial.exchange

/-- What a thread has to do. -/
def jobs (c : Company ι σ τ) : Option ι → List (Job τ)
  | none => c.trial.jobs
  | some k => (c.stack k).map .task

/-- A producer has given its subscription to a receiver. -/
def Greeted (i : Nat) (r : Handle) (log : List (Entry ι τ)) : Prop :=
  ∃ e ∈ log, e.job = .task (.tell (.attached r i))

/-- Only a subscription that was given to somebody is asked for anything. -/
def Permits (c : Company ι σ τ) (j : Job τ) : Prop :=
  ∀ i a, j = .task (.call (.ask i a)) → ∃ r, Greeted i r c.log

/-- The commands are about to be carried out, and nothing was opened. -/
def start (name : String) (far : σ) (commands : List Command) : Company ι σ τ where
  trial := { name := name, exchange := { far := far }, jobs := commands.map .command }

variable [DecidableEq ι]

/-- A step of one of the threads, or of the far side. -/
inductive Step (env : Environment σ τ) : Company ι σ τ → Company ι σ τ → Prop where
  /-- The trial does its first job. -/
  | turn {c : Company ι σ τ} {j : Job τ} {rest : List (Job τ)} {t : Trial σ τ}
      (hj : c.trial.jobs = j :: rest) (h : c.trial.turn env = .next t) (hj' : c.Permits j) :
      Step env c { c with trial := t, log := c.log ++ [⟨none, rest.length, j⟩] }
  /-- The window that the trial waits for is over. -/
  | window {c : Company ι σ τ} {i baseline milliseconds : Nat} {rest : List (Job τ)}
      (hj : c.trial.jobs = .window i baseline milliseconds :: rest) :
      Step env c
        { c with
          trial := c.trial.closeWindow
          log := c.log ++ [⟨none, rest.length, .window i baseline milliseconds⟩] }
  /-- The far side makes calls while the trial waits. -/
  | interrupt {c : Company ι σ τ} {b : Blocked} (h : c.trial.turn env = .blocked b) (far : σ)
      (calls : List (Call τ)) : Step env c { c with trial := c.trial.interrupt far calls }
  /-- A command ends in a fault. -/
  | fault {c : Company ι σ τ} {f : Fault} {t : Trial σ τ} (h : c.trial.turn env = .faulted f t) :
      Step env c { c with trial := t }
  /-- The thread of the trial panics. -/
  | panic {c : Company ι σ τ} {p : Panic} {t : Trial σ τ} (h : c.trial.turn env = .panicked p t) :
      Step env c { c with trial := t }
  /-- Another thread performs its first task. -/
  | work {c : Company ι σ τ} {k : ι} {t : Task τ} {rest : List (Task τ)} (hk : c.stack k = t :: rest)
      (ht : ∀ p, t ≠ .call (.raise p)) (ht' : c.Permits (.task t)) :
      Step env c
        { trial := { c.trial with exchange := (c.exchange.perform env t).1 }
          stack := update c.stack k ((c.exchange.perform env t).2 ++ rest)
          log := c.log ++ [⟨some k, rest.length, .task t⟩] }
  /-- Another thread panics. -/
  | collapse {c : Company ι σ τ} {k : ι} {p : Panic} {rest : List (Task τ)}
      (hk : c.stack k = .call (.raise p) :: rest) : Step env c { c with stack := update c.stack k [] }
  /-- Another thread, which is idle, begins with some calls. -/
  | start {c : Company ι σ τ} {k : ι} (hk : c.stack k = []) (calls : List (Call τ)) :
      Step env c { c with stack := update c.stack k (calls.map .call) }
  /-- The far side changes. -/
  | outside {c : Company ι σ τ} (far : σ) :
      Step env c { c with trial := { c.trial with exchange := { c.exchange with far := far } } }

/-- Some steps, one after another. -/
abbrev Reach (env : Environment σ τ) : Company ι σ τ → Company ι σ τ → Prop :=
  Relation.ReflTransGen (Step env)

/-! ### Runs that can be computed -/

/-- Whether nothing is asked of a producer that has not given its subscription to anybody. -/
def allows {ι σ τ : Type} (c : Company ι σ τ) : Job τ → Bool
  | .task (.call (.ask i _)) =>
    c.log.any fun e =>
      match e.job with
      | .task (.tell (.attached _ i')) => i' == i
      | _ => false
  | _ => true

omit [DecidableEq ι] in
theorem permits_of_allows {c : Company ι σ τ} {j : Job τ} (h : c.allows j = true) :
    c.Permits j := by
  rintro i a rfl
  obtain ⟨⟨w, n, j⟩, he, hgives⟩ := List.any_eq_true.mp h
  dsimp only at hgives
  split at hgives
  · rename_i r i'
    obtain rfl := eq_of_beq hgives
    exact ⟨r, _, he, rfl⟩
  · cases hgives

/-- A choice of what happens next. -/
inductive Move (ι τ : Type) where
  /-- A thread goes on, the trial's own if none is named. -/
  | go (w : Option ι)
  /-- An idle thread begins with some calls. -/
  | begin (k : ι) (calls : List (Call τ))

/-- Make a move, if it can be made. -/
def move (env : Environment σ τ) (c : Company ι σ τ) : Move ι τ → Company ι σ τ
  | .go none =>
    match c.trial.jobs, c.trial.turn env with
    | j :: rest, .next t =>
      if c.allows j then { c with trial := t, log := c.log ++ [⟨none, rest.length, j⟩] } else c
    | _, _ => c
  | .go (some k) =>
    match c.stack k with
    | [] => c
    | .call (.raise _) :: _ => c
    | t :: rest =>
      if c.allows (.task t) then
        { trial := { c.trial with exchange := (c.exchange.perform env t).1 }
          stack := update c.stack k ((c.exchange.perform env t).2 ++ rest)
          log := c.log ++ [⟨some k, rest.length, .task t⟩] }
      else c
  | .begin k calls =>
    match c.stack k with
    | [] => { c with stack := update c.stack k (calls.map .call) }
    | _ => c

theorem reach_move (env : Environment σ τ) (c : Company ι σ τ) (m : Move ι τ) :
    Reach env c (c.move env m) := by
  unfold move
  split
  · split
    · rename_i j rest t hj h
      split
      · rename_i hallows
        exact .single (.turn hj h (permits_of_allows hallows))
      · exact .refl
    · exact .refl
  · split
    · exact .refl
    · exact .refl
    · rename_i t rest hraise hk
      split
      · rename_i hallows
        exact .single (.work hk hraise (permits_of_allows hallows))
      · exact .refl
  · split
    · rename_i hk
      exact .single (.start hk _)
    · exact .refl

/-- Make moves one after another. -/
def play (env : Environment σ τ) (moves : List (Move ι τ)) (c : Company ι σ τ) : Company ι σ τ :=
  moves.foldl (fun c m => c.move env m) c

theorem reach_play (env : Environment σ τ) (moves : List (Move ι τ)) (c : Company ι σ τ) :
    Reach env c (c.play env moves) := by
  induction moves generalizing c with
  | nil => exact .refl
  | cons m moves ih => exact (reach_move env c m).trans (ih (c.move env m))

end Company

/-! ## What a step comes to -/

namespace Company

variable {ι σ τ : Type} {env : Environment σ τ}

/-- The thread `w` has done its first job `j`, which has left the jobs `new`. -/
structure Works [DecidableEq ι] (env : Environment σ τ) (w : Option ι) (j : Job τ)
    (rest new : List (Job τ)) (c d : Company ι σ τ) : Prop where
  first : c.jobs w = j :: rest
  jobs : d.jobs = update c.jobs w (new ++ rest)
  log : d.log = c.log ++ [⟨w, rest.length, j⟩]
  permits : c.Permits j
  does : Does env j c.exchange new d.exchange

/-- What a step comes to for the threads: `w` is the thread that is concerned. -/
inductive Turns [DecidableEq ι] (env : Environment σ τ) (c d : Company ι σ τ) : Prop where
  /-- A job was done. -/
  | work {w : Option ι} {j : Job τ} {rest new : List (Job τ)} (h : Works env w j rest new c d)
  /-- Calls were made, but not in the middle of a task. -/
  | call (w : Option ι) (calls : List (Call τ)) (hw : ∀ t rest, c.jobs w ≠ .task t :: rest)
      (hjobs : d.jobs = update c.jobs w (calls.map (fun call => .task (.call call)) ++ c.jobs w))
      (hlog : d.log = c.log) (hstanding : ∀ i, d.exchange.standing? i = c.exchange.standing? i)
  /-- A thread has dropped what it had to do, but not in the middle of a task of the near side. -/
  | drop (w : Option ι) (hw : ∀ t rest, c.jobs w = .task t :: rest → ∃ p, t = .call (.raise p))
      (hjobs : d.jobs = update c.jobs w []) (hlog : d.log = c.log)
      (hstanding : ∀ i, d.exchange.standing? i = c.exchange.standing? i)
  | outside (hjobs : d.jobs = c.jobs) (hlog : d.log = c.log)
      (hstanding : ∀ i, d.exchange.standing? i = c.exchange.standing? i)

variable [DecidableEq ι] {c d : Company ι σ τ}

/-- What the threads have to do when the trial has changed. -/
theorem jobs_of_trial {t : Trial σ τ} {log : List (Entry ι τ)} {l : List (Job τ)} (h : t.jobs = l) :
    jobs { c with trial := t, log := log } = update c.jobs none l := by
  funext w
  cases w with
  | none =>
    rw [Function.update_self]
    exact h
  | some k =>
    rw [Function.update_of_ne (by simp)]
    rfl

/-- What the threads have to do when another thread goes on with some tasks. -/
theorem jobs_of_stack {t : Trial σ τ} {log : List (Entry ι τ)} {k : ι} {ts : List (Task τ)}
    (h : t.jobs = c.trial.jobs) :
    jobs { trial := t, stack := update c.stack k ts, log := log } =
      update c.jobs (some k) (ts.map .task) := by
  funext w
  cases w with
  | none =>
    rw [Function.update_of_ne (by simp)]
    exact h
  | some k' =>
    by_cases hk : k' = k
    · subst hk
      rw [Function.update_self]
      show (update c.stack k' ts k').map Job.task = _
      rw [Function.update_self]
    · rw [Function.update_of_ne (by simpa using hk)]
      show (update c.stack k ts k').map Job.task = _
      rw [Function.update_of_ne hk]
      rfl

/-- The trial stops. -/
theorem turns_of_stopped? {t : Trial σ τ} (h : (c.trial.turn env).stopped? = some t) :
    Turns env c { c with trial := t } := by
  obtain ⟨hstops, htask⟩ := Trial.stops_of_turn h
  exact .drop none htask (jobs_of_trial hstops.jobs) rfl hstops.standing

/-- **What a step comes to.** -/
theorem Step.turns (h : Step env c d) : Turns env c d := by
  cases h with
  | @turn j rest t hj h hj' =>
    rw [Trial.turn, hj] at h
    obtain ⟨new, hleads⟩ := Trial.exists_leads_of_perform h
    have hworks : Works env none j rest new c { c with trial := t, log := _ } :=
      ⟨hj, jobs_of_trial hleads.jobs, rfl, hj', hleads.does⟩
    exact .work hworks
  | @window i baseline ms rest hj =>
    have hleads := Trial.leads_closeWindow env hj
    have hpermits : c.Permits (.window i baseline ms) := by simp [Permits]
    have hworks : Works env none (.window i baseline ms) rest [] c
        { c with trial := c.trial.closeWindow, log := _ } :=
      ⟨hj, jobs_of_trial hleads.jobs, rfl, hpermits, hleads.does⟩
    exact .work hworks
  | interrupt h far calls =>
    exact .call none calls (Trial.not_task_of_blocked h) (jobs_of_trial rfl) rfl fun _ => rfl
  | @fault f t h =>
    refine turns_of_stopped? ?_
    rw [h]
    rfl
  | @panic p t h =>
    refine turns_of_stopped? ?_
    rw [h]
    rfl
  | @work k t rest hk ht ht' =>
    have hfirst : c.jobs (some k) = .task t :: rest.map .task := by
      rw [jobs, hk]
      rfl
    refine .work ⟨hfirst, ?_, ?_, ht', .task ht⟩
    · rw [← List.map_append]
      exact jobs_of_stack rfl
    · rw [List.length_map]
  | @collapse k p rest hk =>
    refine .drop (some k) (fun t rest' hjobs => ⟨p, ?_⟩) (jobs_of_stack rfl) rfl fun _ => rfl
    rw [jobs, hk] at hjobs
    cases hjobs
    rfl
  | @start k hk calls =>
    have hnil : c.jobs (some k) = [] := by
      rw [jobs, hk]
      rfl
    refine .call (some k) calls (fun t rest => ?_) ?_ rfl fun _ => rfl
    · rw [hnil]
      exact (List.cons_ne_nil _ _).symm
    · have hcalls : (calls.map (.call : Call τ → Task τ)).map Job.task =
          calls.map fun call => .task (.call call) := List.map_map ..
      rw [hnil, List.append_nil, ← hcalls]
      exact jobs_of_stack rfl
  | outside far => exact .outside rfl rfl fun _ => rfl

/-- **A trial is orderly** whatever the others do. -/
theorem Step.isOrderly (h : Step env c d) (hc : c.trial.IsOrderly) : d.trial.IsOrderly := by
  have hstopped {t : Trial σ τ} (ht : (c.trial.turn env).stopped? = some t) : t.IsOrderly := by
    obtain ⟨hstops, -⟩ := Trial.stops_of_turn ht
    exact ⟨by simp [hstops.jobs], hc.ids.mono hstops.ids (.of_eq hstops.standing)⟩
  cases h with
  | turn hj h hj' =>
    rw [Trial.turn, hj] at h
    obtain ⟨new, hleads⟩ := Trial.exists_leads_of_perform h
    exact hc.leads hj hleads
  | window hj => exact hc.leads hj (Trial.leads_closeWindow env hj)
  | interrupt h far calls =>
    refine ⟨fun j hj => ?_, hc.ids⟩
    rcases List.mem_append.mp hj with hj | hj
    · obtain ⟨call, -, rfl⟩ := List.mem_map.mp hj
      trivial
    · exact hc.jobs j hj
  | fault h => exact hstopped (by rw [h]; rfl)
  | panic h => exact hstopped (by rw [h]; rfl)
  | @work k t rest hk ht ht' =>
    have hfollows := Exchange.Follows.of_perform env t c.exchange
    exact ⟨fun j hj => (hc.jobs j hj).mono hfollows, hc.ids.mono rfl hfollows⟩
  | collapse hk => exact hc
  | start hk calls => exact hc
  | outside far => exact ⟨fun j hj => (hc.jobs j hj).mono (.of_eq fun _ => rfl), hc.ids⟩

omit [DecidableEq ι] in
theorem isOrderly_start (name : String) (far : σ) (commands : List Command) :
    (start name far commands : Company ι σ τ).trial.IsOrderly := by
  refine ⟨fun j hj => ?_, nofun⟩
  obtain ⟨command, -, rfl⟩ := List.mem_map.mp hj
  trivial

end Company
end StreamConformance
