import Mathlib.Logic.Function.Basic
import Mathlib.Logic.Relation
import StreamConformance.Proofs.Sections

/-!
# Threads at an exchange

A crew is an exchange with any number of threads that work on it.  What a thread has still to do
is a stack of tasks, the innermost call first, and every task is one section under one lock; so
an interleaving of the threads is a sequence of steps, each of which takes the first task of some
thread.  Nothing says which thread is next.

Besides, an idle thread may begin something, and a script may emit a signal.  What threads may
begin with, and who may emit, are the `Rules` of a crew: they differ with what is on the far side
and with who is on the near side.  A thread that panics drops all that it had to do.

The tasks performed are kept in order in `done`.  They are a history: no step looks at them.

* `Reach.invariant`: what every step keeps is kept along a run.
* `remote?_step`, `isPrefix_done`: a producer keeps its peer, and the history only grows.
* `due_step`: a task that is to be performed will have been performed once all is quiet.
* `signals`, `items`: what a receiver of the far side was told, in order.
* `Recorded`: a run, and what the script of an interaction has sent in it.
-/

namespace StreamConformance

open Function (update)

/-- The item that a signal carries. -/
def Signal.item? {α : Type} : Signal α → Option α
  | .next item => some item
  | _ => none

/-- An exchange, and the threads `ι` that work on it. -/
structure Crew (ι σ τ : Type) where
  exchange : Exchange σ
  /-- What a thread has still to do, the innermost call first. -/
  stack : ι → List (Task τ) := fun _ => []
  /-- The tasks performed so far, in order. -/
  done : List (Task τ) := []

namespace Crew

variable {ι σ τ : Type}

/-- What threads may do of their own accord. -/
structure Rules (ι σ τ : Type) where
  /-- The idle thread `k` may change the exchange from `e` to `e'` and go on with some tasks. -/
  starts : ι → Exchange σ → Exchange σ → List (Task τ) → Prop
  /-- The interactions that there are stay as they are. -/
  keeps : ∀ {k e e' ts}, starts k e e' ts →
    ∀ {i : Nat} {x : Interaction}, e.interactions[i]? = some x → e'.interactions[i]? = some x
  outer : ∀ {k e e' ts}, starts k e e' ts → ∀ t ∈ ts, t.isOuter
  /-- The thread `k` may send a signal as the script of the interaction `i`. -/
  emits : ι → Nat → Signal Payload → Prop

variable [DecidableEq ι]

/-- Thread `k` goes on with the tasks `ts`, and the exchange is `e`. -/
def turn (k : ι) (ts : List (Task τ)) (e : Exchange σ) (c : Crew ι σ τ) : Crew ι σ τ :=
  { c with exchange := e, stack := update c.stack k ts }

/-- Thread `k` performs its task `t`, with `rest` behind it. -/
def work (env : Environment σ τ) (k : ι) (t : Task τ) (rest : List (Task τ))
    (c : Crew ι σ τ) : Crew ι σ τ :=
  { c.turn k ((c.exchange.perform env t).2 ++ rest) (c.exchange.perform env t).1 with
    done := c.done ++ [t] }

/-- A step of one of the threads. -/
inductive Step (env : Environment σ τ) (rules : Rules ι σ τ) :
    Crew ι σ τ → Crew ι σ τ → Prop where
  | work {c : Crew ι σ τ} {k : ι} {t : Task τ} {rest : List (Task τ)}
      (hk : c.stack k = t :: rest) (ht : ∀ p, t ≠ .call (.raise p)) :
      Step env rules c (c.work env k t rest)
  | panic {c : Crew ι σ τ} {k : ι} {p : Panic} {rest : List (Task τ)}
      (hk : c.stack k = .call (.raise p) :: rest) : Step env rules c (c.turn k [] c.exchange)
  | start {c : Crew ι σ τ} {k : ι} {e : Exchange σ} {ts : List (Task τ)}
      (hk : c.stack k = []) (h : rules.starts k c.exchange e ts) :
      Step env rules c (c.turn k ts e)
  | emit {c : Crew ι σ τ} {k : ι} {i : Nat} {p : ScriptedProducer} {emitter : Emitter}
      {s : Signal Payload} (hk : c.stack k = []) (h : rules.emits k i s)
      (hp : c.exchange.scripted? i = some p) (hs : p.emitter.emit s = .sent emitter) :
      Step env rules c
        (c.turn k (c.exchange.send i p emitter s).2 (c.exchange.send (τ := τ) i p emitter s).1)

/-- What it comes to if a thread goes on with some tasks. -/
theorem turn_eq {c d : Crew ι σ τ} {k : ι} {ts : List (Task τ)} {e : Exchange σ}
    (he : e = d.exchange) (hs : d.stack = update c.stack k ts) (hd : d.done = c.done) :
    c.turn k ts e = d := by
  rcases d with ⟨e', stack, done⟩
  subst he hs hd
  rfl

/-- What it comes to if a thread performs a task. -/
theorem work_eq {env : Environment σ τ} {c d : Crew ι σ τ} {k : ι} {t : Task τ}
    {rest new : List (Task τ)} (hp : c.exchange.perform env t = (d.exchange, new))
    (hs : d.stack = update c.stack k (new ++ rest)) (hd : d.done = c.done ++ [t]) :
    c.work env k t rest = d := by
  rcases d with ⟨e, stack, done⟩
  subst hs hd
  rw [work, hp]
  rfl

/-- Some steps, one after another. -/
abbrev Reach (env : Environment σ τ) (rules : Rules ι σ τ) :
    Crew ι σ τ → Crew ι σ τ → Prop :=
  Relation.ReflTransGen (Step env rules)

/-- Thread `k` does what it has to do next, if there is anything. -/
def next (env : Environment σ τ) (k : ι) (c : Crew ι σ τ) : Crew ι σ τ :=
  match c.stack k with
  | [] => c
  | .call (.raise _) :: _ => c.turn k [] c.exchange
  | t :: rest => c.work env k t rest

theorem reach_next (env : Environment σ τ) (rules : Rules ι σ τ) (k : ι) (c : Crew ι σ τ) :
    Reach env rules c (c.next env k) := by
  unfold next
  split
  · exact .refl
  · exact .single (.panic ‹_›)
  · rename_i t rest hne hk
    exact .single (.work hk hne)

/-- Some thread has a task still to do. -/
def Pending (c : Crew ι σ τ) (t : Task τ) : Prop :=
  ∃ k, t ∈ c.stack k

/-- The threads do what they have to do in the order given. -/
def play (env : Environment σ τ) (schedule : List ι) (c : Crew ι σ τ) : Crew ι σ τ :=
  schedule.foldl (fun c k => c.next env k) c

theorem reach_play (env : Environment σ τ) (rules : Rules ι σ τ) (schedule : List ι)
    (c : Crew ι σ τ) : Reach env rules c (c.play env schedule) := by
  induction schedule generalizing c with
  | nil => exact .refl
  | cons k schedule ih => exact (reach_next env rules k c).trans (ih (c.next env k))

/-- A task that was performed, or that some thread is to perform. -/
def Due (c : Crew ι σ τ) (t : Task τ) : Prop :=
  t ∈ c.done ∨ c.Pending t

/-- No thread has anything to do. -/
def Quiet (c : Crew ι σ τ) : Prop :=
  ∀ k, c.stack k = []

/-- The signal that a receiver is told by a task. -/
def signal? (r : Handle) : Task τ → Option (Signal Payload)
  | .tell (.heard r' s) => if r' = r then some s else none
  | _ => none

/-- The signals that a receiver of the far side was told, in order. -/
def signals (r : Handle) (c : Crew ι σ τ) : List (Signal Payload) :=
  c.done.filterMap (signal? r)

/-- The items that a receiver of the far side was told, in order. -/
def items (r : Handle) (c : Crew ι σ τ) : List Payload :=
  (c.signals r).filterMap Signal.item?

section Fields

variable (env : Environment σ τ) (k : ι) (t : Task τ) (rest ts : List (Task τ))
  (e : Exchange σ) (c : Crew ι σ τ)

@[simp] theorem exchange_turn : (c.turn k ts e).exchange = e := rfl
@[simp] theorem done_turn : (c.turn k ts e).done = c.done := rfl
@[simp] theorem stack_turn_self : (c.turn k ts e).stack k = ts := Function.update_self ..
@[simp] theorem exchange_work :
    (c.work env k t rest).exchange = (c.exchange.perform env t).1 := rfl
@[simp] theorem done_work : (c.work env k t rest).done = c.done ++ [t] := rfl
@[simp] theorem stack_work_self :
    (c.work env k t rest).stack k = (c.exchange.perform env t).2 ++ rest :=
  Function.update_self ..

variable {k}

theorem stack_turn_of_ne {k' : ι} (h : k' ≠ k) : (c.turn k ts e).stack k' = c.stack k' :=
  Function.update_of_ne h ..

theorem stack_work_of_ne {k' : ι} (h : k' ≠ k) :
    (c.work env k t rest).stack k' = c.stack k' :=
  Function.update_of_ne h ..

end Fields

/-- A receiver is told what the task says that is performed. -/
theorem signals_work (env : Environment σ τ) (k : ι) (t : Task τ) (rest : List (Task τ))
    (c : Crew ι σ τ) (r : Handle) :
    (c.work env k t rest).signals r = c.signals r ++ (signal? r t).toList := by
  rw [signals, done_work, List.filterMap_append, signals]
  cases h : signal? r t <;> simp [h]

theorem items_work (env : Environment σ τ) (k : ι) (t : Task τ) (rest : List (Task τ))
    (c : Crew ι σ τ) (r : Handle) :
    (c.work env k t rest).items r = c.items r ++ ((signal? r t).bind Signal.item?).toList := by
  rw [items, signals_work, List.filterMap_append, items]
  rcases signal? r t with _ | s
  · rfl
  · cases s <;> rfl

theorem signal?_heard (r : Handle) (s : Signal Payload) :
    signal? (τ := τ) r (.tell (.heard r s)) = some s :=
  if_pos rfl

theorem signal?_eq_none {r : Handle} {t : Task τ} (h : ∀ s, t ≠ .tell (.heard r s)) :
    signal? r t = none := by
  unfold signal?
  split
  · rename_i r' s
    exact if_neg fun hr => h s (by rw [hr])
  · rfl

/-- The items stay as they are, unless the receiver is told something. -/
theorem items_work_of_ne (env : Environment σ τ) (k : ι) {t : Task τ} (rest : List (Task τ))
    (c : Crew ι σ τ) {r : Handle} (ht : ∀ s, t ≠ .tell (.heard r s)) :
    (c.work env k t rest).items r = c.items r := by
  rw [items_work, signal?_eq_none ht]
  exact List.append_nil _

/-- What every step keeps is kept along a run. -/
theorem Reach.invariant {env : Environment σ τ} {rules : Rules ι σ τ} {P : Crew ι σ τ → Prop}
    (hP : ∀ c d, P c → Step env rules c d → P d) {c d : Crew ι σ τ} (h : Reach env rules c d)
    (hc : P c) : P d := by
  induction h with
  | refl => exact hc
  | tail _ hstep ih => exact hP _ _ ih hstep

/-! ## Facts about every step -/

section Step

variable {env : Environment σ τ} {rules : Rules ι σ τ} {c d : Crew ι σ τ}

/-- A producer keeps its peer. -/
theorem remote?_step (h : Step env rules c d) {i : Nat} {r : Handle}
    (hr : c.exchange.remote? i = some r) : d.exchange.remote? i = some r := by
  cases h with
  | work hk ht => exact Exchange.remote?_perform env _ hr
  | panic hk => exact hr
  | start hk h =>
    rw [Exchange.remote?, Exchange.producer?, Option.bind_eq_some_iff] at hr
    obtain ⟨p, hp, hr⟩ := hr
    obtain ⟨x, hx, rfl⟩ := Option.map_eq_some_iff.mp hp
    exact (Exchange.remote?_eq_of_getElem? (rules.keeps h hx)).trans hr
  | @emit _ j p emitter s hk h hp hs => exact (Exchange.remote?_send j i p emitter s _).trans hr

/-- A task is not forgotten as long as nothing panics. -/
theorem due_step (h : Step env rules c d) (hcalm : ∀ p, ¬ c.Pending (.call (.raise p)))
    {t : Task τ} (ht : c.Due t) : d.Due t := by
  have hstays {k : ι} {ts : List (Task τ)} (hk : ∀ t ∈ c.stack k, t ∈ d.done ∨ t ∈ ts)
      (hd : d.stack = update c.stack k ts) (hdone : c.done <+: d.done) : d.Due t := by
    rcases ht with ht | ⟨k', ht⟩
    · exact Or.inl (hdone.subset ht)
    · by_cases hkk : k' = k
      · subst hkk
        rcases hk t ht with hmem | hmem
        · exact Or.inl hmem
        · exact Or.inr ⟨k', by rwa [hd, Function.update_self]⟩
      · exact Or.inr ⟨k', by rwa [hd, Function.update_of_ne hkk]⟩
  cases h with
  | @work k t' rest hk hne =>
    refine hstays (fun s hs => ?_) rfl (List.prefix_append ..)
    rw [hk] at hs
    rcases List.mem_cons.mp hs with rfl | hs
    · exact Or.inl (List.mem_append_right _ (List.mem_singleton_self _))
    · exact Or.inr (List.mem_append_right _ hs)
  | @panic k p rest hk =>
    have hmem : Task.call (.raise p) ∈ c.stack k := by
      rw [hk]
      exact List.mem_cons_self
    exact absurd ⟨k, hmem⟩ (hcalm p)
  | start hk h =>
    exact hstays (fun s hs => by rw [hk] at hs; cases hs) rfl (List.prefix_refl _)
  | emit hk h hp hs =>
    exact hstays (fun s hs => by rw [hk] at hs; cases hs) rfl (List.prefix_refl _)

/-- The history only grows. -/
theorem isPrefix_done (h : Step env rules c d) : c.done <+: d.done := by
  cases h with
  | work hk ht => exact List.prefix_append ..
  | panic hk => exact List.prefix_refl _
  | start hk h => exact List.prefix_refl _
  | emit hk h hp hs => exact List.prefix_refl _

end Step

/-- What a thread is left with when it performs a task is due. -/
theorem due_work {env : Environment σ τ} {k : ι} {t t' : Task τ} {rest : List (Task τ)}
    {c : Crew ι σ τ} (h : t' ∈ (c.exchange.perform env t).2) : (c.work env k t rest).Due t' :=
  Or.inr ⟨k, by rw [stack_work_self]; exact List.mem_append_left _ h⟩

omit [DecidableEq ι] in
theorem Quiet.mem_done {c : Crew ι σ τ} (hc : c.Quiet) {t : Task τ} (ht : c.Due t) :
    t ∈ c.done := by
  rcases ht with ht | ⟨k, hk⟩
  · exact ht
  · rw [hc k] at hk
    cases hk

omit [DecidableEq ι] in
theorem Quiet.not_pending {c : Crew ι σ τ} (hc : c.Quiet) {t : Task τ} : ¬ c.Pending t := by
  rintro ⟨k, hk⟩
  rw [hc k] at hk
  cases hk

/-! ## Runs with a record -/

/-- What is recorded about the script of an interaction, and about panics. -/
inductive Mark where
  | sent (s : Signal Payload)
  | panicked
  deriving DecidableEq

/-- The item that a script has sent by a mark. -/
def Mark.item? : Mark → Option Payload
  | .sent s => s.item?
  | .panicked => none

/-- A step, and what it adds to the record about the interaction `i`. -/
inductive Leaves (env : Environment σ τ) (rules : Rules ι σ τ) (i : Nat) :
    Crew ι σ τ → List Mark → Crew ι σ τ → Prop where
  | work {c : Crew ι σ τ} {k : ι} {t : Task τ} {rest : List (Task τ)}
      (hk : c.stack k = t :: rest) (ht : ∀ p, t ≠ .call (.raise p)) :
      Leaves env rules i c [] (c.work env k t rest)
  | panic {c : Crew ι σ τ} {k : ι} {p : Panic} {rest : List (Task τ)}
      (hk : c.stack k = .call (.raise p) :: rest) :
      Leaves env rules i c [.panicked] (c.turn k [] c.exchange)
  | start {c : Crew ι σ τ} {k : ι} {e : Exchange σ} {ts : List (Task τ)}
      (hk : c.stack k = []) (h : rules.starts k c.exchange e ts) :
      Leaves env rules i c [] (c.turn k ts e)
  | emit {c : Crew ι σ τ} {k : ι} {j : Nat} {p : ScriptedProducer} {emitter : Emitter}
      {s : Signal Payload} (hk : c.stack k = []) (h : rules.emits k j s)
      (hp : c.exchange.scripted? j = some p) (hs : p.emitter.emit s = .sent emitter) :
      Leaves env rules i c (if j = i then [.sent s] else [])
        (c.turn k (c.exchange.send j p emitter s).2 (c.exchange.send (τ := τ) j p emitter s).1)

section Leaves

variable {env : Environment σ τ} {rules : Rules ι σ τ} {i : Nat} {c d : Crew ι σ τ}

theorem Leaves.step {m : List Mark} (h : Leaves env rules i c m d) : Step env rules c d := by
  cases h with
  | work hk ht => exact .work hk ht
  | panic hk => exact .panic hk
  | start hk h => exact .start hk h
  | emit hk h hp hs => exact .emit hk h hp hs

theorem Leaves.of_perform {k : ι} {t : Task τ} {rest new : List (Task τ)}
    (hp : c.exchange.perform env t = (d.exchange, new))
    (hs : d.stack = update c.stack k (new ++ rest)) (hd : d.done = c.done ++ [t])
    (hk : c.stack k = t :: rest) (ht : ∀ p, t ≠ .call (.raise p)) :
    Leaves env rules i c [] d := by
  rw [← work_eq hp hs hd]
  exact .work hk ht

theorem Step.exists_leaves (h : Step env rules c d) : ∃ m, Leaves env rules i c m d := by
  cases h with
  | work hk ht => exact ⟨_, .work hk ht⟩
  | panic hk => exact ⟨_, .panic hk⟩
  | start hk h => exact ⟨_, .start hk h⟩
  | emit hk h hp hs => exact ⟨_, .emit hk h hp hs⟩

/-- Some steps, one after another, and the record about the interaction `i`. -/
inductive Recorded (env : Environment σ τ) (rules : Rules ι σ τ) (i : Nat) (c : Crew ι σ τ) :
    List Mark → Crew ι σ τ → Prop where
  | refl : Recorded env rules i c [] c
  | tail {l m : List Mark} {d e : Crew ι σ τ} (h : Recorded env rules i c l d)
      (hstep : Leaves env rules i d m e) : Recorded env rules i c (l ++ m) e

/-- A record is kept of every run. -/
theorem reach_iff_recorded :
    Reach env rules c d ↔ ∃ l, Recorded env rules i c l d := by
  constructor
  · intro h
    induction h with
    | refl => exact ⟨[], .refl⟩
    | tail _ hstep ih =>
      obtain ⟨l, hl⟩ := ih
      obtain ⟨m, hm⟩ := hstep.exists_leaves (i := i)
      exact ⟨l ++ m, hl.tail hm⟩
  · rintro ⟨l, h⟩
    induction h with
    | refl => exact .refl
    | tail _ hstep ih => exact ih.tail hstep.step

end Leaves

end Crew
end StreamConformance
