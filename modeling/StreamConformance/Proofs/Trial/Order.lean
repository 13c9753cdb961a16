import StreamConformance.Proofs.Trial.Phases
import StreamConformance.Proofs.Standing

/-!
# What a job comes to

A job of a thread is a task or it belongs to the trial.  For the producers it makes little
difference which: a job of the trial may open an interaction, and may have a script send a signal,
but it leaves every producer with its standing (`Trial.Does`).

The trial itself keeps an order.  A block is begun once the gate of its channel was fired, and ids
do not stand for channels; so whatever the trial has to do for the script of a channel, or for its
consumer, comes after that (`Trial.IsOrderly`).

* `Trial.exists_leads_of_perform`: what a job of the trial comes to, and that the order is kept.
* `Trial.stops_of_turn`: a trial gives up what it had to do only between its tasks, or by a panic
  of the far side.
-/

namespace StreamConformance

open Script (Command Instruction)

variable {σ τ : Type}

/-- The interaction whose producer gives its subscription to a receiver by a job, or is to be told
that the receiver has it. -/
def Job.greets? : Job τ → Option Nat
  | .task (.tell (.attached _ i)) => some i
  | .task (.openGate i _) => some i
  | _ => none

/-- A job by which no receiver is told anything. -/
def Job.IsMute (j : Job τ) : Prop :=
  j.greets? = none ∧ ∀ r s, j ≠ .task (.tell (.heard r s))

namespace Trial

variable {env : Environment σ τ} {i : Nat} {r : Handle}

/-- What a job comes to for the producers; the jobs `new` are left in its place. -/
inductive Does (env : Environment σ τ) : Job τ → Exchange σ → List (Job τ) → Exchange σ → Prop where
  | task {t : Task τ} {e : Exchange σ} (ht : ∀ p, t ≠ .call (.raise p)) :
      Does env (.task t) e ((e.perform env t).2.map .task) (e.perform env t).1
  /-- The standings are kept, and what is opened is fresh. -/
  | other {j : Job τ} {e e' : Exchange σ} {new : List (Job τ)} (hj : ∀ t, j ≠ .task t)
      (hnew : ∀ j' ∈ new, j'.greets? = none)
      (hheard : ∀ r s, Job.task (.tell (.heard r s)) ∈ new →
        ∃ i signals, j = .play i (s :: signals) ∧ e.remote? i = some r)
      (hkeep : ∀ i s, e.standing? i = some s → e'.standing? i = some s)
      (hfresh : ∀ i s, e.standing? i = none → e'.standing? i = some s → s.IsFresh) :
      Does env j e new e'

theorem Does.of_task {t : Task τ} {e e' : Exchange σ} {new : List (Job τ)}
    (h : Does env (.task t) e new e') :
    new = (e.perform env t).2.map .task ∧ e' = (e.perform env t).1 := by
  cases h with
  | task ht => exact ⟨rfl, rfl⟩
  | other hj => exact absurd rfl (hj t)

/-- A signal to a receiver comes of a task, or of the script of the producer that it has. -/
theorem Does.heard {j : Job τ} {e e' : Exchange σ} {new : List (Job τ)} (h : Does env j e new e')
    {r : Handle} {s : Signal Payload} (hr : .task (.tell (.heard r s)) ∈ new) :
    (∃ t, j = .task t ∧ .tell (.heard r s) ∈ (e.perform env t).2) ∨
      ∃ i signals, j = .play i (s :: signals) ∧ e.remote? i = some r := by
  cases h with
  | task ht =>
    obtain ⟨t', ht', heq⟩ := List.mem_map.mp hr
    cases heq
    exact Or.inl ⟨_, rfl, ht'⟩
  | other hj hnew hheard => exact Or.inr (hheard r s hr)

/-- What was not there is not there after a task, and fresh after any other job. -/
theorem Does.isFresh {j : Job τ} {e e' : Exchange σ} {new : List (Job τ)} (h : Does env j e new e')
    {i : Nat} (hnone : e.standing? i = none) {s : Standing} (hs : e'.standing? i = some s) :
    s.IsFresh := by
  cases h with
  | task ht =>
    rw [Exchange.standing?_perform_eq_none env _ hnone] at hs
    cases hs
  | other hj hnew hheard hkeep hfresh => exact hfresh i s hnone hs

/-- A job that leaves the standings as they are, and no task of the producers. -/
theorem Does.of_eq {j : Job τ} {e e' : Exchange σ} {new : List (Job τ)} (hj : ∀ t, j ≠ .task t)
    (hnew : ∀ j' ∈ new, j'.IsMute)
    (he : ∀ i, e'.standing? i = e.standing? i) : Does env j e new e' := by
  refine .other hj (fun j' hj' => (hnew j' hj').1) ?_ ?_ ?_
  · intro r s hr
    exact absurd rfl ((hnew _ hr).2 r s)
  · intro i s hs
    rw [he, hs]
  · intro i s hnone hs
    rw [he, hnone] at hs
    cases hs

/-- An instruction leaves nothing for the producers of the near side to tell anybody. -/
theorem of_mem_consumerJobs {t : Trial σ τ} {i : Nat} {c : Instruction} {j : Job τ}
    (hj : j ∈ t.consumerJobs i c) :
    (∃ a, j = .task (.own i a)) ∨ (∃ w, j = .wait i w) ∨ (∃ k, j = .check i k) ∨
      ∃ n ms, j = .window i n ms := by
  unfold Trial.consumerJobs at hj
  split at hj <;> simp only [List.mem_cons, List.not_mem_nil, or_false] at hj
  · exact Or.inr (Or.inl ⟨_, hj⟩)
  · exact Or.inr (Or.inl ⟨_, hj⟩)
  · exact Or.inr (Or.inr (Or.inr ⟨_, _, hj⟩))
  · exact Or.inr (Or.inr (Or.inl ⟨_, hj⟩))
  · rcases hj with hj | hj
    · exact Or.inl ⟨_, hj⟩
    · exact Or.inr (Or.inl ⟨_, hj⟩)
  · exact Or.inl ⟨_, hj⟩
  · exact Or.inl ⟨_, hj⟩

/-- What an instruction of a block leaves to be done. -/
theorem of_mem_instructBlock (i : Nat) (flag : Bool) (c : Instruction) (block : List Instruction)
    (t : Trial σ τ) : ∃ new, t.instructBlock i flag c block = t.push new ∧ ∀ j ∈ new,
      (∃ flag, j = .block i flag block) ∨ (∃ signals, j = .play i signals) ∨ j = .reject i ∨
        j ∈ t.consumerJobs i c := by
  cases c with
  | pass => exact ⟨[.block i true block], rfl, by simp⟩
  | fail => exact ⟨[.block i false block], rfl, by simp⟩
  | respond signals => exact ⟨[.play i signals, .block i flag block], rfl, by simp⟩
  | malformed line reason => exact ⟨[.reject i, .block i flag block], rfl, by simp⟩
  | subscribe | echoChannel | await | assert | take | request | cancel | eof | unknown =>
    refine ⟨_, rfl, fun j hj => ?_⟩
    rcases List.mem_append.mp hj with hj | hj
    · exact Or.inr (Or.inr (Or.inr hj))
    · exact Or.inl ⟨flag, List.mem_singleton.mp hj⟩

/-! ### Jobs that greet nobody -/

/-- None of some jobs greets a receiver for the producer of `i`. -/
def Free (i : Nat) (l : List (Job τ)) : Prop :=
  ∀ j ∈ l, j.greets? ≠ some i

theorem free_append {l m : List (Job τ)} (hl : Free i l) (hm : Free i m) : Free i (l ++ m) :=
  fun j hj => (List.mem_append.mp hj).elim (hl j) (hm j)

theorem Free.tail {j : Job τ} {l : List (Job τ)} (h : Free i (j :: l)) : Free i l :=
  fun j' hj' => h j' (List.mem_cons_of_mem j hj')

theorem free_calls (calls : List (Call τ)) :
    Free i (calls.map fun call => (Job.task (.call call) : Job τ)) := by
  intro j hj
  obtain ⟨call, -, rfl⟩ := List.mem_map.mp hj
  nofun

/-- A job leaves nothing that greets somebody for the producer of `i`, unless it is the call by
which a peer subscribes to that. -/
theorem Does.free {j : Job τ} {e e' : Exchange σ} {new : List (Job τ)} (h : Does env j e new e')
    (hj : ∀ r, e.remote? i = none → j ≠ .task (.call (.attach i r))) : Free i new := by
  cases h with
  | @task t e ht =>
    intro j' hj' hgreets
    obtain ⟨t', ht', rfl⟩ := List.mem_map.mp hj'
    have hcases : ∃ r, t' = .tell (.attached r i) ∨ t' = .openGate i r := by
      unfold Job.greets? at hgreets
      split at hgreets
      · rename_i r i' heq
        cases heq
        cases hgreets
        exact ⟨r, Or.inl rfl⟩
      · rename_i i' r heq
        cases heq
        cases hgreets
        exact ⟨r, Or.inr rfl⟩
      · cases hgreets
    obtain ⟨r, hr⟩ := hcases
    obtain ⟨hnone, rfl⟩ := Exchange.exists_attach_of_mem ht' hr
    exact hj r hnone rfl
  | other hj hnew =>
    intro j' hj'
    rw [hnew j' hj']
    nofun

/-- What a job does to the standing of a producer. -/
theorem Does.moves {j : Job τ} {e e' : Exchange σ} {new : List (Job τ)} (h : Does env j e new e')
    {s : Standing} (hs : e.standing? i = some s) :
    ∃ s', e'.standing? i = some s' ∧ (s' = s ∨ ∃ t, j = .task t ∧ Standing.Moves i t s s') := by
  cases h with
  | @task t e ht =>
    obtain ⟨s', hs', hmoves⟩ := Exchange.standing?_perform env t hs
    exact ⟨s', hs', Or.inr ⟨t, rfl, hmoves⟩⟩
  | other hj hnew hheard hkeep => exact ⟨s, hkeep i s hs, Or.inl rfl⟩

/-- A producer that has a peer, before and after a job that greets nobody for it. -/
theorem Does.keeps {j : Job τ} {e e' : Exchange σ} {new : List (Job τ)} (h : Does env j e new e')
    {s : Standing} (hs : e.standing? i = some s) (hr : s.remote = some r)
    (hj : j.greets? ≠ some i) :
    ∃ s', e'.standing? i = some s' ∧ s'.kind = s.kind ∧ s'.remote = some r ∧ s'.gate = s.gate ∧
      ((∀ a, j ≠ .task (.call (.ask i a))) → s.demand = 0 → s'.demand = 0) ∧ Free i new := by
  have hfree : Free i new := h.free fun r' hnone _ => by
    rw [Exchange.remote?_eq_standing?, hs] at hnone
    cases hr.symm.trans hnone
  obtain ⟨s', hs', rfl | ⟨t, rfl, hmoves⟩⟩ := h.moves hs
  · exact ⟨s', hs', rfl, hr, rfl, fun _ h => h, hfree⟩
  · refine ⟨s', hs', hmoves.kind_eq, hmoves.remote_eq hr, hmoves.gate_eq_of_ne ?_,
      fun hask => hmoves.demand_eq fun a ha => hask a (by rw [ha]), hfree⟩
    rintro r' rfl
    exact hj rfl

end Trial

/-! ## Order in a trial -/

/-- What has to be so before a job may be there: whatever belongs to the block of a script comes
after its gate was fired, and ids do not stand for channels with a script. -/
def Job.IsReady (e : Exchange σ) : Job τ → Prop
  | .handshake i _ => ∃ s, e.standing? i = some s ∧ s.kind = .scripted
  | .block i _ _ | .play i _ =>
    ∃ s r, e.standing? i = some s ∧ s.kind = .scripted ∧ s.gate = some r
  | .check i _ | .reject i | .wait i _ | .window i _ _ | .task (.own i _) =>
    ∃ s, e.standing? i = some s ∧ (s.kind = .scripted → ∃ r, s.gate = some r)
  | .register _ i => ∃ s, e.standing? i = some s ∧ s.kind ≠ .scripted
  | _ => True

namespace Exchange

/-- Producers stay what they are, and open gates stay open. -/
def Follows (e e' : Exchange σ) : Prop :=
  ∀ i s, e.standing? i = some s →
    ∃ s', e'.standing? i = some s' ∧ s'.kind = s.kind ∧ ∀ r, s.gate = some r → s'.gate = some r

theorem Follows.of_eq {e e' : Exchange σ} (h : ∀ i, e'.standing? i = e.standing? i) :
    e.Follows e' :=
  fun i s hs => ⟨s, (h i).trans hs, rfl, fun _ hr => hr⟩

theorem Follows.refl (e : Exchange σ) : e.Follows e :=
  .of_eq fun _ => rfl

theorem Follows.of_perform (env : Environment σ τ) (t : Task τ) (e : Exchange σ) :
    e.Follows (e.perform env t).1 := by
  intro i s hs
  obtain ⟨s', hs', hmoves⟩ := standing?_perform env t hs
  exact ⟨s', hs', hmoves.kind_eq, fun r hr => hmoves.gate_eq hr⟩

end Exchange

theorem Job.IsReady.mono {e e' : Exchange σ} (he : e.Follows e') {j : Job τ} (h : j.IsReady e) :
    j.IsReady e' := by
  have hopen {i : Nat}
      (h : ∃ s, e.standing? i = some s ∧ (s.kind = .scripted → ∃ r, s.gate = some r)) :
      ∃ s, e'.standing? i = some s ∧ (s.kind = .scripted → ∃ r, s.gate = some r) := by
    obtain ⟨s, hs, hgate⟩ := h
    obtain ⟨s', hs', hkind, hkeep⟩ := he i s hs
    refine ⟨s', hs', fun hscripted => ?_⟩
    obtain ⟨r, hr⟩ := hgate (hkind ▸ hscripted)
    exact ⟨r, hkeep r hr⟩
  have hfired {i : Nat} (h : ∃ s r, e.standing? i = some s ∧ s.kind = .scripted ∧ s.gate = some r) :
      ∃ s r, e'.standing? i = some s ∧ s.kind = .scripted ∧ s.gate = some r := by
    obtain ⟨s, r, hs, hscripted, hr⟩ := h
    obtain ⟨s', hs', hkind, hkeep⟩ := he i s hs
    exact ⟨s', r, hs', hkind.trans hscripted, hkeep r hr⟩
  cases j with
  | handshake i block =>
    obtain ⟨s, hs, hscripted⟩ := h
    obtain ⟨s', hs', hkind, -⟩ := he i s hs
    exact ⟨s', hs', hkind.trans hscripted⟩
  | register id i =>
    obtain ⟨s, hs, hne⟩ := h
    obtain ⟨s', hs', hkind, -⟩ := he i s hs
    exact ⟨s', hs', fun hscripted => hne (hkind.symm.trans hscripted)⟩
  | block | play => exact hfired h
  | check | reject | wait | window => exact hopen h
  | task t =>
    cases t with
    | own i a => exact hopen h
    | call | tell | settle | passOn | openGate | push | drain | drainNext => trivial
  | command | echoOpened => trivial

namespace Trial

/-- Ids stand for interactions without a script. -/
def Knows (t : Trial σ τ) : Prop :=
  ∀ p ∈ t.ids, ∃ s, t.exchange.standing? p.2 = some s ∧ s.kind ≠ .scripted

/-- Whatever the trial has to do may be there. -/
structure IsOrderly (t : Trial σ τ) : Prop where
  jobs : ∀ j ∈ t.jobs, j.IsReady t.exchange
  ids : t.Knows

/-- The trial has done the job `j` and goes on with `new`. -/
structure Leads (env : Environment σ τ) (j : Job τ) (new : List (Job τ)) (t t' : Trial σ τ) :
    Prop where
  jobs : t'.jobs = new ++ t.jobs
  does : Does env j t.exchange new t'.exchange
  follows : t.exchange.Follows t'.exchange
  ready : j.IsReady t.exchange → t.Knows → ∀ j' ∈ new, j'.IsReady t'.exchange
  ids : j.IsReady t.exchange → t.Knows → t'.Knows

variable {env : Environment σ τ} {j : Job τ} {t t' : Trial σ τ}

theorem Knows.mono (h : t.Knows) (hids : t'.ids = t.ids) (he : t.exchange.Follows t'.exchange) :
    t'.Knows := by
  intro p hp
  rw [hids] at hp
  obtain ⟨s, hs, hne⟩ := h p hp
  obtain ⟨s', hs', hkind, -⟩ := he _ s hs
  exact ⟨s', hs', fun hscripted => hne (hkind.symm.trans hscripted)⟩

/-- A job that concerns neither the exchange nor the ids. -/
theorem leads_of_push (hj : ∀ t, j ≠ .task t) {new : List (Job τ)}
    (hnew : ∀ j' ∈ new, j'.IsMute)
    (hready : j.IsReady t.exchange → t.Knows → ∀ j' ∈ new, j'.IsReady t.exchange)
    {t'' : Trial σ τ} (hexchange : t''.exchange = t.exchange) (hids : t''.ids = t.ids)
    (hjobs : t''.jobs = new ++ t.jobs) : Leads env j new t t'' where
  jobs := hjobs
  does := by
    rw [hexchange]
    exact .of_eq hj hnew fun _ => rfl
  follows := by
    rw [hexchange]
    exact .refl _
  ready := by
    rw [hexchange]
    exact hready
  ids _ h := h.mono hids (by rw [hexchange]; exact .refl _)

theorem producer?_atReceiver (i k : Nat) (f : Receiver → Receiver) :
    (t.atReceiver i f).exchange.producer? k = t.exchange.producer? k := by
  unfold atReceiver
  cases hx : t.exchange.interactions[i]? with
  | none => rfl
  | some x =>
    by_cases hik : i = k
    · subst hik
      simp only [Exchange.producer?, Exchange.getElem?_put_self hx, hx, Option.map_some]
    · simp only [Exchange.producer?, Exchange.getElem?_put_of_ne hik]

/-- An assertion is entered. -/
theorem leads_atReceiver (hj : ∀ t, j ≠ .task t) (i : Nat) (f : Receiver → Receiver) :
    Leads env j [] t (t.atReceiver i f) := by
  have hsame : ∀ k, (t.atReceiver i f).exchange.standing? k = t.exchange.standing? k :=
    fun k => Exchange.standing?_congr (producer?_atReceiver i k f)
  have hfollows : t.exchange.Follows (t.atReceiver i f).exchange := .of_eq hsame
  have hids : (t.atReceiver i f).ids = t.ids := by
    unfold atReceiver
    split <;> rfl
  exact
    { jobs := by
        unfold atReceiver
        split <;> rfl
      does := .of_eq hj (by simp) hsame
      follows := hfollows
      ready := by simp
      ids := fun _ h => h.mono hids hfollows }

/-- What is opened by a command is fresh, and the jobs left may be there. -/
theorem leads_of_connect {x : Interaction} {jobs : Nat → Nat → List (Job τ)}
    (h : t.connect env x jobs = .next t') (hj : ∀ t, j ≠ .task t)
    (hx : x.producer.standing.IsFresh)
    (hnew : ∀ k i, ∀ j' ∈ jobs k i, j'.IsMute)
    (hready : ∀ k i (e : Exchange σ), e.standing? i = some x.producer.standing →
      ∀ j' ∈ jobs k i, j'.IsReady e) : ∃ new, Leads env j new t t' := by
  obtain ⟨far, k, rfl⟩ := exists_of_connect h
  have hkeep : ∀ i s, t.exchange.standing? i = some s →
      (({ t.exchange with far := far } : Exchange σ).enter x).standing? i = some s := by
    intro i s hs
    rw [Exchange.standing?_enter, if_neg (Nat.ne_of_lt (Exchange.lt_size_of_standing? hs))]
    exact hs
  have hfollows : t.exchange.Follows (({ t.exchange with far := far } : Exchange σ).enter x) :=
    fun i s hs => ⟨s, hkeep i s hs, rfl, fun _ hr => hr⟩
  refine ⟨jobs k t.exchange.interactions.size, rfl, ?_, hfollows, fun _ _ => hready _ _ _ ?_,
    fun _ hk => hk.mono rfl hfollows⟩
  · refine .other hj (fun j' hj' => (hnew _ _ j' hj').1) ?_ hkeep ?_
    · intro r s hr
      exact absurd rfl ((hnew _ _ _ hr).2 r s)
    · intro i s hnone hs
      rw [Exchange.standing?_enter] at hs
      split at hs
      · exact Option.some.inj hs ▸ hx
      · exact absurd (hnone.symm.trans hs) (by simp)
  · rw [Exchange.standing?_enter]
    exact if_pos rfl

/-- An instruction for the consumer that an id stands for. -/
theorem exists_leads_of_named {c : Instruction} {command : Command}
    (h : (match (namedConsumer? c).bind t.lookup? with
      | some i => Turn.next (t.push (t.consumerJobs i c))
      | none => .next t) = .next t') : ∃ new, Leads env (.command command) new t t' := by
  split at h
  · rename_i i hi
    cases h
    obtain ⟨id, -, hlookup⟩ := Option.bind_eq_some_iff.mp hi
    obtain ⟨p, hp, rfl⟩ := Option.map_eq_some_iff.mp hlookup
    refine ⟨_, leads_of_push (by simp) (fun j hj => ?_) (fun _ hknows j hj => ?_) rfl rfl rfl⟩
    · obtain ⟨a, rfl⟩ | ⟨w, rfl⟩ | ⟨k, rfl⟩ | ⟨n, ms, rfl⟩ := of_mem_consumerJobs hj <;>
        simp [Job.IsMute, Job.greets?]
    · obtain ⟨s, hs, hne⟩ := hknows p (List.mem_of_find?_eq_some hp)
      obtain ⟨a, rfl⟩ | ⟨w, rfl⟩ | ⟨k, rfl⟩ | ⟨n, ms, rfl⟩ := of_mem_consumerJobs hj <;>
        exact ⟨s, hs, fun hscripted => absurd hscripted hne⟩
  · cases h
    exact ⟨[], leads_of_push (by simp) (by simp) (by simp) rfl rfl rfl⟩

/-- A command begins. -/
theorem exists_leads_of_begin {c : Command} (h : t.begin env c = .next t') :
    ∃ new, Leads env (.command c) new t t' := by
  cases c with
  | channel initial block =>
    rw [begin] at h
    refine leads_of_connect h (by simp) (Standing.isFresh_scripted (.pending initial)) ?_ ?_
    · simp [Job.IsMute, Job.greets?]
    · intro k i e he j hj
      simp only [List.mem_cons, List.not_mem_nil, or_false] at hj
      rcases hj with rfl | rfl
      · trivial
      · exact ⟨_, he, rfl⟩
  | single c =>
    cases c with
    | subscribe kind id payload =>
      have hproducer : (subscriber kind id).producer = .absent := by cases kind <;> rfl
      rw [begin, instruct] at h
      refine leads_of_connect h (by simp) ?_ ?_ ?_
      · rw [hproducer]
        exact Standing.isFresh_absent
      · simp [Job.IsMute, Job.greets?]
      · intro k i e he j hj
        simp only [List.mem_cons, List.not_mem_nil, or_false] at hj
        rcases hj with rfl | rfl
        · trivial
        · exact ⟨_, he, by rw [hproducer]; decide⟩
    | echoChannel initial =>
      rw [begin, instruct] at h
      refine leads_of_connect h (by simp) (Standing.isFresh_echo initial) ?_ ?_
      · simp [Job.IsMute, Job.greets?]
      · intro k i e he j hj
        simp only [List.mem_cons, List.not_mem_nil, or_false] at hj
        rcases hj with rfl | rfl <;> trivial
    | eof =>
      rw [begin, instruct] at h
      refine leads_of_connect h (by simp) Standing.isFresh_absent ?_ ?_
      · simp [Job.IsMute, Job.greets?]
      · intro k i e he j hj
        simp only [List.mem_cons, List.not_mem_nil, or_false] at hj
        rcases hj with rfl | rfl
        · trivial
        · exact ⟨_, he, fun hscripted => by cases hscripted⟩
    | pass | fail =>
      cases h
      exact ⟨[], leads_of_push (by simp) (by simp) (by simp) rfl rfl rfl⟩
    | malformed line reason => cases h
    | await id w => exact exists_leads_of_named (c := .await id w) h
    | assert id k => exact exists_leads_of_named (c := .assert id k) h
    | take n id => exact exists_leads_of_named (c := .take n id) h
    | request n id => exact exists_leads_of_named (c := .request n id) h
    | cancel id => exact exists_leads_of_named (c := .cancel id) h
    | respond signals => exact exists_leads_of_named (c := .respond signals) h
    | unknown line => exact exists_leads_of_named (c := .unknown line) h

/-- What the block of a script leaves to be done when an instruction is carried out. -/
theorem exists_leads_of_block {i : Nat} {flag : Bool} {c : Instruction} {block : List Instruction} :
    ∃ new, Leads env (.block i flag (c :: block)) new t (t.instructBlock i flag c block) := by
  obtain ⟨new, hnew, hmem⟩ := of_mem_instructBlock i flag c block t
  rw [hnew]
  refine ⟨new, leads_of_push (by simp) (fun j hj => ?_) (fun hready _ j hj => ?_) rfl rfl rfl⟩
  · obtain ⟨flag, rfl⟩ | ⟨signals, rfl⟩ | rfl | hj := hmem j hj
    · simp [Job.IsMute, Job.greets?]
    · simp [Job.IsMute, Job.greets?]
    · simp [Job.IsMute, Job.greets?]
    · obtain ⟨a, rfl⟩ | ⟨w, rfl⟩ | ⟨k, rfl⟩ | ⟨n, ms, rfl⟩ := of_mem_consumerJobs hj <;>
        simp [Job.IsMute, Job.greets?]
  · obtain ⟨s, r, hs, hscripted, hr⟩ := hready
    have hopen : ∃ s, t.exchange.standing? i = some s ∧ (s.kind = .scripted → ∃ r, s.gate = some r) :=
      ⟨s, hs, fun _ => ⟨r, hr⟩⟩
    obtain ⟨flag, rfl⟩ | ⟨signals, rfl⟩ | rfl | hj := hmem j hj
    · exact ⟨s, r, hs, hscripted, hr⟩
    · exact ⟨s, r, hs, hscripted, hr⟩
    · exact hopen
    · obtain ⟨a, rfl⟩ | ⟨w, rfl⟩ | ⟨k, rfl⟩ | ⟨n, ms, rfl⟩ := of_mem_consumerJobs hj <;>
        exact hopen

/-- The script of a block emits a signal. -/
theorem exists_leads_of_emitFirst {i : Nat} {s : Signal Payload} {signals : List (Signal Payload)}
    (h : t.emitFirst i s signals = .next t') :
    ∃ new, Leads env (.play i (s :: signals)) new t t' := by
  unfold emitFirst at h
  split at h
  · cases h
    exact ⟨[], leads_of_push (by simp) (by simp) (by simp) rfl rfl rfl⟩
  · rename_i p hp
    split at h
    · cases h
    · cases h
      exact ⟨[], leads_of_push (by simp) (by simp) (by simp) rfl rfl rfl⟩
    · rename_i emitter hs
      cases h
      have hsame := fun k => Exchange.standing?_send (τ := τ) i k p emitter s t.exchange
      have hfollows : t.exchange.Follows (t.exchange.send (τ := τ) i p emitter s).1 := .of_eq hsame
      refine ⟨_, rfl, .other (by simp) ?_ ?_ ?_ ?_, hfollows, fun hready _ => ?_,
        fun _ hknows => hknows.mono rfl hfollows⟩
      · intro j hj
        rcases List.mem_append.mp hj with hj | hj
        · obtain ⟨task, htask, rfl⟩ := List.mem_map.mp hj
          obtain ⟨r, -, rfl⟩ := Option.map_eq_some_iff.mp (Option.mem_toList.mp htask)
          rfl
        · rw [List.mem_singleton.mp hj]
          rfl
      · intro r s' hr
        rcases List.mem_append.mp hr with hr | hr
        · obtain ⟨task, htask, heq⟩ := List.mem_map.mp hr
          obtain ⟨r', hr', rfl⟩ := Option.map_eq_some_iff.mp (Option.mem_toList.mp htask)
          cases heq
          exact ⟨i, signals, rfl, (Exchange.remote?_of_scripted? hp).trans hr'⟩
        · cases List.mem_singleton.mp hr
      · intro k s' hs'
        exact (hsame k).trans hs'
      · intro k s' hnone hs'
        have hk := (hsame k).symm.trans hs'
        rw [hnone] at hk
        cases hk
      · intro j hj
        rcases List.mem_append.mp hj with hj | hj
        · obtain ⟨task, htask, rfl⟩ := List.mem_map.mp hj
          obtain ⟨r, -, rfl⟩ := Option.map_eq_some_iff.mp (Option.mem_toList.mp htask)
          trivial
        · rw [List.mem_singleton.mp hj]
          exact Job.IsReady.mono hfollows (j := .play i (s :: signals)) hready

/-- **What a job of the trial comes to.** -/
theorem exists_leads_of_perform (h : t.perform env j = .next t') : ∃ new, Leads env j new t t' := by
  cases j with
  | task task =>
    obtain ⟨hraise, rfl⟩ := next_of_task h
    refine ⟨_, rfl, .task hraise, .of_perform env task _, fun _ _ j hj => ?_,
      fun _ hknows => hknows.mono rfl (.of_perform env task _)⟩
    obtain ⟨task', htask', rfl⟩ := List.mem_map.mp hj
    cases Exchange.Origin.of_mem htask' <;> trivial
  | command c => exact exists_leads_of_begin h
  | register id i =>
    cases h
    refine ⟨[], rfl, .of_eq (by simp) (by simp) fun _ => rfl, .refl _, by simp, ?_⟩
    rintro hready hknows p hp
    rcases List.mem_cons.mp hp with rfl | hp
    · exact hready
    · exact hknows p hp
  | echoOpened =>
    cases h
    exact ⟨[], leads_of_push (by simp) (by simp) (by simp) rfl rfl rfl⟩
  | handshake i block =>
    obtain ⟨hfired, rfl⟩ := next_of_handshake h
    refine ⟨_, leads_of_push (by simp) ?_ (fun hready _ j hj => ?_) rfl rfl rfl⟩
    · simp [Job.IsMute, Job.greets?]
    · rw [List.mem_singleton.mp hj]
      obtain ⟨s, hs, hscripted⟩ := hready
      obtain ⟨p, hp, -, hgate⟩ := Exchange.exists_scripted_of_standing? hs hscripted
      rw [scripted?, hp] at hfired
      obtain ⟨r, hr⟩ := Option.isSome_iff_exists.mp hfired
      exact ⟨s, r, hs, hscripted, hgate.symm.trans hr⟩
  | block i flag block =>
    cases block with
    | nil =>
      cases h
      exact ⟨[], leads_of_push (by simp) (by simp) (by simp) rfl rfl rfl⟩
    | cons c block =>
      cases h
      exact exists_leads_of_block
  | check i k =>
    cases h
    exact ⟨[], leads_atReceiver (by simp) i _⟩
  | reject i =>
    cases h
    exact ⟨[], leads_atReceiver (by simp) i _⟩
  | wait i w =>
    obtain rfl := eq_of_wait h
    exact ⟨[], leads_of_push (by simp) (by simp) (by simp) rfl rfl rfl⟩
  | window i baseline ms => cases h
  | play i signals =>
    cases signals with
    | nil =>
      cases h
      exact ⟨[], leads_of_push (by simp) (by simp) (by simp) rfl rfl rfl⟩
    | cons s signals => exact exists_leads_of_emitFirst h

/-- An orderly trial stays so when it does a job. -/
theorem IsOrderly.leads {rest new : List (Job τ)} (h : t.IsOrderly) (hj : t.jobs = j :: rest)
    (hleads : Leads env j new { t with jobs := rest } t') : t'.IsOrderly where
  jobs := by
    intro j' hj'
    have hready := h.jobs j (hj ▸ List.mem_cons_self)
    rw [hleads.jobs] at hj'
    rcases List.mem_append.mp hj' with hj' | hj'
    · exact hleads.ready hready h.ids j' hj'
    · exact (h.jobs j' (hj ▸ List.mem_cons_of_mem j hj')).mono hleads.follows
  ids := hleads.ids (h.jobs j (hj ▸ List.mem_cons_self)) h.ids

/-- The end of a window. -/
theorem leads_closeWindow (env : Environment σ τ) {i baseline ms : Nat} {rest : List (Job τ)}
    (h : t.jobs = .window i baseline ms :: rest) :
    Leads env (.window i baseline ms) [] { t with jobs := rest } t.closeWindow := by
  rw [closeWindow, h]
  exact leads_atReceiver (by simp) i _

/-! ## Trials that stop -/

/-- The trial that is left when a thread's work comes to an end. -/
def Turn.stopped? : Turn σ τ → Option (Trial σ τ)
  | .faulted _ t => some t
  | .panicked _ t => some t
  | _ => none

/-- The trial has given up what it had to do. -/
structure Stops (t t' : Trial σ τ) : Prop where
  jobs : t'.jobs = []
  ids : t'.ids = t.ids
  interactions : t'.exchange.interactions = t.exchange.interactions

theorem Stops.producer (h : t.Stops t') (i : Nat) :
    t'.exchange.producer? i = t.exchange.producer? i := by
  rw [Exchange.producer?, h.interactions, Exchange.producer?]

theorem Stops.standing (h : t.Stops t') (i : Nat) :
    t'.exchange.standing? i = t.exchange.standing? i :=
  Exchange.standing?_congr (h.producer i)

theorem stops_of_panic {p : Panic} (h : (t.panic p).stopped? = some t') : t.Stops t' := by
  unfold panic at h
  dsimp only at h
  split at h
  · cases h
    exact ⟨rfl, rfl, rfl⟩
  · cases h
    exact ⟨rfl, rfl, rfl⟩

theorem stops_of_connect {x : Interaction} {jobs : Nat → Nat → List (Job τ)}
    (h : (t.connect env x jobs).stopped? = some t') : t.Stops t' := by
  unfold connect at h
  split at h
  · cases h
  · dsimp only at h
    split at h
    · cases h
      exact ⟨rfl, rfl, rfl⟩
    · obtain ⟨hjobs, hids, hinteractions⟩ := stops_of_panic h
      exact ⟨hjobs, hids, hinteractions⟩
    · cases h

theorem stops_of_begin {c : Command} (h : (t.begin env c).stopped? = some t') : t.Stops t' := by
  unfold begin at h
  split at h
  · unfold instruct at h
    split at h
    · exact stops_of_connect h
    · exact stops_of_connect h
    · exact stops_of_connect h
    · cases h
    · cases h
    · cases h
      exact ⟨rfl, rfl, rfl⟩
    · split at h <;> cases h
  · exact stops_of_connect h

theorem stops_of_perform (h : (t.perform env j).stopped? = some t') :
    t.Stops t' ∧ ∀ task, j = .task task → ∃ p, task = .call (.raise p) := by
  cases j with
  | task task =>
    by_cases hraise : ∃ p, task = .call (.raise p)
    · obtain ⟨p, rfl⟩ := hraise
      refine ⟨stops_of_panic h, fun task htask => ⟨p, ?_⟩⟩
      cases htask
      rfl
    · rw [perform_task fun p hp => hraise ⟨p, hp⟩] at h
      cases h
  | command c => exact ⟨stops_of_begin h, by simp⟩
  | handshake i block =>
    rw [perform] at h
    split at h
    · split at h
      · exact ⟨stops_of_panic h, by simp⟩
      · cases h
    · cases h
  | wait i w =>
    rw [perform] at h
    split at h <;> cases h
  | block i flag block => cases block <;> cases h
  | play i signals =>
    cases signals with
    | nil => cases h
    | cons s signals =>
      rw [perform, emitFirst] at h
      split at h
      · cases h
      · split at h <;> cases h
  | register | echoOpened | check | reject | window => cases h

/-- **A trial stops** only between its tasks, or by a panic of the far side. -/
theorem stops_of_turn (h : (t.turn env).stopped? = some t') : t.Stops t' ∧
    ∀ task rest, t.jobs = .task task :: rest → ∃ p, task = .call (.raise p) := by
  unfold turn at h
  split at h
  · cases h
  · rename_i j rest hjobs
    obtain ⟨⟨hnil, hids, hinteractions⟩, htask⟩ := stops_of_perform h
    refine ⟨⟨hnil, hids, hinteractions⟩, fun task rest' hjobs' => htask task ?_⟩
    exact (List.cons.inj (hjobs.symm.trans hjobs')).1

/-- A trial that waits is not in the middle of a task. -/
theorem not_task_of_blocked {b : Blocked} (h : t.turn env = .blocked b) (task : Task τ)
    (rest : List (Job τ)) : t.jobs ≠ .task task :: rest := by
  intro hjobs
  rw [turn, hjobs] at h
  have hperform : perform env (.task task) { t with jobs := rest } = .blocked b := h
  by_cases hraise : ∃ p, task = .call (.raise p)
  · obtain ⟨p, rfl⟩ := hraise
    have hpanic : panic p { t with jobs := rest } = .blocked b := hperform
    unfold panic at hpanic
    dsimp only at hpanic
    split at hpanic <;> cases hpanic
  · rw [perform_task fun p hp => hraise ⟨p, hp⟩] at hperform
    cases hperform

end Trial

end StreamConformance
