import StreamConformance.Proofs.Trial.Order

/-!
# What a turn does with connections

A trial connects for some of its commands and for nothing else, and as long as it has commands to
carry out it gives up no connection.  To say so, the far side is watched: every attempt to connect
that comes to something and every connection that is given up is entered into a list, by the far side
itself (`Environment.watched`), so that no part of a trial can connect unseen.

* `Deed`, `Environment.watched`: what is entered.
* `Trial.Turn.Comes`: what a turn does with connections, and that what it leaves to be done belongs
  to the same command.
* `Trial.comes_perform`: within a command there is no attempt.
* `Trial.comes_begin_of_opens`: a command that opens an interaction makes one attempt, or goes on
  with it.
* `Trial.comes_begin_of_not_opens`: any other command makes none.
-/

namespace StreamConformance

open Script (Command Instruction)

variable {σ τ : Type}

/-! ## A far side that is watched -/

/-- The connection that an attempt has led to. -/
def Dial.connection? : Dial → Option Nat
  | .connected k => some k
  | .refused _ => none
  | .panicked _ => none

/-- The connections that attempts have led to, in order. -/
def obtained (dials : List Dial) : List Nat :=
  dials.filterMap Dial.connection?

deriving instance DecidableEq for Dial

/-- What is done about connections. -/
inductive Deed where
  /-- An attempt to connect has come to something. -/
  | dialed (d : Dial)
  /-- A connection was given up. -/
  | released (connection : Nat)
  deriving DecidableEq

/-- A far side, and what was done about its connections so far. -/
structure Watched (σ : Type) where
  far : σ
  deeds : List Deed := []

/-- What an event is for connections. -/
def Event.deed? : Event τ → Option Deed
  | .released k => some (.released k)
  | _ => none

/-- The same far side under observation. -/
def Environment.watched (env : Environment σ τ) : Environment (Watched σ) τ where
  dial w := (env.dial w.far).map fun (far, d) => ({ far := far, deeds := w.deeds ++ [.dialed d] }, d)
  react event w :=
    ({ far := (env.react event w.far).1, deeds := w.deeds ++ event.deed?.toList },
      (env.react event w.far).2)
  idle w := (env.idle w.far).map fun (far, calls) => ({ w with far := far }, calls)

/-- A task gives up a connection. -/
def Task.IsRelease : Task τ → Prop
  | .tell (.released _) => True
  | _ => False

/-- A job within a command: it begins no command, and gives up no connection. -/
def Job.IsWithin : Job τ → Prop
  | .command _ => False
  | .task t => ¬t.IsRelease
  | _ => True

variable {env : Environment σ τ}

/-- What a task leads to gives up no connection. -/
theorem not_isRelease_of_mem {env : Environment σ τ} {e : Exchange σ} {t t' : Task τ}
    (h : t' ∈ (e.perform env t).2) : ¬t'.IsRelease := by
  cases Exchange.Origin.of_mem h <;> exact id

/-- A task that gives up no connection is no deed. -/
theorem deeds_perform {t : Task τ} (ht : ¬t.IsRelease) (e : Exchange (Watched σ)) :
    (e.perform env.watched t).1.far.deeds = e.far.deeds := by
  rw [Exchange.far_perform]
  cases t with
  | tell event =>
    cases event with
    | released k => exact absurd trivial ht
    | opened | openedChannel | asked | attached | heard | copied | resumed =>
      exact List.append_nil _
  | call | own | settle | passOn | openGate | push | drain | drainNext => rfl

namespace Trial

/-! ## What comes of a turn -/

/-- The attempts `made` lie between two moments of a trial, and nothing was given up. -/
structure Adds (made : List Dial) (t t' : Trial (Watched σ) τ) : Prop where
  connections : t'.connections = t.connections ++ obtained made
  deeds : t'.exchange.far.deeds = t.exchange.far.deeds ++ made.map .dialed

/-- A turn of the trial `t` makes the attempts `made`; what it leaves to be done is within the
command. -/
def Turn.Comes (made : List Dial) (t : Trial (Watched σ) τ) : Turn (Watched σ) τ → Prop
  | .next t' => Adds made t t' ∧ ∃ new, t'.jobs = new ++ t.jobs ∧ ∀ j ∈ new, j.IsWithin
  | .faulted _ t' => Adds made t t'
  | .panicked _ t' => Adds made t t'
  | .finished => made = []
  | .blocked _ => made = []

variable {t t' : Trial (Watched σ) τ} {j : Job τ} {c : Command}

/-- Nothing was done about connections. -/
theorem adds_nil (hconnections : t'.connections = t.connections)
    (hdeeds : t'.exchange.far.deeds = t.exchange.far.deeds) : Adds [] t t' where
  connections := by
    rw [hconnections]
    exact (List.append_nil _).symm
  deeds := by
    rw [hdeeds]
    exact (List.append_nil _).symm

theorem adds_refl (t : Trial (Watched σ) τ) : Adds [] t t :=
  adds_nil rfl rfl

/-- A turn does the first job. -/
theorem turn_eq_perform (env : Environment σ τ) {t : Trial σ τ} {rest : List (Job τ)}
    (h : t.jobs = j :: rest) : t.turn env = perform env j { t with jobs := rest } := by
  rw [turn, h]

/-- A thread with tasks to do and a command to carry out is not that of a block. -/
theorem panic_of_tasks {t : Trial σ τ} {front : List (Task τ)}
    (h : t.jobs = front.map .task ++ [.command c]) (p : Panic) :
    t.panic p = .panicked p { t with jobs := [] } := by
  unfold panic
  dsimp only
  rw [if_neg]
  rw [h, List.any_append, List.any_map]
  simp

/-- New jobs come in front, and nothing else changes. -/
theorem comes_push {new : List (Job τ)} (hnew : ∀ j ∈ new, j.IsWithin) (t : Trial (Watched σ) τ) :
    (Turn.next (t.push new)).Comes [] t :=
  ⟨adds_nil rfl rfl, new, rfl, hnew⟩

/-- A trial that goes on with the jobs it has. -/
theorem comes_next (hjobs : t'.jobs = t.jobs) (h : Adds [] t t') : (Turn.next t').Comes [] t :=
  ⟨h, [], hjobs, List.forall_mem_nil _⟩

/-- A panic ends a thread, and with it nothing that concerns connections. -/
theorem comes_panic {made : List Dial} {t₀ : Trial (Watched σ) τ} (h : Adds made t₀ t) (p : Panic) :
    (t.panic p).Comes made t₀ := by
  unfold panic
  dsimp only
  split <;> exact ⟨h.connections, h.deeds⟩

theorem isWithin_of_mem_consumerJobs {i : Nat} {c : Instruction} (h : j ∈ t.consumerJobs i c) :
    j.IsWithin := by
  rcases of_mem_consumerJobs h with ⟨a, rfl⟩ | ⟨w, rfl⟩ | ⟨k, rfl⟩ | ⟨n, ms, rfl⟩
  · exact id
  · trivial
  · trivial
  · trivial

theorem comes_atReceiver (i : Nat) (f : Receiver → Receiver) :
    (Turn.next (t.atReceiver i f)).Comes [] t := by
  unfold atReceiver
  split
  · exact comes_next rfl (adds_refl t)
  · exact comes_next rfl (adds_nil rfl rfl)

theorem comes_block (i : Nat) (flag : Bool) (c : Instruction) (block : List Instruction) :
    (Turn.next (t.instructBlock i flag c block)).Comes [] t := by
  obtain ⟨new, hpush, hnew⟩ := of_mem_instructBlock i flag c block t
  rw [hpush]
  refine comes_push (fun j hj => ?_) t
  rcases hnew j hj with ⟨flag, rfl⟩ | ⟨signals, rfl⟩ | rfl | hj
  · trivial
  · trivial
  · trivial
  · exact isWithin_of_mem_consumerJobs hj

theorem comes_emitFirst (i : Nat) (s : Signal Payload) (signals : List (Signal Payload)) :
    (t.emitFirst i s signals : Turn (Watched σ) τ).Comes [] t := by
  unfold emitFirst
  split
  · exact comes_next rfl (adds_refl t)
  · rename_i p hp
    split
    · rfl
    · exact comes_next rfl (adds_refl t)
    · refine ⟨adds_nil rfl ?_, _, rfl, ?_⟩
      · exact congrArg Watched.deeds (Exchange.far_atInteraction (τ := τ) ..)
      · intro j hj
        rcases List.mem_append.mp hj with hj | hj
        · obtain ⟨task, htask, rfl⟩ := List.mem_map.mp hj
          obtain ⟨r, -, rfl⟩ := Option.map_eq_some_iff.mp (Option.mem_toList.mp htask)
          exact id
        · rw [List.mem_singleton.mp hj]
          trivial

/-- **Within a command nothing is done about connections.** -/
theorem comes_perform (env : Environment σ τ) (hj : j.IsWithin) (t : Trial (Watched σ) τ) :
    (t.perform env.watched j).Comes [] t := by
  cases j with
  | task task =>
    by_cases hraise : ∃ p, task = .call (.raise p)
    · obtain ⟨p, rfl⟩ := hraise
      exact comes_panic (adds_refl t) p
    · rw [perform_task fun p hp => hraise ⟨p, hp⟩]
      refine ⟨adds_nil rfl (deeds_perform hj t.exchange), _, rfl, fun j hj' => ?_⟩
      obtain ⟨task', htask', rfl⟩ := List.mem_map.mp hj'
      exact not_isRelease_of_mem htask'
  | command c => exact hj.elim
  | register id i => exact comes_next rfl (adds_nil rfl rfl)
  | echoOpened => exact comes_next rfl (adds_nil rfl rfl)
  | handshake i block =>
    rw [perform]
    split
    · split
      · exact comes_panic (adds_refl t) _
      · refine comes_push (fun j hj => ?_) t
        rw [List.mem_singleton.mp hj]
        trivial
    · rfl
  | block i flag block =>
    cases block with
    | nil => exact comes_next rfl (adds_nil rfl rfl)
    | cons c block => exact comes_block i flag c block
  | check i k => exact comes_atReceiver i _
  | reject i => exact comes_atReceiver i _
  | wait i w =>
    rw [perform]
    split
    · exact comes_next rfl (adds_refl t)
    · rfl
  | window i baseline ms => rfl
  | play i signals =>
    cases signals with
    | nil => exact comes_next rfl (adds_refl t)
    | cons s signals => exact comes_emitFirst i s signals

/-! ## The beginning of a command -/

/-- An attempt to connect goes on, or it has come to something. -/
theorem comes_connect {x : Interaction} {jobs : Nat → Nat → List (Job τ)}
    (hjobs : ∀ k i, ∀ j ∈ jobs k i, j.IsWithin) (t : Trial (Watched σ) τ) :
    t.connect env.watched x jobs = .blocked .dialing ∨
      ∃ d, (t.connect env.watched x jobs).Comes [d] t := by
  unfold connect
  cases hdial : env.watched.dial t.exchange.far with
  | none => exact .inl rfl
  | some dialed =>
    obtain ⟨⟨far, d⟩, -, rfl⟩ := Option.map_eq_some_iff.mp hdial
    refine .inr ⟨d, ?_⟩
    dsimp only
    cases d with
    | refused fault => exact ⟨(List.append_nil _).symm, rfl⟩
    | panicked p => exact comes_panic ⟨(List.append_nil _).symm, rfl⟩ p
    | connected k => exact ⟨⟨rfl, rfl⟩, _, rfl, hjobs k _⟩

/-- A command that opens an interaction is an attempt to connect, and jobs of its own behind it. -/
theorem exists_connect_of_opens (env : Environment σ τ) (hc : c.opens = true) (t : Trial σ τ) :
    ∃ x jobs, t.begin env c = t.connect env x jobs ∧ ∀ k i, ∀ j ∈ jobs k i, j.IsWithin := by
  cases c with
  | channel initial block =>
    rw [begin]
    refine ⟨_, _, rfl, fun k i => ?_⟩
    simp [Job.IsWithin, Task.IsRelease]
  | single c =>
    cases c with
    | subscribe | echoChannel | eof =>
      rw [begin, instruct]
      refine ⟨_, _, rfl, fun k i => ?_⟩
      simp [Job.IsWithin, Task.IsRelease]
    | await | assert | take | request | cancel | respond | pass | fail | unknown | malformed =>
      cases hc

/-- **A command that opens an interaction makes one attempt to connect**, or goes on with it. -/
theorem comes_begin_of_opens (env : Environment σ τ) (hc : c.opens = true)
    (t : Trial (Watched σ) τ) :
    t.begin env.watched c = .blocked .dialing ∨ ∃ d, (t.begin env.watched c).Comes [d] t := by
  obtain ⟨x, jobs, hbegin, hjobs⟩ := exists_connect_of_opens env.watched hc t
  rw [hbegin]
  exact comes_connect hjobs t

/-- **Any other command makes no attempt**, and nothing keeps it from being carried out. -/
theorem comes_begin_of_not_opens (env : Environment σ τ) (hc : c.opens = false)
    (t : Trial (Watched σ) τ) :
    (t.begin env.watched c).Comes [] t ∧ ∀ b, t.begin env.watched c ≠ .blocked b := by
  cases c with
  | channel => cases hc
  | single c =>
    cases c with
    | subscribe | echoChannel | eof => cases hc
    | pass | fail => exact ⟨comes_next rfl (adds_nil rfl rfl), nofun⟩
    | malformed line reason => exact ⟨adds_nil rfl rfl, nofun⟩
    | await | assert | take | request | cancel | respond | unknown =>
      unfold begin instruct
      dsimp only
      split
      · exact ⟨comes_push (fun j hj => isWithin_of_mem_consumerJobs hj) t, nofun⟩
      · exact ⟨comes_next rfl (adds_refl t), nofun⟩

end Trial
end StreamConformance
