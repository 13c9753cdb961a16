import StreamConformance.Proofs.Trial.Law

/-!
# The phases of a command

What a trial has to do is, at any time, some minor jobs and behind them what is left of the
command that was begun.  Minor jobs open nothing and register nothing; all that they can do to the
records of the trial is to evaluate an assertion about an interaction that is open to them
(`Job.IsMinor`).  So it is enough to say what may be left of a command (`Left`), and what the
trial enters into its records when that is done.

* `Records`: the records of a trial agree with the commands that were carried out.
* `Phase.turn`: a turn of the trial leads from a phase to a phase.
* `Phase.fault`: a command that faults has one of the reasons for that.
-/

namespace StreamConformance

open Script

variable {σ τ : Type}

/-- A job that is no part of a command's own account, and that evaluates assertions about the
interactions `P` only. -/
def Job.IsMinor (P : Nat → Prop) : Job τ → Prop
  | .task _ => True
  | .wait _ _ => True
  | .play _ _ => True
  | .check i _ => P i
  | .reject i => P i
  | .window i _ _ => P i
  | _ => False

theorem Job.IsMinor.mono {P Q : Nat → Prop} (hPQ : ∀ i, P i → Q i) {j : Job τ} (h : j.IsMinor P) :
    j.IsMinor Q := by
  cases j with
  | task | wait | play => trivial
  | check i | reject i | window i => exact hPQ i h
  | command | register | echoOpened | handshake | block => cases h

/-- A minor job asserts something about an interaction that is open to it. -/
theorem Job.IsMinor.of_assertion? {P : Nat → Prop} {j : Job τ} (h : j.IsMinor P) {t : Trial σ τ}
    {i : Nat} {holds : Bool} (ha : j.assertion? t = some (i, holds)) : P i := by
  cases j with
  | check i' | reject i' | window i' =>
    obtain ⟨r, -, hr⟩ := Option.map_eq_some_iff.mp ha
    obtain rfl := (Prod.mk.inj hr).1
    exact h
  | task | wait | play | command | register | echoOpened | handshake | block => cases ha

namespace Trial

variable {env : Environment σ τ}

/-- The trial `t'` has the records of `t`, its ledgers are those of `t` after the assertion `a`,
and the jobs `new` have come in front. -/
structure Goes (t : Trial σ τ) (a : Option (Nat × Bool)) (new : List (Job τ)) (t' : Trial σ τ) :
    Prop where
  eq : t' = { t with exchange := t'.exchange, jobs := new ++ t.jobs }
  size : t'.exchange.interactions.size = t.exchange.interactions.size
  ledger : ∀ i, t'.exchange.ledger i = (t.exchange.ledger i).after a i

theorem goes_refl (t : Trial σ τ) : Goes t none [] t :=
  ⟨rfl, rfl, fun _ => rfl⟩

/-- An assertion is entered. -/
theorem goes_atReceiver {f : Receiver → Receiver} {holds : Receiver → Bool}
    (hf : ∀ r, (f r).ledger = r.ledger.enter (holds r)) (t : Trial σ τ) (i : Nat) :
    Goes t ((t.receiver? i).map fun r => (i, holds r)) [] (t.atReceiver i f) where
  eq := by
    unfold atReceiver
    split <;> rfl
  size := size_atReceiver t i f
  ledger := ledger_atReceiver hf t i

theorem goes_emitFirst {t t' : Trial σ τ} {i : Nat} {s : Signal Payload}
    {signals : List (Signal Payload)} (h : t.emitFirst i s signals = .next t') :
    ∃ new, Goes t none new t' ∧ ∀ j ∈ new, j.IsMinor (τ := τ) fun _ => False := by
  unfold emitFirst at h
  split at h
  · cases h
    exact ⟨[], goes_refl t, by simp⟩
  · rename_i p hp
    split at h
    · cases h
    · cases h
      exact ⟨[], goes_refl t, by simp⟩
    · rename_i emitter hs
      cases h
      refine ⟨_, ⟨rfl, Exchange.size_atInteraction (τ := τ) .., fun j =>
        Exchange.ledger_send (τ := τ) i j p emitter s t.exchange⟩, ?_⟩
      intro j hj
      rcases List.mem_append.mp hj with hj | hj
      · obtain ⟨task, -, rfl⟩ := List.mem_map.mp hj
        trivial
      · rw [List.mem_singleton.mp hj]
        trivial

theorem panic_ne_next (p : Panic) (t t' : Trial σ τ) : t.panic p ≠ .next t' := by
  unfold panic
  dsimp only
  split <;> simp

/-- A task is performed, and what it leaves to be done comes first. -/
theorem perform_task {t : Trial σ τ} {task : Task τ} (h : ∀ p, task ≠ .call (.raise p)) :
    t.perform env (.task task) =
      .next (push ((t.exchange.perform env task).2.map .task)
        { t with exchange := (t.exchange.perform env task).1 }) := by
  unfold perform
  split
  · rename_i p heq
    cases heq
    exact absurd rfl (h p)
  · rename_i task' hraise heq
    cases heq
    rfl
  all_goals rename_i heq; cases heq

/-- A task that has others done behind it is no panic. -/
theorem next_of_task {t t' : Trial σ τ} {task : Task τ}
    (h : t.perform env (.task task) = .next t') :
    (∀ p, task ≠ .call (.raise p)) ∧
      t' = push ((t.exchange.perform env task).2.map .task)
        { t with exchange := (t.exchange.perform env task).1 } := by
  have hraise : ∀ p, task ≠ .call (.raise p) := by
    rintro p rfl
    exact panic_ne_next p t t' h
  rw [perform_task hraise] at h
  exact ⟨hraise, (Turn.next.inj h).symm⟩

/-- A handshake that is over is followed by the block. -/
theorem next_of_handshake {t t' : Trial σ τ} {i : Nat} {block : List Instruction}
    (h : t.perform env (.handshake i block) = .next t') :
    ((t.scripted? i).map fun p => p.gate.isFired).getD true = true ∧
      t' = t.push [.block i t.expected block] := by
  rw [perform] at h
  split at h
  · rename_i hfired
    split at h
    · exact (panic_ne_next _ _ _ h).elim
    · exact ⟨hfired, (Turn.next.inj h).symm⟩
  · cases h

/-- A wait that is over changes nothing. -/
theorem eq_of_wait {t t' : Trial σ τ} {i : Nat} {w : Consumer.Waiting}
    (h : t.perform env (.wait i w) = .next t') : t' = t := by
  rw [perform] at h
  split at h
  · cases h
    rfl
  · cases h

/-- What a minor job comes to. -/
theorem exists_of_minor {P : Nat → Prop} {j : Job τ} (hj : j.IsMinor P) {t t' : Trial σ τ}
    (h : t.perform env j = .next t') :
    ∃ new, Goes t (j.assertion? t) new t' ∧ ∀ j' ∈ new, j'.IsMinor (τ := τ) fun _ => False := by
  cases j with
  | task task =>
    obtain ⟨-, rfl⟩ := next_of_task h
    refine ⟨_, ⟨rfl, Exchange.size_perform env task t.exchange,
      Exchange.ledger_perform env task t.exchange⟩, ?_⟩
    intro j' hj'
    obtain ⟨task', -, rfl⟩ := List.mem_map.mp hj'
    trivial
  | wait i w =>
    obtain rfl := eq_of_wait h
    exact ⟨[], goes_refl _, by simp⟩
  | play i signals =>
    cases signals with
    | nil =>
      cases h
      exact ⟨[], goes_refl t, by simp⟩
    | cons s signals => exact goes_emitFirst h
  | check i k =>
    cases h
    exact ⟨[], goes_atReceiver (Receiver.ledger_check k) t i, by simp⟩
  | reject i =>
    cases h
    refine ⟨[], goes_atReceiver (fun r => ?_) t i, by simp⟩
    cases r <;> rfl
  | window i baseline ms => cases h
  | command | register | echoOpened | handshake | block => cases hj

/-- The end of a window is an assertion. -/
theorem goes_closeWindow {t : Trial σ τ} {i baseline ms : Nat} {jobs : List (Job τ)}
    (h : t.jobs = .window i baseline ms :: jobs) :
    Goes { t with jobs := jobs } t.assertion? [] t.closeWindow := by
  have hclose : t.closeWindow = { t with jobs := jobs }.atReceiver i fun r =>
      r.modify fun c => c.record (c.isQuietSince baseline) := by
    rw [closeWindow, h]
  have hassertion : t.assertion? = (t.receiver? i).map fun r =>
      (i, r.view fun c => c.isQuietSince baseline) := by
    rw [assertion?, h]
    rfl
  rw [hclose, hassertion]
  refine goes_atReceiver (fun r => ?_) { t with jobs := jobs } i
  cases r <;> rfl

/-- A minor job does not fault, unless it panics in the block of a channel. -/
theorem faulted_of_minor {P : Nat → Prop} {j : Job τ} (hj : j.IsMinor P) {t t' : Trial σ τ}
    {f : Fault} (h : t.perform env j = .faulted f t') :
    (∃ i flag block, Job.block i flag block ∈ t.jobs) ∧ f = .channelAborted t.name ∧
      t' = { t with jobs := [] } := by
  cases j with
  | task task =>
    by_cases hraise : ∃ p, task = .call (.raise p)
    · obtain ⟨p, rfl⟩ := hraise
      have hpanic : t.panic p = .faulted f t' := h
      unfold panic at hpanic
      dsimp only at hpanic
      split at hpanic
      · rename_i hblock
        cases hpanic
        obtain ⟨j, hj, hisBlock⟩ := List.any_eq_true.mp hblock
        cases j with
        | block i flag block => exact ⟨⟨i, flag, block, hj⟩, rfl, rfl⟩
        | _ => cases hisBlock
      · cases hpanic
    · rw [perform_task fun p hp => hraise ⟨p, hp⟩] at h
      cases h
  | wait i w =>
    have hnext : (if ((t.receiver? i).bind fun r => r.view (Consumer.answer? w)).isSome
        then Turn.next t else .blocked .peer) = .faulted f t' := h
    split at hnext <;> cases hnext
  | play i signals =>
    cases signals with
    | nil => cases h
    | cons s signals =>
      have hemit : t.emitFirst i s signals = .faulted f t' := h
      unfold emitFirst at hemit
      split at hemit
      · cases hemit
      · split at hemit <;> cases hemit
  | check | reject | window => cases h
  | command | register | echoOpened | handshake | block => cases hj

/-- A trial that goes on after an attempt to connect has opened an interaction. -/
theorem exists_of_connect {t t' : Trial σ τ} {x : Interaction} {jobs : Nat → Nat → List (Job τ)}
    (h : t.connect env x jobs = .next t') :
    ∃ far k, t' =
      { t with
        exchange := ({ t.exchange with far := far } : Exchange σ).enter x
        connections := t.connections ++ [k]
        jobs := jobs k t.exchange.interactions.size ++ t.jobs } := by
  unfold connect at h
  split at h
  · cases h
  · dsimp only at h
    split at h
    · cases h
    · exact (panic_ne_next _ _ _ h).elim
    · cases h
      exact ⟨_, _, rfl⟩

/-- Outside of blocks an attempt to connect faults only if it was refused. -/
theorem exists_of_connect_faulted {t t' : Trial σ τ} {f : Fault} {x : Interaction}
    {jobs : Nat → Nat → List (Job τ)} (hjobs : t.jobs = [])
    (h : t.connect env x jobs = .faulted f t') :
    (∃ far', env.dial t.exchange.far = some (far', .refused f)) ∧
      t'.connections = t.connections := by
  unfold connect at h
  split at h
  · cases h
  · rename_i far dialed hdial
    dsimp only at h
    split at h
    · cases h
      exact ⟨⟨far, hdial⟩, rfl⟩
    · unfold panic at h
      dsimp only at h
      rw [hjobs] at h
      cases h
    · cases h

end Trial

/-! ## The records of a trial -/

/-- The records of the trial `t` are what they should be once the commands `cs` have been carried
out, when `n` connections were made. -/
structure Records (name : String) (base : Nat) (cs : List Command) (n : Nat) (t : Trial σ τ) :
    Prop where
  name : t.name = name
  size : t.exchange.interactions.size = base + n
  connections : t.connections.length = n
  ids : ∀ p ∈ t.ids, p.2 ∈ t.registered
  registered : ∀ i, i ∈ t.registered ↔ IsSubscription base cs i
  expected : t.expected = expectation cs
  blocks : t.blockResults.all id = true ↔
    ∀ i flag, IsBlock base cs i flag → t.hasPassed i = flag
  ran : t.channelRan = true ↔ ∃ c ∈ cs, c.runsChannel = true
  valid : ∀ c ∈ cs, c.isMalformed = false

/-- What a command adds to the results of the blocks. -/
def blockResult? (base : Nat) (cs : List Command) (t : Trial σ τ) : Command → Option Bool
  | .single _ => none
  | .channel _ block =>
    some (t.hasPassed (base + opened cs) == blockExpectation (expectation cs) block)

namespace Records

variable {name : String} {base n : Nat} {cs : List Command} {t : Trial σ τ}

/-- The verdict is what the records call for. -/
theorem lawful (h : Records name base cs n t) : Lawful name base cs t.hasPassed t.verdict := by
  have hempty : t.registered.isEmpty = true ↔ ¬∃ i, IsSubscription base cs i := by
    rw [List.isEmpty_iff, List.eq_nil_iff_forall_not_mem, not_exists]
    exact forall_congr' fun i => not_congr (h.registered i)
  have hall : t.registered.all t.hasPassed = true ↔
      ∀ i, IsSubscription base cs i → t.hasPassed i = true := by
    rw [List.all_eq_true]
    exact forall_congr' fun i => imp_congr_left (h.registered i)
  have hmet : (t.registered.all t.hasPassed == t.expected) = true ↔
      ((∀ i, IsSubscription base cs i → t.hasPassed i = true) ↔ expectation cs = true) := by
    rw [beq_iff_eq, ← hall, h.expected, Bool.eq_iff_iff]
  constructor
  · intro hsub
    have hne : ¬t.registered.isEmpty = true := fun he => hempty.mp he hsub
    rw [← hmet, Trial.verdict, if_neg hne]
    by_cases hm : (t.registered.all t.hasPassed == t.expected) = true
    · exact Or.inl ⟨if_pos hm, hm⟩
    · exact Or.inr ⟨if_neg hm, hm⟩
  · intro hsub hran
    refine ⟨t.blockResults.all id, ?_, h.blocks⟩
    rw [Trial.verdict, if_pos (hempty.mpr hsub), if_pos (h.ran.mpr hran)]
  · intro hsub hran
    rw [Trial.verdict, if_pos (hempty.mpr hsub), if_neg fun hr => hran (h.ran.mp hr), h.name]

/-- Only the ledgers of channels with a block matter to the records, besides the records. -/
theorem congr (h : Records name base cs n t) {e : Exchange σ} {jobs : List (Job τ)}
    (hsize : e.interactions.size = t.exchange.interactions.size)
    (hledger : ∀ i flag, IsBlock base cs i flag → e.ledger i = t.exchange.ledger i) :
    Records name base cs n { t with exchange := e, jobs := jobs } where
  name := h.name
  size := hsize.trans h.size
  connections := h.connections
  ids := h.ids
  registered := h.registered
  expected := h.expected
  blocks := by
    have hpassed : ∀ i flag, IsBlock base cs i flag →
        Trial.hasPassed { t with exchange := e, jobs := jobs } i = t.hasPassed i := by
      intro i flag hi
      rw [Trial.hasPassed_eq, Trial.hasPassed_eq]
      show ((e.ledger i).failed == 0) = _
      rw [hledger i flag hi]
    refine h.blocks.trans (forall_congr' fun i => forall_congr' fun flag => ?_)
    exact ⟨fun hm hi => (hpassed i flag hi).trans (hm hi),
      fun hm hi => (hpassed i flag hi).symm.trans (hm hi)⟩
  ran := h.ran
  valid := h.valid

/-- A connection was made, and an interaction was opened. -/
theorem connect (h : Records name base cs n t) {x : Interaction} (hx : x.receiver.ledger = {})
    (far : σ) (k : Nat) (jobs : List (Job τ)) :
    Records name base cs (n + 1)
      { t with
        exchange := ({ t.exchange with far := far } : Exchange σ).enter x
        connections := t.connections ++ [k]
        jobs := jobs } := by
  have hledger : ∀ i, (({ t.exchange with far := far } : Exchange σ).enter x).ledger i =
      t.exchange.ledger i := fun i => Exchange.ledger_enter hx _ i
  have hpassed : ∀ i, Trial.hasPassed
      { t with
        exchange := ({ t.exchange with far := far } : Exchange σ).enter x
        connections := t.connections ++ [k]
        jobs := jobs } i = t.hasPassed i := by
    intro i
    rw [Trial.hasPassed_eq, Trial.hasPassed_eq, hledger]
  exact
    { h with
      size := by
        rw [Exchange.size_enter]
        show t.exchange.interactions.size + 1 = _
        rw [h.size, Nat.add_assoc]
      connections := by
        rw [List.length_append, h.connections]
        rfl
      blocks := by
        refine h.blocks.trans (forall_congr' fun i => forall_congr' fun flag => ?_)
        rw [hpassed] }

/-- **One command more**: what the trial enters into its records for the command `c`. -/
theorem concat (h : Records name base cs n t) {t' : Trial σ τ} (c : Command)
    (hname : t'.name = t.name) (hexchange : t'.exchange = t.exchange)
    (hconnections : t'.connections = t.connections) (hids : ∀ p ∈ t'.ids, p.2 ∈ t'.registered)
    (hregistered : t'.registered =
      t.registered ++ if c.subscribes then [base + opened cs] else [])
    (hexpected : t'.expected = c.flag?.getD t.expected)
    (hblocks : t'.blockResults = t.blockResults ++ (blockResult? base cs t c).toList)
    (hran : t'.channelRan = (t.channelRan || c.runsChannel)) (hvalid : c.isMalformed = false) :
    Records name base (cs ++ [c]) n t' where
  name := hname.trans h.name
  size := by rw [hexchange, h.size]
  connections := by rw [hconnections, h.connections]
  ids := hids
  registered := fun i => by
    rw [hregistered, List.mem_append, h.registered, isSubscription_concat]
    refine or_congr_right ?_
    cases c.subscribes <;> simp
  expected := by rw [hexpected, h.expected, expectation_concat]
  blocks := by
    have hpassed : ∀ i, t'.hasPassed i = t.hasPassed i := fun i => by
      rw [Trial.hasPassed_eq, Trial.hasPassed_eq, hexchange]
    rw [hblocks, List.all_append, Bool.and_eq_true, h.blocks]
    constructor
    · rintro ⟨hold, hnew⟩ i flag hi
      rw [hpassed]
      rcases isBlock_concat.mp hi with hi | ⟨initial, block, rfl, rfl, rfl⟩
      · exact hold i flag hi
      · simpa [blockResult?] using hnew
    · intro hall
      refine ⟨fun i flag hi => ?_, ?_⟩
      · rw [← hpassed]
        exact hall i flag (isBlock_concat.mpr (Or.inl hi))
      · cases c with
        | single c => rfl
        | channel initial block =>
          have hlast := hall _ _ (isBlock_concat.mpr (Or.inr ⟨initial, block, rfl, rfl, rfl⟩))
          rw [hpassed] at hlast
          simp [blockResult?, hlast]
  ran := by
    rw [hran, Bool.or_eq_true, h.ran]
    simp only [List.mem_append, List.mem_singleton]
    constructor
    · rintro (⟨c', hc', hr⟩ | hr)
      · exact ⟨c', Or.inl hc', hr⟩
      · exact ⟨c, Or.inr rfl, hr⟩
    · rintro ⟨c', hc' | rfl, hr⟩
      · exact Or.inl ⟨c', hc', hr⟩
      · exact Or.inr hr
  valid := by
    intro c' hc'
    rcases List.mem_append.mp hc' with hc' | hc'
    · exact h.valid c' hc'
    · rw [List.mem_singleton.mp hc']
      exact hvalid

/-- An instruction that opens nothing adds nothing to the records but what it says about assertions
to come. -/
theorem concat_of_not_opens {c : Instruction} (h : Records name base cs (opened cs) t)
    (hopens : c.opens = false) (hvalid : (Command.single c).isMalformed = false) :
    Records name base (cs ++ [.single c]) (opened (cs ++ [.single c]))
      { t with expected := c.flag?.getD t.expected } := by
  obtain ⟨hsub, hran⟩ := Command.not_counts_of_not_opens hopens
  have hopened : opened (cs ++ [.single c]) = opened cs := by
    rw [opened_concat, Command.opens, hopens]
    rfl
  rw [hopened]
  refine h.concat (.single c) rfl rfl rfl h.ids ?_ rfl (List.append_nil _).symm ?_ hvalid
  · rw [hsub]
    exact (List.append_nil _).symm
  · rw [hran, Bool.or_false]

end Records

/-! ## Phases of a command -/

/-- What is left of the command behind `cs` is the job `last`, with minor jobs in front of it that
may assert something about the interactions `P`.  The commands begun are `begun`, and `n` is the
number of connections. -/
inductive Left (base : Nat) (cs : List Command) :
    (begun : List Command) → (n : Nat) → (last : Job τ) → (P : Nat → Prop) → Prop where
  | all (c : Command) : Left base cs (cs ++ [c]) (opened cs) (.command c) fun _ => False
  | registering (kind : InteractionKind) (id : String) (payload : Payload) :
      Left base cs (cs ++ [.single (.subscribe kind id payload)]) (opened cs + 1)
        (.register id (base + opened cs)) fun _ => False
  | echoing (initial : Payload) :
      Left base cs (cs ++ [.single (.echoChannel initial)]) (opened cs + 1) .echoOpened
        fun _ => False
  | handshaking (initial : Payload) (block : List Instruction) :
      Left base cs (cs ++ [.channel initial block]) (opened cs + 1)
        (.handshake (base + opened cs) block) fun _ => False
  | blocking (initial : Payload) (done rest : List Instruction) :
      Left base cs (cs ++ [.channel initial (done ++ rest)]) (opened cs + 1)
        (.block (base + opened cs) (blockExpectation (expectation cs) done) rest)
        (· = base + opened cs)

section Left

variable {base n i : Nat} {flag : Bool} {cs begun : List Command} {last : Job τ} {P : Nat → Prop}

theorem Left.not_isMinor (h : Left base cs begun n last P) {Q : Nat → Prop} : ¬last.IsMinor Q := by
  intro hlast
  cases h <;> cases hlast

/-- The blocks that are over are not open to jobs any more. -/
theorem Left.not_isBlock (h : Left base cs begun n last P) (hi : P i) : ¬IsBlock base cs i flag := by
  cases h with
  | all | registering | echoing | handshaking => exact hi.elim
  | blocking initial done rest =>
    intro hblock
    have hlt := hblock.lt
    omega

end Left

/-- Which commands were begun, and what the trial has to do now. -/
inductive Phase (name : String) (base : Nat) : List Command → Trial σ τ → Prop where
  /-- The last command is carried out, but for some minor jobs. -/
  | between {cs : List Command} {t : Trial σ τ} (h : Records name base cs (opened cs) t)
      (hjobs : ∀ j ∈ t.jobs, j.IsMinor (· ∈ t.registered)) : Phase name base cs t
  | during {cs begun : List Command} {n : Nat} {last : Job τ} {P : Nat → Prop} {t : Trial σ τ}
      (hleft : Left base cs begun n last P) (h : Records name base cs n t) (front : List (Job τ))
      (hfront : ∀ j ∈ front, j.IsMinor P) (hjobs : t.jobs = front ++ [last]) :
      Phase name base begun t

namespace Phase

variable {env : Environment σ τ} {name : String} {base : Nat} {cs : List Command}
  {t t' : Trial σ τ} {j : Job τ} {new rest : List (Job τ)}

theorem isMinor_append {P : Nat → Prop} {front : List (Job τ)}
    (hnew : ∀ j ∈ new, j.IsMinor fun _ => False) (hfront : ∀ j ∈ front, j.IsMinor P) :
    ∀ j ∈ new ++ front, j.IsMinor P := by
  intro j hj
  rcases List.mem_append.mp hj with hj | hj
  · exact (hnew j hj).mono fun _ hf => hf.elim
  · exact hfront j hj

/-- A phase does not end as long as there are minor jobs in front. -/
theorem minor (h : Phase name base cs t) (hjobs : t.jobs = j :: rest)
    (hj : j.IsMinor fun _ => True)
    (hgoes : Trial.Goes { t with jobs := rest } (j.assertion? t) new t')
    (hnew : ∀ j ∈ new, j.IsMinor fun _ => False) : Phase name base cs t' := by
  -- Only an assertion about an interaction that is open to the job is entered.
  have hkeep : ∀ {P : Nat → Prop} {cs : List Command} {n : Nat}, j.IsMinor P →
      (∀ i flag, P i → ¬IsBlock base cs i flag) → Records name base cs n t →
      Records name base cs n t' := by
    intro P cs n hP hblock hrecords
    rw [hgoes.eq]
    refine hrecords.congr hgoes.size fun i flag hi => ?_
    rw [hgoes.ledger]
    exact Ledger.after_of_ne (fun holds ha => hblock i flag (hP.of_assertion? ha) hi) _
  have hjobs' : t'.jobs = new ++ rest := by rw [hgoes.eq]
  cases h with
  | between h hall =>
    rw [hjobs] at hall
    have hregistered : t'.registered = t.registered := by rw [hgoes.eq]
    refine .between (hkeep (hall j List.mem_cons_self) ?_ h) ?_
    · exact fun i flag hreg => ((h.registered i).mp hreg).not_isBlock
    · rw [hjobs', hregistered]
      exact isMinor_append hnew fun j' hj' => hall j' (List.mem_cons_of_mem _ hj')
  | during hleft h front hfront hall =>
    rcases front with _ | ⟨j', front⟩
    · obtain ⟨rfl, -⟩ := List.cons.inj (hjobs.symm.trans hall)
      exact (hleft.not_isMinor hj).elim
    · obtain ⟨rfl, hrest⟩ := List.cons.inj (hjobs.symm.trans hall)
      refine .during hleft (hkeep (hfront j List.mem_cons_self) ?_ h) (new ++ front) ?_ ?_
      · exact fun i flag hi => hleft.not_isBlock hi
      · exact isMinor_append hnew fun j' hj' => hfront j' (List.mem_cons_of_mem _ hj')
      · rw [hjobs', hrest]
        exact (List.append_assoc ..).symm

/-- What others do to the exchange does not end a phase, nor do calls that they make. -/
theorem push (h : Phase name base cs t) {e : Exchange σ}
    (hsize : e.interactions.size = t.exchange.interactions.size)
    (hledger : ∀ i, e.ledger i = t.exchange.ledger i)
    (hnew : ∀ j ∈ new, j.IsMinor fun _ => False) :
    Phase name base cs { t with exchange := e, jobs := new ++ t.jobs } := by
  cases h with
  | between h hall =>
    exact .between (h.congr hsize fun i _ _ => hledger i) (isMinor_append hnew hall)
  | during hleft h front hfront hall =>
    refine .during hleft (h.congr hsize fun i _ _ => hledger i) (new ++ front)
      (isMinor_append hnew hfront) ?_
    show new ++ t.jobs = _
    rw [hall, List.append_assoc]

/-- What an instruction leaves to be done for a consumer. -/
theorem isMinor_consumerJobs {P : Nat → Prop} {i : Nat} (hi : P i) (c : Instruction)
    (t : Trial σ τ) : ∀ j ∈ t.consumerJobs i c, j.IsMinor P := by
  intro j hj
  unfold Trial.consumerJobs at hj
  split at hj <;> simp only [List.mem_cons, List.not_mem_nil, or_false] at hj
  · rw [hj]
    trivial
  · rw [hj]
    trivial
  · rw [hj]
    exact hi
  · rw [hj]
    exact hi
  · rcases hj with rfl | rfl <;> trivial
  · rw [hj]
    trivial
  · rw [hj]
    trivial

/-- Between commands nothing has to be left to do. -/
theorem of_records (h : Records name base cs (opened cs) t) (hjobs : t.jobs = []) :
    Phase name base cs t := by
  refine .between h ?_
  rw [hjobs]
  exact List.forall_mem_nil _

/-- An instruction that opens nothing, and says nothing about assertions to come. -/
theorem of_plain {c : Instruction} (h : Records name base cs (opened cs) t) (hjobs : t.jobs = [])
    (hflag : c.flag? = none) (hopens : c.opens = false)
    (hvalid : (Command.single c).isMalformed = false)
    (hnext : (match (Trial.namedConsumer? c).bind t.lookup? with
      | some i => Trial.Turn.next (t.push (t.consumerJobs i c))
      | none => .next t) = .next t') : Phase name base (cs ++ [.single c]) t' := by
  have hrecords := h.concat_of_not_opens hopens hvalid
  rw [hflag, Option.getD_none] at hrecords
  split at hnext
  · rename_i i hi
    cases hnext
    refine .between (hrecords.congr rfl fun _ _ _ => rfl) ?_
    show ∀ j ∈ t.consumerJobs i c ++ t.jobs, j.IsMinor (· ∈ t.registered)
    rw [hjobs, List.append_nil]
    refine isMinor_consumerJobs (P := (· ∈ t.registered)) ?_ c t
    obtain ⟨id, -, hlookup⟩ := Option.bind_eq_some_iff.mp hi
    obtain ⟨p, hp, rfl⟩ := Option.map_eq_some_iff.mp hlookup
    exact h.ids p (List.mem_of_find?_eq_some hp)
  · cases hnext
    exact of_records hrecords hjobs

/-- An instruction that says what is expected of the assertions to come. -/
theorem of_flag {c : Instruction} {flag : Bool} (h : Records name base cs (opened cs) t)
    (hjobs : t.jobs = []) (hflag : c.flag? = some flag) (hopens : c.opens = false)
    (hvalid : (Command.single c).isMalformed = false) :
    Phase name base (cs ++ [.single c]) { t with expected := flag } := by
  have hrecords := h.concat_of_not_opens hopens hvalid
  rw [hflag, Option.getD_some] at hrecords
  exact of_records hrecords hjobs

/-- A command begins. -/
theorem begin {c : Command} (h : Records name base cs (opened cs) t) (hjobs : t.jobs = [])
    (hbegin : t.begin env c = .next t') : Phase name base (cs ++ [c]) t' := by
  have hsize := h.size
  cases c with
  | channel initial block =>
    rw [Trial.begin] at hbegin
    obtain ⟨far, k, rfl⟩ := Trial.exists_of_connect hbegin
    refine .during (.handshaking initial block) (h.connect rfl far k _)
      [.task (.tell (.openedChannel k t.exchange.interactions.size))] (by simp [Job.IsMinor]) ?_
    rw [hjobs, hsize]
    rfl
  | single c =>
    cases c with
    | subscribe kind id payload =>
      rw [Trial.begin, Trial.instruct] at hbegin
      obtain ⟨far, k, rfl⟩ := Trial.exists_of_connect hbegin
      refine .during (.registering kind id payload) (h.connect ?_ far k _)
        [.task (.tell (.opened k kind payload t.exchange.interactions.size))]
        (by simp [Job.IsMinor]) ?_
      · cases kind <;> rfl
      · rw [hjobs, hsize]
        rfl
    | echoChannel initial =>
      rw [Trial.begin, Trial.instruct] at hbegin
      obtain ⟨far, k, rfl⟩ := Trial.exists_of_connect hbegin
      refine .during (.echoing initial) (h.connect rfl far k _)
        [.task (.tell (.openedChannel k t.exchange.interactions.size))] (by simp [Job.IsMinor]) ?_
      rw [hjobs]
      rfl
    | eof =>
      rw [Trial.begin, Trial.instruct] at hbegin
      obtain ⟨far, k, rfl⟩ := Trial.exists_of_connect hbegin
      have hopened : opened (cs ++ [.single .eof]) = opened cs + 1 := opened_concat ..
      have hrecords := (h.connect (x := Trial.subscriber .fireAndForget "EOF") rfl far k
        ([.task (.tell (.opened k .fireAndForget Payload.shutdown t.exchange.interactions.size)),
          .task (.own t.exchange.interactions.size (.request 1))] ++ t.jobs)).concat
        (.single .eof) rfl rfl rfl h.ids (List.append_nil _).symm rfl (List.append_nil _).symm
        (Bool.or_false _).symm rfl
      rw [← hopened] at hrecords
      refine .between hrecords ?_
      rw [hjobs]
      simp [Job.IsMinor]
    | pass =>
      cases hbegin
      exact of_flag h hjobs rfl rfl rfl
    | fail =>
      cases hbegin
      exact of_flag h hjobs rfl rfl rfl
    | malformed line reason => cases hbegin
    | await id w => exact of_plain h hjobs rfl rfl rfl hbegin
    | assert id k => exact of_plain h hjobs rfl rfl rfl hbegin
    | take n id => exact of_plain h hjobs rfl rfl rfl hbegin
    | request n id => exact of_plain h hjobs rfl rfl rfl hbegin
    | cancel id => exact of_plain h hjobs rfl rfl rfl hbegin
    | respond signals => exact of_plain h hjobs rfl rfl rfl hbegin
    | unknown line => exact of_plain h hjobs rfl rfl rfl hbegin

/-- An instruction of a block leaves minor jobs for the consumer of the channel, and then what is
left of the block. -/
theorem exists_of_instructBlock (i : Nat) (flag : Bool) (c : Instruction)
    (block : List Instruction) (t : Trial σ τ) :
    ∃ front : List (Job τ), (∀ j ∈ front, j.IsMinor (· = i)) ∧
      t.instructBlock i flag c block =
        t.push (front ++ [.block i (c.flag?.getD flag) block]) := by
  have hjobs := isMinor_consumerJobs (P := (· = i)) rfl c t
  cases c with
  | pass => exact ⟨[], by simp, rfl⟩
  | fail => exact ⟨[], by simp, rfl⟩
  | respond signals => exact ⟨[.play i signals], by simp [Job.IsMinor], rfl⟩
  | malformed line reason => exact ⟨[.reject i], by simp [Job.IsMinor], rfl⟩
  | subscribe | echoChannel | await | assert | take | request | cancel | eof | unknown =>
    exact ⟨_, hjobs, rfl⟩

/-- What is left of a command is done. -/
theorem of_last {begun : List Command} {n : Nat} {last : Job τ} {P : Nat → Prop}
    (hleft : Left base cs begun n last P) (h : Records name base cs n t) (hjobs : t.jobs = [])
    (hlast : t.perform env last = .next t') : Phase name base begun t' := by
  cases hleft with
  | all c => exact begin h hjobs hlast
  | registering kind id payload =>
    cases hlast
    have hopened : opened (cs ++ [.single (.subscribe kind id payload)]) = opened cs + 1 :=
      opened_concat ..
    rw [← hopened] at h
    refine of_records (h.concat (.single (.subscribe kind id payload)) rfl rfl rfl ?_ rfl rfl
      (List.append_nil _).symm (Bool.or_false _).symm rfl) hjobs
    intro p hp
    rcases List.mem_cons.mp hp with rfl | hp
    · simp
    · exact List.mem_append_left _ (h.ids p hp)
  | echoing initial =>
    cases hlast
    have hopened : opened (cs ++ [.single (.echoChannel initial)]) = opened cs + 1 :=
      opened_concat ..
    rw [← hopened] at h
    exact of_records (h.concat (.single (.echoChannel initial)) rfl rfl rfl h.ids
      (List.append_nil _).symm rfl (List.append_nil _).symm (Bool.or_true _).symm rfl) hjobs
  | handshaking initial block =>
    obtain ⟨-, rfl⟩ := Trial.next_of_handshake hlast
    refine .during (.blocking initial [] block) (h.congr rfl fun _ _ _ => rfl) []
      (List.forall_mem_nil _) ?_
    show [Job.block _ t.expected block] ++ t.jobs = _
    rw [hjobs, h.expected]
    rfl
  | blocking initial done block =>
    cases block with
    | nil =>
      cases hlast
      have hopened : opened (cs ++ [.channel initial done]) = opened cs + 1 := opened_concat ..
      rw [List.append_nil]
      rw [← hopened] at h
      exact of_records (h.concat (.channel initial done) rfl rfl rfl h.ids
        (List.append_nil _).symm rfl rfl (Bool.or_true _).symm rfl) hjobs
    | cons c block =>
      obtain ⟨front, hfront, hblock⟩ := exists_of_instructBlock (base + opened cs)
        (blockExpectation (expectation cs) done) c block t
      rw [Trial.perform, hblock, ← blockExpectation_concat] at hlast
      cases hlast
      have hphase : Left (τ := τ) base cs _ _ _ _ := .blocking initial (done ++ [c]) block
      rw [List.append_assoc, List.singleton_append] at hphase
      refine .during hphase (h.congr rfl fun _ _ _ => rfl) front hfront ?_
      show (front ++ [_]) ++ t.jobs = _
      rw [hjobs, List.append_nil]

/-- The first job is minor, or it is what is left of a command. -/
theorem minor_or_last (h : Phase name base cs t) (hjobs : t.jobs = j :: rest) :
    (j.IsMinor fun _ => True) ∨ rest = [] ∧ ∃ done n P, Left base done cs n j P ∧
      Records name base done n t := by
  cases h with
  | between h hall =>
    rw [hjobs] at hall
    exact Or.inl ((hall j List.mem_cons_self).mono fun _ _ => trivial)
  | during hleft h front hfront hall =>
    rcases front with _ | ⟨j', front⟩
    · obtain ⟨rfl, rfl⟩ := List.cons.inj (hjobs.symm.trans hall)
      exact Or.inr ⟨rfl, _, _, _, hleft, h⟩
    · obtain ⟨rfl, -⟩ := List.cons.inj (hjobs.symm.trans hall)
      exact Or.inl ((hfront j List.mem_cons_self).mono fun _ _ => trivial)

/-- Between two commands the records are complete. -/
theorem records (h : Phase name base cs t) (hjobs : t.jobs = []) :
    Records name base cs (opened cs) t := by
  cases h with
  | between h hall => exact h
  | during hleft h front hfront hall =>
    rw [hjobs] at hall
    simp at hall

/-- **A turn of the trial** leads from a phase to a phase. -/
theorem turn (h : Phase name base cs t) (hturn : t.turn env = .next t') :
    Phase name base cs t' := by
  unfold Trial.turn at hturn
  split at hturn
  · cases hturn
  · rename_i j rest hjobs
    rcases h.minor_or_last hjobs with hj | ⟨rfl, done, n, P, hleft, hrecords⟩
    · obtain ⟨new, hgoes, hnew⟩ := Trial.exists_of_minor hj hturn
      exact h.minor hjobs hj hgoes hnew
    · exact of_last hleft (hrecords.congr rfl fun _ _ _ => rfl) rfl hturn

/-- The beginning of a command faults if the command is malformed, or if it is refused a
connection. -/
theorem fails_of_begin {c : Command} {f : Fault} (hjobs : t.jobs = [])
    (hbegin : t.begin env c = .faulted f t') :
    Fails env name c f 0 ∧ t'.connections = t.connections := by
  cases c with
  | channel initial block =>
    rw [Trial.begin] at hbegin
    obtain ⟨⟨far', hdial⟩, hconnections⟩ := Trial.exists_of_connect_faulted hjobs hbegin
    exact ⟨.refused rfl hdial, hconnections⟩
  | single c =>
    rw [Trial.begin] at hbegin
    cases c with
    | subscribe | echoChannel | eof =>
      rw [Trial.instruct] at hbegin
      obtain ⟨⟨far', hdial⟩, hconnections⟩ := Trial.exists_of_connect_faulted hjobs hbegin
      exact ⟨.refused rfl hdial, hconnections⟩
    | malformed line reason =>
      cases hbegin
      exact ⟨.malformed line reason, rfl⟩
    | pass | fail => cases hbegin
    | await | assert | take | request | cancel | respond | unknown =>
      simp only [Trial.instruct] at hbegin
      split at hbegin <;> cases hbegin

/-- **A command that faults** has one of the reasons for that. -/
theorem fault {f : Fault} (h : Phase name base cs t) (hturn : t.turn env = .faulted f t') :
    ∃ pre c made, cs = pre ++ [c] ∧ Fails env name c f made ∧
      (∀ c' ∈ pre, c'.isMalformed = false) ∧ t'.connections.length = opened pre + made := by
  unfold Trial.turn at hturn
  split at hturn
  · cases hturn
  · rename_i j rest hjobs
    rcases h.minor_or_last hjobs with hj | ⟨rfl, done, n, P, hleft, hrecords⟩
    · obtain ⟨⟨i, flag, block, hblock⟩, rfl, rfl⟩ := Trial.faulted_of_minor hj hturn
      have hmem : Job.block i flag block ∈ t.jobs := by
        rw [hjobs]
        exact List.mem_cons_of_mem _ hblock
      -- The block is what is left of the command, as it is no minor job.
      cases h with
      | between h hall => cases hall _ hmem
      | during hleft h front hfront hall =>
        rw [hall] at hmem
        rcases List.mem_append.mp hmem with hmem | hmem
        · cases hfront _ hmem
        · obtain rfl := List.mem_singleton.mp hmem
          have hname := h.name
          subst hname
          cases hleft with
          | blocking initial done block =>
            exact ⟨_, _, 1, rfl, .aborted initial _, h.valid, h.connections⟩
    · cases hleft with
      | all c =>
        obtain ⟨hfails, hconnections⟩ := fails_of_begin rfl hturn
        refine ⟨done, c, 0, rfl, hfails, hrecords.valid, ?_⟩
        rw [hconnections]
        exact hrecords.connections
      | registering | echoing => cases hturn
      | handshaking initial block =>
        rw [Trial.perform] at hturn
        split at hturn
        · split at hturn <;> cases hturn
        · cases hturn
      | blocking initial finished block => cases block <;> cases hturn

end Phase
end StreamConformance
