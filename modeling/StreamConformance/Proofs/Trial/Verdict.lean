import Mathlib.Algebra.GroupWithZero.Nat
import StreamConformance.Proofs.Trial.Phases

/-!
# The verdict on a test

The result of a session is the fault of the first command that fails, or else what all the
commands together call for.  Other threads and the far side have no say in this, except that they
decide which connections are made, what panics and which assertions hold.

* `Session.FailedAt`, `Session.Completed`: the two ways in which a session ends.
* `Session.verdict_law`: every session that ends does so in one of them.
-/

namespace StreamConformance

open Script

variable {σ τ : Type} {env : Environment σ τ}

namespace Trial

/-- Where a command begins, no ledger changes. -/
theorem ledger_begin {c : Command} {t t' : Trial σ τ} (h : t.begin env c = .next t') (i : Nat) :
    t'.exchange.ledger i = t.exchange.ledger i := by
  cases c with
  | channel initial block =>
    rw [begin] at h
    obtain ⟨far, k, rfl⟩ := exists_of_connect h
    exact Exchange.ledger_enter rfl _ i
  | single c =>
    rw [begin] at h
    cases c with
    | subscribe kind id payload =>
      rw [instruct] at h
      obtain ⟨far, k, rfl⟩ := exists_of_connect h
      refine Exchange.ledger_enter ?_ _ i
      cases kind <;> rfl
    | echoChannel | eof =>
      rw [instruct] at h
      obtain ⟨far, k, rfl⟩ := exists_of_connect h
      exact Exchange.ledger_enter rfl _ i
    | pass | fail =>
      cases h
      rfl
    | malformed => cases h
    | await | assert | take | request | cancel | respond | unknown =>
      simp only [instruct] at h
      split at h <;> cases h <;> rfl

/-- What a turn enters into ledgers is the assertion that the trial was about to evaluate. -/
theorem ledger_turn {t t' : Trial σ τ} (h : t.turn env = .next t') (i : Nat) :
    t'.exchange.ledger i = (t.exchange.ledger i).after t.assertion? i := by
  unfold turn at h
  split at h
  · cases h
  · rename_i j jobs hjobs
    have hassertion : t.assertion? = j.assertion? t := by
      rw [assertion?, hjobs]
      rfl
    rw [hassertion]
    have hminor : (j.IsMinor fun _ => True) →
        t'.exchange.ledger i = (t.exchange.ledger i).after (j.assertion? t) i := fun hj => by
      obtain ⟨new, hgoes, -⟩ := exists_of_minor hj h
      exact hgoes.ledger i
    cases j with
    | task | wait | play | check | reject | window => exact hminor trivial
    | command c => exact ledger_begin (t := { t with jobs := jobs }) h i
    | register | echoOpened =>
      cases h
      rfl
    | handshake i' block =>
      obtain ⟨-, rfl⟩ := next_of_handshake h
      rfl
    | block i' flag block =>
      cases block with
      | nil =>
        cases h
        rfl
      | cons c block =>
        obtain ⟨front, -, hblock⟩ := Phase.exists_of_instructBlock i' flag c block { t with jobs := jobs }
        rw [perform, hblock] at h
        cases h
        rfl

end Trial

namespace Session

variable {name : String} {e : Exchange σ} {base : Nat} {commands pre post : List Command} {c : Command}
  {f : Fault} {s s' : Session σ τ} {r : Except Fault Verdict}

/-- The ledgers of the interactions from `base` on count the assertions that failed. -/
def Counts (base : Nat) (s : Session σ τ) : Prop :=
  ∀ i, base ≤ i →
    (s.trial.exchange.ledger i).failed = UInt32.ofNat (s.asserted.count (i, false))

theorem Counts.after (h : Counts base s) {t : Trial σ τ} {a : Option (Nat × Bool)}
    (ht : ∀ i, t.exchange.ledger i = (s.trial.exchange.ledger i).after a i) :
    Counts base { s with trial := t, asserted := s.asserted ++ a.toList } := by
  intro i hi
  show (t.exchange.ledger i).failed = UInt32.ofNat ((s.asserted ++ a.toList).count (i, false))
  have hcount : a.toList.count (i, false) = if a = some (i, false) then 1 else 0 := by
    rcases a with _ | a
    · rfl
    · rw [Option.toList_some, List.count_singleton]
      simp
  rw [ht, Ledger.failed_after, h i hi, List.count_append, hcount, UInt32.ofNat_add]
  split <;> rfl

theorem Counts.of_ledger (h : Counts base s)
    (hs : ∀ i, s'.trial.exchange.ledger i = s.trial.exchange.ledger i)
    (hasserted : s'.asserted = s.asserted) : Counts base s' := by
  intro i hi
  rw [hs, hasserted, h i hi]

/-- The session ended with the fault `f` of the command `c`, and all before it were carried out.
What comes behind it has had no effect. -/
structure FailedAt (env : Environment σ τ) (name : String) (e : Exchange σ) (pre : List Command)
    (c : Command) (f : Fault) (s : Session σ τ) : Prop where
  fails : ∃ made, Fails env name c f made ∧ s.trial.connections.length = opened pre + made
  valid : ∀ c' ∈ pre, c'.isMalformed = false
  unaffected : ∀ post, ∃ s', Reach env (start name e (pre ++ c :: post)) s' ∧
    s'.trial = s.trial ∧ s'.result = s.result

/-- The session ended with the result `r` of all commands. -/
structure Completed (name : String) (base : Nat) (commands : List Command) (s : Session σ τ)
    (r : Except Fault Verdict) : Prop where
  valid : ∀ c ∈ commands, c.isMalformed = false
  connections : s.trial.connections.length = opened commands
  /-- An interaction has passed if no assertion about it has failed, as far as a ledger of 32 bits
  can count them. -/
  passed : ∀ i, base ≤ i →
    (s.trial.hasPassed i = true ↔ 2 ^ 32 ∣ s.asserted.count (i, false))
  lawful : Lawful name base commands s.trial.hasPassed r

/-- What is known of a session at any time. -/
inductive Status (env : Environment σ τ) (name : String) (e : Exchange σ)
    (commands : List Command) (s : Session σ τ) : Prop where
  | running (begun : List Command) (hopen : s.result = none)
      (hphase : Phase name e.interactions.size begun s.trial)
      (hcommands : commands = begun ++ s.commands) (hcounts : Counts e.interactions.size s)
      (hreach : ∀ post, Reach env (start name e (begun ++ post)) { s with commands := post })
  | failed {pre post : List Command} {c : Command} {f : Fault}
      (hresult : s.result = some (.error f)) (hcommands : commands = pre ++ c :: post)
      (h : FailedAt env name e pre c f s)
  | completed {r : Except Fault Verdict} (hresult : s.result = some r)
      (h : Completed name e.interactions.size commands s r)

/-- Others do not change what is known of a session. -/
theorem Status.of_exchange (h : Status env name e commands s) (g : Exchange σ → Exchange σ)
    (hsize : ∀ x, (g x).interactions.size = x.interactions.size)
    (hledger : ∀ x i, (g x).ledger i = x.ledger i)
    (hstep : ∀ s : Session σ τ,
      Step env s { s with trial := { s.trial with exchange := g s.trial.exchange } }) :
    Status env name e commands
      { s with trial := { s.trial with exchange := g s.trial.exchange } } := by
  have hpassed : ∀ i, Trial.hasPassed { s.trial with exchange := g s.trial.exchange } i =
      s.trial.hasPassed i := fun i => by
    rw [Trial.hasPassed_eq, Trial.hasPassed_eq, hledger]
  cases h with
  | running begun hopen hphase hcommands hcounts hreach =>
    exact .running begun hopen
      (hphase.push (hsize _) (hledger _) (List.forall_mem_nil _)) hcommands
      (hcounts.of_ledger (fun i => hledger _ i) rfl) fun post => (hreach post).tail (hstep _)
  | failed hresult hcommands h =>
    refine .failed hresult hcommands ⟨h.fails, h.valid, fun post => ?_⟩
    obtain ⟨s', hs', htrial, hresult'⟩ := h.unaffected post
    refine ⟨_, hs'.tail (hstep s'), ?_, hresult'⟩
    rw [htrial]
  | completed hresult h =>
    refine .completed hresult ⟨h.valid, h.connections, fun i hi => ?_, ?_⟩
    · rw [hpassed]
      exact h.passed i hi
    · rw [show Trial.hasPassed { s.trial with exchange := g s.trial.exchange } =
        s.trial.hasPassed from funext hpassed]
      exact h.lawful

theorem Status.of_open (h : Status env name e commands s) (hopen : s.result = none) :
    ∃ begun, Phase name e.interactions.size begun s.trial ∧ commands = begun ++ s.commands ∧
      Counts e.interactions.size s ∧
        ∀ post, Reach env (start name e (begun ++ post)) { s with commands := post } := by
  cases h with
  | running begun _ hphase hcommands hcounts hreach => exact ⟨begun, hphase, hcommands, hcounts, hreach⟩
  | failed hresult | completed hresult =>
    rw [hopen] at hresult
    cases hresult

/-- Every step keeps what is known of a session. -/
theorem Status.step (h : Status env name e commands s) (hstep : Step env s s') :
    Status env name e commands s' := by
  cases hstep with
  | thread t =>
    exact h.of_exchange (fun x => (x.perform env t).1) (Exchange.size_perform env t)
      (Exchange.ledger_perform env t) fun s => .thread t
  | outside far =>
    exact h.of_exchange (fun x => { x with far := far }) (fun _ => rfl) (fun _ _ => rfl) fun s =>
      .outside far
  | turn hopen hturn =>
    obtain ⟨begun, hphase, hcommands, hcounts, hreach⟩ := h.of_open hopen
    exact .running begun hopen (hphase.turn hturn) hcommands (hcounts.after (Trial.ledger_turn hturn))
      fun post => (hreach post).tail (.turn hopen hturn)
  | window hopen hjobs =>
    obtain ⟨begun, hphase, hcommands, hcounts, hreach⟩ := h.of_open hopen
    have hgoes := Trial.goes_closeWindow hjobs
    have hgoes' := hgoes
    rw [Trial.assertion?, hjobs] at hgoes'
    exact .running begun hopen (hphase.minor hjobs trivial hgoes' fun j hj => by cases hj) hcommands
      (hcounts.after hgoes.ledger) fun post => (hreach post).tail (.window hopen hjobs)
  | interrupt hopen hblocked far calls =>
    obtain ⟨begun, hphase, hcommands, hcounts, hreach⟩ := h.of_open hopen
    refine .running begun hopen (hphase.push rfl (fun _ => rfl) ?_) hcommands
      (hcounts.of_ledger (fun _ => rfl) rfl) fun post =>
        (hreach post).tail
          (.interrupt (s := { s with commands := post }) hopen hblocked far calls)
    intro j hj
    obtain ⟨call, -, rfl⟩ := List.mem_map.mp hj
    trivial
  | @command c left hopen hjobs hleft =>
    obtain ⟨begun, hphase, hcommands, hcounts, hreach⟩ := h.of_open hopen
    have hrecords := hphase.records hjobs
    refine .running (begun ++ [c]) hopen
      (.during (.all c) (hrecords.congr rfl fun _ _ _ => rfl) [] (by simp) rfl) ?_
      (hcounts.of_ledger (fun _ => rfl) rfl) fun post => ?_
    · rw [hcommands, hleft, List.append_assoc]
      rfl
    · rw [List.append_assoc]
      exact (hreach (c :: post)).tail (.command hopen hjobs rfl)
  | fault hopen hturn =>
    obtain ⟨begun, hphase, hcommands, hcounts, hreach⟩ := h.of_open hopen
    obtain ⟨pre, c, made, rfl, hfails, hvalid, hconnections⟩ := hphase.fault hturn
    refine .failed rfl (hcommands.trans (List.append_assoc ..))
      ⟨⟨made, hfails, hconnections⟩, hvalid, fun post => ?_⟩
    have hpost := (hreach post).tail (.fault hopen hturn)
    rw [List.append_assoc] at hpost
    exact ⟨_, hpost, rfl, rfl⟩
  | finish hopen hjobs hleft =>
    obtain ⟨begun, hphase, hcommands, hcounts, hreach⟩ := h.of_open hopen
    rw [hleft, List.append_nil] at hcommands
    subst hcommands
    have hrecords := hphase.records hjobs
    refine .completed rfl ⟨hrecords.valid, hrecords.connections, fun i hi => ?_, hrecords.lawful⟩
    rw [Trial.hasPassed_eq, beq_iff_eq, hcounts i hi, ← UInt32.toNat_inj, UInt32.toNat_ofNat',
      UInt32.toNat_zero, Nat.dvd_iff_mod_eq_zero]

end Session
end StreamConformance
