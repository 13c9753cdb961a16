import StreamConformance.Proofs.Trial.Order
import StreamConformance.Proofs.Trial.Verdict

/-!
# What a trial has still to find out

What a command asserts can be read off the command, once it is known which interactions the ids
stand for; and what a trial has still to evaluate can be read off its jobs.  An evaluation is a
`Finding`, which is `IsJust` if it is right about the consumer as it is at that moment.

* `Command.due`, `Trial.due`: the assertions that a command makes, and those that a trial has still
  to evaluate.
* `Receiver.check_iff`: when an assertion holds.
* `Trial.advances_of_turn`: a turn evaluates the first assertion that is due, or it leaves all
  ledgers and all that is due as they were.
-/

namespace StreamConformance

open Script (Check Command Instruction)

variable {σ τ : Type}

/-! ## What commands assert -/

namespace Script

/-- What may be asserted of a consumer. -/
inductive Assertion where
  | check (k : Check)
  /-- Nothing happens during a window, in milliseconds. -/
  | quiet (milliseconds : Nat)
  /-- A line that could not be understood.  It never holds. -/
  | malformed
  deriving DecidableEq

def Instruction.assertion? : Instruction → Option Assertion
  | .assert _ k => some (.check k)
  | .await _ (.noEvents ms) => some (.quiet ms)
  | _ => none

/-- The same in the block of a channel. -/
def Instruction.blockAssertion? : Instruction → Option Assertion
  | .malformed .. => some .malformed
  | c => c.assertion?

/-- The assertions of a block about the consumer of the interaction `i`, whatever ids it has. -/
def blockAssertions (i : Nat) (block : List Instruction) : List (Nat × Assertion) :=
  (block.filterMap Instruction.blockAssertion?).map (Prod.mk i)

namespace Command

/-- The assertions that a command makes, in order, each with the interaction that it is about.  What
the command opens is the interaction `n`, and `known` tells what the ids stand for. -/
def due (n : Nat) (known : String → Option Nat) : Command → List (Nat × Assertion)
  | .single (.assert id k) => ((known id).map fun i => (i, .check k)).toList
  | .single (.await id (.noEvents ms)) => ((known id).map fun i => (i, .quiet ms)).toList
  | .single _ => []
  | .channel _ block => blockAssertions n block

/-- A command that is no channel asserts something of the consumer that it names. -/
theorem due_single (n : Nat) (known : String → Option Nat) (c : Instruction) :
    (single c).due n known = (((Trial.namedConsumer? c).bind known).bind fun i =>
      c.assertion?.map (Prod.mk i)).toList := by
  cases c with
  | assert id k =>
    show ((known id).map _).toList = ((known id).bind _).toList
    cases known id <;> rfl
  | await id w =>
    show _ = ((known id).bind _).toList
    cases w <;> cases h : known id <;> simp [due, h, Instruction.assertion?]
  | take n id | request n id | cancel id =>
    show [] = ((known id).bind _).toList
    cases known id <;> rfl
  | subscribe | echoChannel | respond | eof | pass | fail | unknown | malformed => rfl

/-- The command opens the interaction `n` and has its consumer known by an id. -/
def registration? (n : Nat) : Command → Option (String × Nat)
  | .single (.subscribe _ id _) => some (id, n)
  | _ => none

def subscribesTo (id : String) : Command → Bool
  | .single (.subscribe _ id' _) => id' == id
  | _ => false

end Command

/-- The interaction most recently registered under an id.  The commands `done` were carried out;
with each of them stands the number of interactions that were open before. -/
def latest? (done : List (Command × Nat)) (id : String) : Option Nat :=
  (done.reverse.find? fun x => x.1.subscribesTo id).map Prod.snd

theorem latest?_concat (done : List (Command × Nat)) (c : Command) (n : Nat) (id : String) :
    latest? (done ++ [(c, n)]) id = if c.subscribesTo id then some n else latest? done id := by
  rw [latest?, List.reverse_append, List.reverse_singleton, List.singleton_append, List.find?_cons]
  cases c.subscribesTo id <;> rfl

end Script

open Script (Assertion blockAssertions)

/-! ## Evaluations -/

namespace Receiver

/-- How the stream ended. -/
def terminal (r : Receiver) : Option Terminal :=
  r.view fun c => c.terminal

/-- How many items were received. -/
def received (r : Receiver) : Nat :=
  r.view fun c => c.received

/-- How much has happened. -/
def events (r : Receiver) : Nat :=
  r.view fun c => c.events

/-- The payloads received, in order, if the interaction has payloads. -/
def values? : Receiver → Option (List Payload)
  | .payloads c => some c.values
  | .units _ => none

/-- What an assertion says of a receiver. -/
def Meets (r : Receiver) : Check → Prop
  | .noError => ∀ message, r.terminal ≠ some (.errored message)
  | .error => ∃ message, r.terminal = some (.errored message)
  | .completed => r.terminal = some .completed
  | .notCompleted => r.terminal ≠ some .completed
  | .canceled => r.terminal = some .canceled
  | .received expected => r.values? = some expected
  | .receivedCount n => r.received = n
  | .receivedAtLeast n => n ≤ r.received

theorem satisfies_iff {ι : Type} (c : Consumer ι Handle Target) (r : Receiver)
    (hterminal : r.terminal = c.terminal) (hreceived : r.received = c.received) (k : Check)
    (hk : ∀ expected, k ≠ .received expected) : c.satisfies k = true ↔ r.Meets k := by
  unfold Consumer.satisfies Meets
  rw [hterminal, hreceived]
  cases k with
  | received expected => exact absurd rfl (hk expected)
  | noError | error => rcases c.terminal with _ | _ | _ | _ <;> simp
  | completed | notCompleted | canceled | receivedCount | receivedAtLeast => simp

/-- **An assertion holds exactly if the receiver meets it.**  Without payloads none are received. -/
theorem check_iff (r : Receiver) (k : Check) : (r.check k).2 = true ↔ r.Meets k := by
  by_cases hk : ∃ expected, k = .received expected
  · obtain ⟨expected, rfl⟩ := hk
    cases r with
    | payloads c => simp [check, Meets, values?, Consumer.hasValues]
    | units c => simp [check, Meets, values?, Consumer.satisfies]
  · have hstate : ∀ expected, k ≠ .received expected := fun expected h => hk ⟨expected, h⟩
    cases r with
    | payloads c =>
      have hcheck : (check k (.payloads c)).2 = c.satisfies k := by
        cases k with
        | received expected => exact absurd rfl (hstate expected)
        | _ => rfl
      rw [hcheck]
      exact satisfies_iff c _ rfl rfl k hstate
    | units c => exact satisfies_iff c _ rfl rfl k hstate

end Receiver

/-- An assertion about an interaction was evaluated. -/
structure Finding where
  about : Nat
  assertion : Assertion
  holds : Bool

namespace Finding

/-- What was to be found out. -/
def subject (x : Finding) : Nat × Assertion :=
  (x.about, x.assertion)

/-- What is entered into a ledger. -/
def entry (x : Finding) : Nat × Bool :=
  (x.about, x.holds)

/-- The finding is right about the consumer as the trial `t` has it. -/
def IsJust (x : Finding) (t : Trial σ τ) : Prop :=
  ∃ r, t.receiver? x.about = some r ∧
    match x.assertion with
    | .check k => x.holds = true ↔ r.Meets k
    | .quiet ms => ∃ baseline jobs, t.jobs = .window x.about baseline ms :: jobs ∧
        (x.holds = true ↔ r.events = baseline)
    | .malformed => x.holds = false

end Finding

/-! ## What is left to be found out -/

namespace Job

/-- The assertions that a job leads to, where `n` interactions are open and `known` tells what the
ids stand for. -/
def due (n : Nat) (known : String → Option Nat) : Job τ → List (Nat × Assertion)
  | .command c => c.due n known
  | .handshake i instructions => blockAssertions i instructions
  | .block i _ instructions => blockAssertions i instructions
  | .check i k => [(i, .check k)]
  | .reject i => [(i, .malformed)]
  | .window i _ ms => [(i, .quiet ms)]
  | _ => []

/-- The consumer that a job leads to have known by an id. -/
def registration? (n : Nat) : Job τ → Option (String × Nat)
  | .command c => c.registration? n
  | .register id i => some (id, i)
  | _ => none

/-- The interaction that a job of the trial has been given. -/
def subject? : Job τ → Option Nat
  | .register _ i => some i
  | .handshake i _ => some i
  | .block i _ _ => some i
  | .check i _ => some i
  | .reject i => some i
  | .window i _ _ => some i
  | _ => none

variable {n : Nat} {known : String → Option Nat} {j : Job τ}

theorem IsMinor.registration? {P : Nat → Prop} (h : j.IsMinor P) : j.registration? n = none := by
  cases j with
  | task | wait | play | check | reject | window => rfl
  | command | register | echoOpened | handshake | block => cases h

/-- A minor job has been given an interaction only to assert something about it. -/
theorem IsMinor.of_subject? {P : Nat → Prop} (h : j.IsMinor P) {i : Nat}
    (hi : j.subject? = some i) : P i := by
  cases j with
  | task | wait | play => cases hi
  | check i' | reject i' | window i' =>
    obtain rfl := Option.some.inj hi
    exact h
  | command | register | echoOpened | handshake | block => cases h

/-- What tasks leave to be done is no assertion. -/
theorem IsMinor.due_eq_nil (h : j.IsMinor fun _ => False) : j.due n known = [] := by
  cases j with
  | task | wait | play => rfl
  | check | reject | window | command | register | echoOpened | handshake | block => cases h

end Job

namespace Trial

/-- The assertions that a trial has still to evaluate. -/
def due (t : Trial σ τ) : List (Nat × Assertion) :=
  t.jobs.flatMap (Job.due t.exchange.interactions.size t.lookup?)

/-- The consumers that a trial has still to have known by ids. -/
def registrations (t : Trial σ τ) : List (String × Nat) :=
  t.jobs.filterMap (Job.registration? t.exchange.interactions.size)

/-- Everything that a trial knows by a number is open, and only the last of its jobs is more than a
minor one. -/
structure IsTidy (t : Trial σ τ) : Prop where
  ids : ∀ p ∈ t.ids, p.2 < t.exchange.interactions.size
  subjects : ∀ j ∈ t.jobs, ∀ i, j.subject? = some i → i < t.exchange.interactions.size
  order : t.jobs.Pairwise fun j _ => j.IsMinor fun _ => True

theorem IsTidy.lt_of_lookup? {t : Trial σ τ} (h : t.IsTidy) {id : String} {i : Nat}
    (hi : t.lookup? id = some i) : i < t.exchange.interactions.size := by
  obtain ⟨p, hp, rfl⟩ := Option.map_eq_some_iff.mp hi
  exact h.ids p (List.mem_of_find?_eq_some hp)

theorem registrations_of_jobs {t : Trial σ τ} {j : Job τ} (h : t.jobs = [j]) :
    t.registrations = (j.registration? t.exchange.interactions.size).toList := by
  rw [registrations, h]
  cases hj : j.registration? t.exchange.interactions.size <;> simp [hj]

/-- A command that subscribes has the id stand for what it opens. -/
theorem lookup?_of_registration? {t t' : Trial σ τ} {c : Command} {n : Nat}
    (h : t'.ids = (c.registration? n).toList ++ t.ids) (id : String) :
    t'.lookup? id = if c.subscribesTo id then some n else t.lookup? id := by
  rw [lookup?, lookup?, h]
  rcases c with ⟨_ | _ | _⟩ | _
  case single.subscribe kind id' payload =>
    by_cases hid : id' = id <;> simp [Command.registration?, Command.subscribesTo, hid]
  all_goals rfl

theorem exists_receiver? {t : Trial σ τ} {i : Nat} (h : i < t.exchange.interactions.size) :
    ∃ r, t.receiver? i = some r := by
  rw [receiver?, Array.getElem?_eq_getElem h]
  exact ⟨_, rfl⟩

/-- The trial `t'` comes of `t`, and `found` is what was found out meanwhile. -/
structure Advances (t : Trial σ τ) (found : Option Finding) (t' : Trial σ τ) : Prop where
  tidy : t'.IsTidy
  due : t.due = found.toList.map Finding.subject ++ t'.due
  just : ∀ x, found = some x → x.IsJust t
  ledger : ∀ j, t'.exchange.ledger j = (t.exchange.ledger j).after (found.map Finding.entry) j
  /-- What is to be known by an id is so at the end. -/
  ids : t'.ids = t.ids ∧ t'.registrations = t.registrations ∨
    t'.jobs = [] ∧ t'.ids = t.registrations ++ t.ids

variable {env : Environment σ τ} {t t' : Trial σ τ} {j : Job τ} {new rest : List (Job τ)}

/-! ### Minor jobs -/

/-- Tasks in front of what is to be done change nothing of what is due. -/
theorem IsTidy.push (h : IsTidy { t with jobs := rest }) (t' : Trial σ τ) (hids : t'.ids = t.ids)
    (hsize : t'.exchange.interactions.size = t.exchange.interactions.size)
    (hjobs : t'.jobs = new ++ rest) (hnew : ∀ j ∈ new, j.IsMinor fun _ => False) :
    t'.IsTidy ∧ t'.due = due { t with jobs := rest } ∧
      t'.registrations = registrations { t with jobs := rest } := by
  have hlookup : t'.lookup? = t.lookup? := by
    funext id
    rw [lookup?, lookup?, hids]
  refine ⟨⟨?_, ?_, ?_⟩, ?_, ?_⟩
  · rw [hids, hsize]
    exact h.ids
  · rw [hjobs, hsize]
    intro j hj i hi
    rcases List.mem_append.mp hj with hj | hj
    · exact ((hnew j hj).of_subject? hi).elim
    · exact h.subjects j hj i hi
  · rw [hjobs, List.pairwise_append]
    refine ⟨?_, h.order, fun j hj _ _ => (hnew j hj).mono fun _ hf => hf.elim⟩
    exact List.pairwise_of_forall_mem_list fun j hj _ _ => (hnew j hj).mono fun _ hf => hf.elim
  · rw [due, due, hjobs, List.flatMap_append, hsize, hlookup]
    have hnil : new.flatMap (Job.due t.exchange.interactions.size t.lookup?) = [] :=
      List.flatMap_eq_nil_iff.mpr fun j hj => (hnew j hj).due_eq_nil
    rw [hnil]
    rfl
  · rw [registrations, registrations, hjobs, List.filterMap_append, hsize]
    have hnil : new.filterMap (Job.registration? t.exchange.interactions.size) = [] :=
      List.filterMap_eq_nil_iff.mpr fun j hj => (hnew j hj).registration?
    rw [hnil]
    rfl

/-- What a minor job finds out. -/
theorem exists_finding (htidy : t.IsTidy) (hjobs : t.jobs = j :: rest)
    (hj : j.IsMinor fun _ => True) (n : Nat) (known : String → Option Nat) :
    ∃ found : Option Finding, j.due n known = found.toList.map Finding.subject ∧
      j.assertion? t = found.map Finding.entry ∧ ∀ x, found = some x → x.IsJust t := by
  have hreceiver : ∀ i, j.subject? = some i → ∃ r, t.receiver? i = some r := fun i hi =>
    exists_receiver? (htidy.subjects j (by rw [hjobs]; exact List.mem_cons_self) i hi)
  cases j with
  | task | wait | play => exact ⟨none, rfl, rfl, by simp⟩
  | check i k =>
    obtain ⟨r, hr⟩ := hreceiver i rfl
    refine ⟨some ⟨i, .check k, (r.check k).2⟩, rfl, ?_, ?_⟩
    · rw [Job.assertion?, hr]
      rfl
    · rintro x ⟨rfl⟩
      exact ⟨r, hr, r.check_iff k⟩
  | reject i =>
    obtain ⟨r, hr⟩ := hreceiver i rfl
    refine ⟨some ⟨i, .malformed, false⟩, rfl, ?_, ?_⟩
    · rw [Job.assertion?, hr]
      rfl
    · rintro x ⟨rfl⟩
      exact ⟨r, hr, rfl⟩
  | window i baseline ms =>
    obtain ⟨r, hr⟩ := hreceiver i rfl
    refine ⟨some ⟨i, .quiet ms, r.view fun c => c.isQuietSince baseline⟩, rfl, ?_, ?_⟩
    · rw [Job.assertion?, hr]
      rfl
    · rintro x ⟨rfl⟩
      refine ⟨r, hr, baseline, rest, hjobs, ?_⟩
      cases r <;> exact beq_iff_eq
  | command | register | echoOpened | handshake | block => cases hj

/-- A minor job finds out what it is to find out, if anything. -/
theorem advances_of_minor (htidy : t.IsTidy) (hjobs : t.jobs = j :: rest)
    (hj : j.IsMinor fun _ => True)
    (hgoes : Goes { t with jobs := rest } (j.assertion? t) new t')
    (hnew : ∀ j ∈ new, j.IsMinor fun _ => False) : ∃ found, t.Advances found t' := by
  obtain ⟨found, hdue, hassertion, hjust⟩ :=
    exists_finding htidy hjobs hj t.exchange.interactions.size t.lookup?
  have hrest : IsTidy { t with jobs := rest } :=
    { ids := htidy.ids
      subjects := fun j' hj' =>
        htidy.subjects j' (by rw [hjobs]; exact List.mem_cons_of_mem _ hj')
      order := by
        have horder := htidy.order
        rw [hjobs] at horder
        exact horder.of_cons }
  have hids : t'.ids = t.ids := by rw [hgoes.eq]
  obtain ⟨htidy', hdue', hregistrations⟩ :=
    hrest.push t' hids hgoes.size (by rw [hgoes.eq]) hnew
  refine ⟨found, htidy', ?_, hjust, ?_, Or.inl ⟨hids, ?_⟩⟩
  · rw [hdue', due, hjobs, List.flatMap_cons, hdue]
    rfl
  · intro i
    rw [hgoes.ledger, hassertion]
  · rw [hregistrations, registrations, registrations, hjobs,
      List.filterMap_cons_none hj.registration?]

/-! ### The other jobs -/

/-- What an instruction leaves to be done for a consumer. -/
theorem due_consumerJobs (n : Nat) (known : String → Option Nat) (i : Nat) (c : Instruction)
    (t : Trial σ τ) : (t.consumerJobs i c).flatMap (Job.due n known) =
      (c.assertion?.map (Prod.mk i)).toList := by
  cases c with
  | await id w => cases w <;> rfl
  | _ => rfl

/-- What is due in a block, once its next instruction is carried out. -/
theorem due_instructBlock (i : Nat) (flag : Bool) (c : Instruction) (block : List Instruction)
    (h : t.jobs = []) : (t.instructBlock i flag c block).due = blockAssertions i (c :: block) := by
  have hcons : blockAssertions i (c :: block) =
      (c.blockAssertion?.map (Prod.mk i)).toList ++ blockAssertions i block := by
    rw [blockAssertions, blockAssertions, List.filterMap_cons]
    cases c.blockAssertion? <;> rfl
  rw [hcons, due]
  cases c with
  | pass | fail | respond =>
    show (_ ++ t.jobs).flatMap _ = _
    rw [h]
    exact List.append_nil _
  | malformed =>
    show (_ ++ t.jobs).flatMap _ = _
    rw [h]
    exact congrArg (List.cons _) (List.append_nil _)
  | subscribe | echoChannel | await | assert | take | request | cancel | eof | unknown =>
    show ((t.consumerJobs i _ ++ [Job.block i flag block]) ++ t.jobs).flatMap _ = _
    rw [h, List.append_nil, List.flatMap_append, due_consumerJobs, List.flatMap_singleton]
    rfl

section Last

variable {l : List (Job τ)} {last : Job τ} {P : Nat → Prop}

/-- The last job finds out nothing itself. -/
theorem advances_of_last (hjobs : t.jobs = [j]) (hnone : j.assertion? t = none)
    (hturn : t.turn env = .next t') (htidy : t'.IsTidy)
    (hdue : t'.due = j.due t.exchange.interactions.size t.lookup?)
    (hids : t'.ids = t.ids ∧
        t'.registrations = (j.registration? t.exchange.interactions.size).toList ∨
      t'.jobs = [] ∧ t'.ids = (j.registration? t.exchange.interactions.size).toList ++ t.ids) :
    t.Advances none t' := by
  constructor
  · exact htidy
  · rw [hdue, due, hjobs, List.flatMap_singleton]
    rfl
  · simp
  · intro i
    rw [ledger_turn hturn i, assertion?, hjobs]
    show (t.exchange.ledger i).after (j.assertion? t) i = _
    rw [hnone]
    rfl
  · rw [registrations_of_jobs hjobs]
    exact hids

/-- Nothing is left. -/
theorem advances_of_done (htidy : t.IsTidy) (hjobs : t.jobs = [j]) (hnone : j.assertion? t = none)
    (hdue : j.due t.exchange.interactions.size t.lookup? = []) (hturn : t.turn env = .next t')
    (hsize : t'.exchange.interactions.size = t.exchange.interactions.size) (hjobs' : t'.jobs = [])
    (hids : t'.ids = (j.registration? t.exchange.interactions.size).toList ++ t.ids)
    (hlt : ∀ p, j.registration? t.exchange.interactions.size = some p →
      p.2 < t.exchange.interactions.size) : t.Advances none t' := by
  refine advances_of_last hjobs hnone hturn ⟨?_, ?_, ?_⟩ ?_ (Or.inr ⟨hjobs', hids⟩)
  · rw [hids, hsize]
    intro p hp
    rcases List.mem_append.mp hp with hp | hp
    · exact hlt p (Option.mem_toList.mp hp)
    · exact htidy.ids p hp
  · rw [hjobs']
    exact List.forall_mem_nil _
  · rw [hjobs']
    exact List.Pairwise.nil
  · rw [hdue, due, hjobs']
    rfl

/-- Something is left, behind minor jobs. -/
theorem advances_of_left (htidy : t.IsTidy) (hjobs : t.jobs = [j]) (hnone : j.assertion? t = none)
    (hturn : t.turn env = .next t')
    (hsize : t.exchange.interactions.size ≤ t'.exchange.interactions.size)
    (hids : t'.ids = t.ids) (hjobs' : t'.jobs = l ++ [last]) (hl : ∀ j ∈ l, j.IsMinor P)
    (hP : ∀ i, P i → i < t'.exchange.interactions.size)
    (hlast : ∀ i, last.subject? = some i → i < t'.exchange.interactions.size)
    (hdue : t'.due = j.due t.exchange.interactions.size t.lookup?)
    (hregistration : last.registration? t'.exchange.interactions.size =
      j.registration? t.exchange.interactions.size) : t.Advances none t' := by
  have hminor : ∀ j ∈ l, j.IsMinor fun _ => True := fun j hj =>
    (hl j hj).mono fun _ _ => trivial
  refine advances_of_last hjobs hnone hturn ⟨?_, ?_, ?_⟩ hdue (Or.inl ⟨hids, ?_⟩)
  · rw [hids]
    exact fun p hp => Nat.lt_of_lt_of_le (htidy.ids p hp) hsize
  · rw [hjobs']
    intro j hj i hi
    rcases List.mem_append.mp hj with hj | hj
    · exact hP i ((hl j hj).of_subject? hi)
    · rw [List.mem_singleton.mp hj] at hi
      exact hlast i hi
  · rw [hjobs', List.pairwise_append]
    exact ⟨List.pairwise_of_forall_mem_list fun j hj _ _ => hminor j hj,
      List.pairwise_singleton .., fun j hj _ _ => hminor j hj⟩
  · have hnil : l.filterMap (Job.registration? t'.exchange.interactions.size) = [] :=
      List.filterMap_eq_nil_iff.mpr fun j hj => (hl j hj).registration?
    rw [registrations, hjobs', List.filterMap_append, hnil, ← hregistration]
    cases h : last.registration? t'.exchange.interactions.size <;> simp [h]

end Last

/-- A command that connects leaves a task, and then what is left of the command. -/
theorem advances_of_opened {c : Command} (htidy : t.IsTidy) (hjobs : t.jobs = [.command c])
    (hturn : t.turn env = .next t') {task : Task τ} {last : Job τ}
    (hsize : t'.exchange.interactions.size = t.exchange.interactions.size + 1)
    (hids : t'.ids = t.ids) (hjobs' : t'.jobs = [.task task] ++ [last])
    (hlast : ∀ i, last.subject? = some i → i = t.exchange.interactions.size)
    (hdue : ∀ n known, last.due n known = c.due t.exchange.interactions.size known)
    (hregistration : ∀ n, last.registration? n = c.registration? t.exchange.interactions.size) :
    t.Advances none t' := by
  refine advances_of_left (P := fun _ => False) htidy hjobs rfl hturn (by omega) hids hjobs'
    (by simp [Job.IsMinor]) (fun _ h => h.elim) ?_ ?_ (hregistration _)
  · intro i hi
    rw [hlast i hi]
    omega
  · have hlookup : t'.lookup? = t.lookup? := by
      funext id
      rw [lookup?, lookup?, hids]
    rw [due, hjobs', hlookup]
    show last.due _ _ ++ [] = _
    rw [List.append_nil, hdue]
    rfl

/-- A command that opens nothing leaves minor jobs. -/
theorem advances_of_plain {c : Instruction} (htidy : t.IsTidy)
    (hjobs : t.jobs = [.command (.single c)]) (hturn : t.turn env = .next t')
    (hplain : ∀ n, (Command.single c).registration? n = none)
    (hnext : (match (namedConsumer? c).bind t.lookup? with
      | some i => Turn.next (push (t.consumerJobs i c) { t with jobs := [] })
      | none => .next { t with jobs := [] }) = .next t') : t.Advances none t' := by
  have hdue : Job.due (τ := τ) t.exchange.interactions.size t.lookup? (.command (.single c)) =
      (((namedConsumer? c).bind t.lookup?).bind fun i => c.assertion?.map (Prod.mk i)).toList :=
    Command.due_single ..
  split at hnext
  · rename_i i hi
    cases hnext
    have hminor : ∀ j ∈ t.consumerJobs i c ++ [], j.IsMinor (· = i) := by
      rw [List.append_nil]
      exact Phase.isMinor_consumerJobs (P := (· = i)) rfl c t
    obtain ⟨id, -, hlookup⟩ := Option.bind_eq_some_iff.mp hi
    refine advances_of_last hjobs rfl hturn ⟨htidy.ids, ?_, ?_⟩ ?_ (Or.inl ⟨rfl, ?_⟩)
    · intro j hj i' hi'
      rw [(hminor j hj).of_subject? hi']
      exact htidy.lt_of_lookup? hlookup
    · exact List.pairwise_of_forall_mem_list fun j hj _ _ => (hminor j hj).mono fun _ _ => trivial
    · rw [hdue, hi]
      show (t.consumerJobs i c ++ []).flatMap _ = _
      rw [List.append_nil, due_consumerJobs, Option.bind_some]
    · rw [Job.registration?, hplain]
      exact List.filterMap_eq_nil_iff.mpr fun j hj => (hminor j hj).registration?
  · rename_i hi
    cases hnext
    refine advances_of_done htidy hjobs rfl ?_ hturn rfl rfl ?_ ?_
    · rw [hdue, hi]
      rfl
    · rw [Job.registration?, hplain]
      rfl
    · rw [Job.registration?, hplain]
      simp

/-- A command begins. -/
theorem advances_of_begin {c : Command} (htidy : t.IsTidy) (hjobs : t.jobs = [.command c])
    (hturn : t.turn env = .next t') : t.Advances none t' := by
  have hbegin : begin env c { t with jobs := [] } = .next t' := by
    rw [turn, hjobs] at hturn
    exact hturn
  cases c with
  | channel initial block =>
    rw [begin] at hbegin
    obtain ⟨far, k, rfl⟩ := exists_of_connect hbegin
    exact advances_of_opened htidy hjobs hturn (Exchange.size_enter ..) rfl rfl
      (by simp [Job.subject?, eq_comm]) (fun _ _ => rfl) (fun _ => rfl)
  | single c =>
    cases c with
    | subscribe kind id payload =>
      rw [begin, instruct] at hbegin
      obtain ⟨far, k, rfl⟩ := exists_of_connect hbegin
      exact advances_of_opened htidy hjobs hturn (Exchange.size_enter ..) rfl rfl
        (by simp [Job.subject?, eq_comm]) (fun _ _ => rfl) (fun _ => rfl)
    | echoChannel initial =>
      rw [begin, instruct] at hbegin
      obtain ⟨far, k, rfl⟩ := exists_of_connect hbegin
      exact advances_of_opened htidy hjobs hturn (Exchange.size_enter ..) rfl rfl
        (by simp [Job.subject?]) (fun _ _ => rfl) (fun _ => rfl)
    | eof =>
      rw [begin, instruct] at hbegin
      obtain ⟨far, k, rfl⟩ := exists_of_connect hbegin
      exact advances_of_opened htidy hjobs hturn (Exchange.size_enter ..) rfl rfl
        (by simp [Job.subject?]) (fun _ _ => rfl) (fun _ => rfl)
    | pass | fail =>
      cases hbegin
      exact advances_of_done htidy hjobs rfl rfl hturn rfl rfl rfl
        (by simp [Job.registration?, Command.registration?])
    | malformed => cases hbegin
    | await | assert | take | request | cancel | respond | unknown =>
      exact advances_of_plain htidy hjobs hturn (fun _ => rfl) hbegin

/-- **What a turn comes to** for what is due. -/
theorem advances_of_turn (htidy : t.IsTidy) (hturn : t.turn env = .next t') :
    ∃ found, t.Advances found t' := by
  have hperform := hturn
  unfold turn at hperform
  split at hperform
  · cases hperform
  rename_i j rest hjobs
  by_cases hj : j.IsMinor fun _ => True
  · obtain ⟨new, hgoes, hnew⟩ := exists_of_minor hj hperform
    exact advances_of_minor htidy hjobs hj hgoes hnew
  -- No job stands behind one that is not minor.
  obtain rfl : rest = [] := by
    have horder := htidy.order
    rw [hjobs, List.pairwise_cons] at horder
    exact List.eq_nil_iff_forall_not_mem.mpr fun j' hj' => hj (horder.1 j' hj')
  have hsubject : ∀ i, j.subject? = some i → i < t.exchange.interactions.size :=
    htidy.subjects j (by rw [hjobs]; exact List.mem_singleton_self j)
  refine ⟨none, ?_⟩
  cases j with
  | task | wait | play | check | reject | window => exact absurd trivial hj
  | command c => exact advances_of_begin htidy hjobs hturn
  | register id i =>
    cases hperform
    refine advances_of_done htidy hjobs rfl rfl hturn rfl rfl rfl ?_
    rintro p ⟨rfl⟩
    exact hsubject i rfl
  | echoOpened =>
    cases hperform
    exact advances_of_done htidy hjobs rfl rfl hturn rfl rfl rfl (by simp [Job.registration?])
  | handshake i block =>
    obtain ⟨-, rfl⟩ := next_of_handshake hperform
    exact advances_of_left (l := []) (P := fun _ => False) htidy hjobs rfl hturn
      (Nat.le_refl _) rfl rfl (List.forall_mem_nil _) (fun _ h => h.elim) hsubject
      (List.append_nil _) rfl
  | block i flag block =>
    cases block with
    | nil =>
      cases hperform
      exact advances_of_done htidy hjobs rfl rfl hturn rfl rfl rfl (by simp [Job.registration?])
    | cons c block =>
      let t₀ : Trial σ τ := { t with jobs := [] }
      obtain ⟨front, hfront, hblock⟩ := Phase.exists_of_instructBlock i flag c block t₀
      have hdue := due_instructBlock (t := t₀) i flag c block rfl
      have hnext : Turn.next (t₀.instructBlock i flag c block) = .next t' := hperform
      rw [Turn.next.inj hnext] at hdue
      rw [hblock] at hnext
      cases hnext
      exact advances_of_left htidy hjobs rfl hturn (Nat.le_refl _) rfl
        (List.append_nil _) hfront (fun i' hi' => by rw [hi']; exact hsubject i rfl) hsubject hdue rfl

/-! ### What is no turn -/

/-- The end of a window finds out what was to be found out. -/
theorem advances_closeWindow {i baseline ms : Nat} (htidy : t.IsTidy)
    (hjobs : t.jobs = .window i baseline ms :: rest) : ∃ found, t.Advances found t.closeWindow := by
  have hgoes := goes_closeWindow hjobs
  rw [assertion?, hjobs] at hgoes
  exact advances_of_minor htidy hjobs trivial hgoes (List.forall_mem_nil _)

/-- What others do to the exchange finds out nothing, nor do calls that they make. -/
theorem advances_of_tasks (htidy : t.IsTidy) {e : Exchange σ}
    (hsize : e.interactions.size = t.exchange.interactions.size)
    (hledger : ∀ i, e.ledger i = t.exchange.ledger i) (hnew : ∀ j ∈ new, j.IsMinor fun _ => False) :
    t.Advances none { t with exchange := e, jobs := new ++ t.jobs } := by
  obtain ⟨htidy', hdue, hregistrations⟩ :=
    htidy.push { t with exchange := e, jobs := new ++ t.jobs } rfl hsize rfl hnew
  exact ⟨htidy', hdue.symm, by simp, hledger, Or.inl ⟨rfl, hregistrations⟩⟩

/-- A command that breaks off finds out nothing, and nothing is left to be done. -/
theorem Stops.tidy (h : t.Stops t') (htidy : t.IsTidy) : t'.IsTidy where
  ids := by
    rw [h.ids, h.interactions]
    exact htidy.ids
  subjects := by
    rw [h.jobs]
    exact List.forall_mem_nil _
  order := by
    rw [h.jobs]
    exact List.Pairwise.nil

theorem Stops.ledger (h : t.Stops t') (i : Nat) : t'.exchange.ledger i = t.exchange.ledger i :=
  Exchange.ledger_congr (by rw [h.interactions])

/-! ### Commands that name a consumer -/

end Trial
end StreamConformance
