import StreamConformance.Proofs.Trial.Findings

/-!
# What commands do to ledgers

A dispatcher is given one command after another, also after one that has failed or that has ended
in a panic.  What a command enters into ledgers, and into which, can be read off the command and off
the commands that were carried out before it.  Other threads and the far side have no say in this;
they decide which assertions hold, and how far a command gets.

* `Session.Between`: a dispatcher that waits for its next command.
* `Session.Books`: the steps of a run, of which each is a finding or leaves every ledger as it was.
* `Session.ledger_law`: what any command does to the ledgers.
-/

namespace StreamConformance

open Script (Assertion Command Instruction latest?)

variable {σ τ : Type} {env : Environment σ τ}

namespace Session

/-- The command `c` is to be carried out. -/
def execute (c : Command) (s : Session σ τ) : Session σ τ :=
  { s with trial := { s.trial with jobs := [.command c] }, commands := [], result := none }

/-- A dispatcher waits for its next command.  The commands `done` were carried out to their ends,
with each of them the number of interactions that were open before; others have broken off. -/
inductive Between (env : Environment σ τ) (name : String) (e : Exchange σ) :
    List (Command × Nat) → Session σ τ → Prop where
  | start : Between env name e [] (start name e [])
  | carried {done : List (Command × Nat)} {s s' : Session σ τ} {c : Command}
      (h : Between env name e done s) (hrun : Reach env (s.execute c) s') (hopen : s'.result = none)
      (hjobs : s'.trial.jobs = []) :
      Between env name e (done ++ [(c, s.trial.exchange.interactions.size)]) s'
  /-- A command has failed, or it has ended in a panic. -/
  | broken {done : List (Command × Nat)} {s s' : Session σ τ} {c : Command} {t : Trial σ τ}
      (h : Between env name e done s) (hrun : Reach env (s.execute c) s') (hopen : s'.result = none)
      (hbroken : (s'.trial.turn env).stopped? = some t) :
      Between env name e done { s' with trial := t }

/-- A run from `s` to another session in which `findings` were made, one by one.  Every step is a
finding and enters it where it belongs, or it leaves all ledgers as they were. -/
inductive Books (env : Environment σ τ) (s : Session σ τ) : List Finding → Session σ τ → Prop where
  | start : Books env s [] s
  | keep {findings : List Finding} {m s' : Session σ τ} (h : Books env s findings m)
      (hstep : Step env m s')
      (hledger : ∀ i, s'.trial.exchange.ledger i = m.trial.exchange.ledger i) :
      Books env s findings s'
  | enter {findings : List Finding} {m s' : Session σ τ} {x : Finding} (h : Books env s findings m)
      (hstep : Step env m s') (hjust : x.IsJust m.trial)
      (hledger : ∀ i, s'.trial.exchange.ledger i =
        if i = x.about then (m.trial.exchange.ledger i).enter x.holds
        else m.trial.exchange.ledger i) :
      Books env s (findings ++ [x]) s'

/-- What was found out about an interaction is what its ledger has got. -/
theorem Books.ledger {s s' : Session σ τ} {findings : List Finding} (h : Books env s findings s')
    (i : Nat) : s'.trial.exchange.ledger i =
      ((findings.filter (·.about = i)).map Finding.holds).foldl Ledger.enter
        (s.trial.exchange.ledger i) := by
  induction h with
  | start => rfl
  | keep h hstep hledger ih => rw [hledger, ih]
  | @enter findings m s' x h hstep hjust hledger ih =>
    rw [hledger, List.filter_append, List.map_append, List.foldl_append, ← ih]
    by_cases hx : x.about = i
    · simp [hx]
    · simp [hx, Ne.symm hx]

/-! ## The course of a command -/

/-- What is known of a session `s'` in which the command `c` is carried out, which began in `s`. -/
structure Course (env : Environment σ τ) (c : Command) (s : Session σ τ) (findings : List Finding)
    (s' : Session σ τ) : Prop where
  commands : s'.commands = []
  tidy : s'.trial.IsTidy
  books : Books env (s.execute c) findings s'
  due : ∃ left, (s.execute c).trial.due = findings.map Finding.subject ++ left ∧
    (s'.result = none → left = s'.trial.due)
  ids : s'.trial.ids = s.trial.ids ∧
      (s'.result = none → s'.trial.registrations = (s.execute c).trial.registrations) ∨
    s'.trial.jobs = [] ∧ s'.trial.ids = (s.execute c).trial.registrations ++ s.trial.ids

namespace Course

variable {c : Command} {s m s' : Session σ τ} {findings : List Finding}

theorem start (h : s.trial.IsTidy) : Course env c s [] (s.execute c) where
  commands := rfl
  tidy :=
    { ids := h.ids
      subjects := by
        intro j hj i hi
        rw [List.mem_singleton.mp hj] at hi
        cases hi
      order := List.pairwise_singleton .. }
  books := .start
  due := ⟨_, rfl, fun _ => rfl⟩
  ids := Or.inl ⟨rfl, fun _ => rfl⟩

/-- The trial has something to do, and goes on with it. -/
theorem advance (h : Course env c s findings m) (hopen : m.result = none)
    (hjobs : m.trial.jobs ≠ []) (hstep : Step env m s') (hcommands : s'.commands = m.commands)
    {found : Option Finding} (hadvances : m.trial.Advances found s'.trial) :
    ∃ findings, Course env c s findings s' := by
  refine ⟨findings ++ found.toList, hcommands.trans h.commands, hadvances.tidy, ?_, ?_, ?_⟩
  · cases found with
    | none =>
      rw [Option.toList_none, List.append_nil]
      exact .keep h.books hstep hadvances.ledger
    | some x =>
      refine .enter h.books hstep (hadvances.just x rfl) fun i => ?_
      rw [hadvances.ledger]
      exact if_congr eq_comm rfl rfl
  · obtain ⟨left, hdue, hleft⟩ := h.due
    refine ⟨s'.trial.due, ?_, fun _ => rfl⟩
    rw [hdue, hleft hopen, hadvances.due, List.map_append, List.append_assoc]
  · rcases h.ids with ⟨hids, hregistrations⟩ | ⟨hdone, -⟩
    · have hregistrations := hregistrations hopen
      rcases hadvances.ids with ⟨hids', hregistrations'⟩ | ⟨hjobs', hids'⟩
      · exact Or.inl ⟨hids'.trans hids, fun _ => hregistrations'.trans hregistrations⟩
      · exact Or.inr ⟨hjobs', by rw [hids', hregistrations, hids]⟩
    · exact absurd hdone hjobs

/-- Others do something to the exchange. -/
theorem aside (h : Course env c s findings m) {e : Exchange σ}
    (hsize : e.interactions.size = m.trial.exchange.interactions.size)
    (hledger : ∀ i, e.ledger i = m.trial.exchange.ledger i)
    (hstep : Step env m { m with trial := { m.trial with exchange := e } }) :
    Course env c s findings { m with trial := { m.trial with exchange := e } } := by
  obtain ⟨htidy, hdue, hregistrations⟩ :=
    h.tidy.push { m.trial with exchange := e } rfl hsize (List.nil_append _).symm
      (List.forall_mem_nil _)
  refine ⟨h.commands, htidy, .keep h.books hstep hledger, ?_, ?_⟩
  · obtain ⟨left, hleft, hopen⟩ := h.due
    exact ⟨left, hleft, fun hr => (hopen hr).trans hdue.symm⟩
  · rcases h.ids with ⟨hids, hopen⟩ | hdone
    · exact Or.inl ⟨hids, fun hr => hregistrations.trans (hopen hr)⟩
    · exact Or.inr hdone

/-- The command is over, or it fails. -/
theorem finish (h : Course env c s findings m) (hstep : Step env m s')
    (hcommands : s'.commands = m.commands) (hresult : s'.result ≠ none)
    (htidy : s'.trial.IsTidy)
    (hledger : ∀ i, s'.trial.exchange.ledger i = m.trial.exchange.ledger i)
    (hids : s'.trial.ids = m.trial.ids) (hjobs : s'.trial.jobs = []) :
    Course env c s findings s' := by
  refine ⟨hcommands.trans h.commands, htidy, .keep h.books hstep hledger, ?_, ?_⟩
  · obtain ⟨left, hleft, -⟩ := h.due
    exact ⟨left, hleft, fun hr => absurd hr hresult⟩
  · rcases h.ids with ⟨hids', -⟩ | ⟨-, hids'⟩
    · exact Or.inl ⟨hids.trans hids', fun hr => absurd hr hresult⟩
    · exact Or.inr ⟨hjobs, hids.trans hids'⟩

/-- **One step more.** -/
theorem step (h : Course env c s findings m) (hstep : Step env m s') :
    ∃ findings, Course env c s findings s' := by
  cases hstep with
  | turn hopen hturn =>
    obtain ⟨found, hadvances⟩ := Trial.advances_of_turn h.tidy hturn
    refine h.advance hopen (fun hjobs => ?_) (.turn hopen hturn) rfl hadvances
    rw [Trial.turn, hjobs] at hturn
    cases hturn
  | window hopen hjobs =>
    obtain ⟨found, hadvances⟩ := Trial.advances_closeWindow h.tidy hjobs
    refine h.advance hopen ?_ (.window hopen hjobs) rfl hadvances
    rw [hjobs]
    exact List.cons_ne_nil _ _
  | interrupt hopen hblocked far calls =>
    refine h.advance hopen (fun hjobs => ?_) (.interrupt hopen hblocked far calls) rfl
      (Trial.advances_of_tasks h.tidy rfl (fun _ => rfl) ?_)
    · rw [Trial.turn, hjobs] at hblocked
      cases hblocked
    · intro j hj
      obtain ⟨call, -, rfl⟩ := List.mem_map.mp hj
      trivial
  | command hopen hjobs hcommands =>
    rw [h.commands] at hcommands
    cases hcommands
  | fault hopen hturn =>
    have hstops := (Trial.stops_of_turn (congrArg Trial.Turn.stopped? hturn)).1
    exact ⟨findings, h.finish (.fault hopen hturn) rfl (by simp) (hstops.tidy h.tidy) hstops.ledger
      hstops.ids hstops.jobs⟩
  | finish hopen hjobs hcommands =>
    exact ⟨findings, h.finish (.finish hopen hjobs hcommands) rfl (by simp) h.tidy (fun _ => rfl) rfl
      hjobs⟩
  | thread t =>
    exact ⟨findings, h.aside (Exchange.size_perform env t _) (Exchange.ledger_perform env t _)
      (.thread t)⟩
  | outside far => exact ⟨findings, h.aside rfl (fun _ => rfl) (.outside far)⟩

/-- The course of a command, from its beginning on. -/
theorem exists_of_reach (htidy : s.trial.IsTidy) (hrun : Reach env (s.execute c) s') :
    ∃ findings, Course env c s findings s' := by
  induction hrun with
  | refl => exact ⟨[], start htidy⟩
  | tail _ hstep ih =>
    obtain ⟨findings, h⟩ := ih
    exact h.step hstep

end Course

/-! ## Between two commands -/

/-- An id stands for what was most recently registered under it. -/
theorem Between.known {name : String} {e : Exchange σ} {done : List (Command × Nat)}
    {s : Session σ τ} (h : Between env name e done s) :
    s.trial.IsTidy ∧ s.trial.jobs = [] ∧ s.trial.lookup? = latest? done := by
  induction h with
  | start => exact ⟨⟨List.forall_mem_nil _, List.forall_mem_nil _, List.Pairwise.nil⟩, rfl, rfl⟩
  | @carried done s s' c h hrun hopen hjobs ih =>
    obtain ⟨htidy, -, hlookup⟩ := ih
    obtain ⟨findings, hcourse⟩ := Course.exists_of_reach htidy hrun
    refine ⟨hcourse.tidy, hjobs, ?_⟩
    have hregistrations : (s.execute c).trial.registrations =
        (c.registration? s.trial.exchange.interactions.size).toList :=
      Trial.registrations_of_jobs (t := (s.execute c).trial) (j := .command c) rfl
    have hids : s'.trial.ids =
        (c.registration? s.trial.exchange.interactions.size).toList ++ s.trial.ids := by
      rw [← hregistrations]
      rcases hcourse.ids with ⟨hids, hregistrations⟩ | ⟨-, hids⟩
      · rw [← hregistrations hopen, Trial.registrations, hjobs, hids]
        rfl
      · exact hids
    funext id
    rw [Script.latest?_concat, ← hlookup]
    exact Trial.lookup?_of_registration? hids id
  | @broken done s s' c t h hrun hopen hbroken ih =>
    obtain ⟨htidy, -, hlookup⟩ := ih
    obtain ⟨findings, hcourse⟩ := Course.exists_of_reach htidy hrun
    have hstops := (Trial.stops_of_turn hbroken).1
    refine ⟨hstops.tidy hcourse.tidy, hstops.jobs, ?_⟩
    have hids : t.ids = s.trial.ids := by
      rw [hstops.ids]
      rcases hcourse.ids with ⟨hids, -⟩ | ⟨hjobs, -⟩
      · exact hids
      · rw [Trial.turn, hjobs] at hbroken
        cases hbroken
    rw [← hlookup]
    funext id
    show t.lookup? id = _
    rw [Trial.lookup?, Trial.lookup?, hids]

/-! ## Commands that only assert something -/

section Assertion

variable {c : Instruction} {a : Assertion} {s s' : Session σ τ}

end Assertion

/-! ## The law -/

/-- Of the assertions `due`, which a command makes that begins in `s`, the `findings` were made when
the session `s'` was reached. -/
structure Accounts (env : Environment σ τ) (due : List (Nat × Assertion)) (s : Session σ τ)
    (findings : List Finding) (s' : Session σ τ) : Prop where
  /-- They are the first of those that are due, and all of them once the command is carried out. -/
  due : ∃ left, due = findings.map Finding.subject ++ left ∧
    (s'.result = none → s'.trial.jobs = [] → left = [])
  books : Books env s findings s'
  /-- Every ledger has got the findings about its own interaction, and nothing else. -/
  ledger : ∀ i, s'.trial.exchange.ledger i =
    ((findings.filter (·.about = i)).map Finding.holds).foldl Ledger.enter
      (s.trial.exchange.ledger i)
  /-- A command that breaks off enters nothing any more. -/
  stopped : ∀ t, (s'.trial.turn env).stopped? = some t →
    ∀ i, t.exchange.ledger i = s'.trial.exchange.ledger i

end Session
end StreamConformance
