import Mathlib.Data.List.Forall2
import StreamConformance.Proofs.Suite.Reports
import StreamConformance.Proofs.Trial.Connections
import StreamConformance.Proofs.Trial.Session

/-!
# The connections of a series of tests

A series is the tests of a script, one after another, while other threads work at the same exchange
and the far side does what it likes.  A test carries out its commands up to the first that faults or
panics; then it gives up its connections one by one, and only when it has none left does the next
test begin.

What is done about connections is seen by the far side alone.  In these deeds the tests lie side by
side, and each of them first makes its attempts to connect, one for every command that it has begun
and that opens an interaction, and then gives up the connections that came of them, each of them once.
So no connection is given up as long as there may be a further command, whatever has become of the
interaction it was made for, and none is left to the next test.

A panic may come while an attempt goes on, in a call that the far side makes on the thread that
waits for it.  Such an attempt comes to nothing, and it is the only one that can.

* `Series.Step`, `Series.Reach`: what series do.
* `Attempting.turn`, `Attempting.stops`, `Attempting.interrupt`: how far a test is with its attempts,
  turn by turn.
* `Episode.Law`, `Series.Underway`: the deeds of a test that is over, and of the present one.
* `Series.law_of_reach`: the deeds of a series.
* `Series.reach_runTest`: what a suite does with a test is a part of a series.
-/

namespace StreamConformance

open Script (Command Test opened)

variable {σ τ : Type}

/-- A thread waits for an attempt to connect. -/
def Blocked.isDialing : Blocked → Bool
  | .dialing => true
  | _ => false

/-- What is concluded from the verdict on a test. -/
def Conclusion.ofVerdict : Except Fault Verdict → Conclusion
  | .ok v => .verdict v
  | .error f => .fault f

/-! ## Series -/

/-- A test that is over. -/
structure Episode where
  test : Test
  /-- The commands that were begun. -/
  begun : List Command
  /-- The thread was seen waiting for the attempt to connect of the last of them. -/
  dialing : Bool
  conclusion : Conclusion

/-- Some tests, of which one is the present one. -/
structure Series (σ τ : Type) where
  trial : Trial (Watched σ) τ
  test : Test
  /-- The commands that were begun. -/
  begun : List Command := []
  /-- The commands that were not begun. -/
  commands : List Command
  /-- The thread was seen waiting for the attempt to connect of the last command begun. -/
  dialing : Bool := false
  /-- How the commands have ended. -/
  ended : Option Conclusion := none
  past : List Episode := []
  tests : List Test

namespace Series

/-- The first test is about to begin. -/
def start (test : Test) (tests : List Test) (far : σ) : Series σ τ where
  trial := { name := test.name, exchange := { far := { far := far } } }
  test := test
  commands := test.commands
  tests := tests

/-- What was done about connections. -/
abbrev deeds (s : Series σ τ) : List Deed :=
  s.trial.exchange.far.deeds

/-- The present test, with the conclusion `c`. -/
def episode (s : Series σ τ) (c : Conclusion) : Episode where
  test := s.test
  begun := s.begun
  dialing := s.dialing
  conclusion := c

/-- The present test is over, and the next one is about to begin at the same exchange. -/
def follow (s : Series σ τ) (c : Conclusion) (test : Test) (tests : List Test) : Series σ τ where
  trial := { name := test.name, exchange := s.trial.exchange }
  test := test
  commands := test.commands
  past := s.past ++ [s.episode c]
  tests := tests

/-- A step of the present test, of another thread or of the far side. -/
inductive Step (env : Environment σ τ) : Series σ τ → Series σ τ → Prop where
  /-- The trial does its first job. -/
  | turn {s : Series σ τ} {t : Trial (Watched σ) τ} (hopen : s.ended = none)
      (h : s.trial.turn env.watched = .next t) : Step env s { s with trial := t }
  /-- The window that the trial waits for is over. -/
  | window {s : Series σ τ} {i baseline milliseconds : Nat} {jobs : List (Job τ)}
      (hopen : s.ended = none) (h : s.trial.jobs = .window i baseline milliseconds :: jobs) :
      Step env s { s with trial := s.trial.closeWindow }
  /-- The far side makes calls while the trial waits. -/
  | interrupt {s : Series σ τ} {b : Blocked} (hopen : s.ended = none)
      (h : s.trial.turn env.watched = .blocked b) (far : σ) (calls : List (Call τ)) :
      Step env s
        { s with
          trial := s.trial.interrupt { s.trial.exchange.far with far := far } calls
          dialing := b.isDialing || s.dialing }
  /-- The next command begins. -/
  | command {s : Series σ τ} {c : Command} {commands : List Command} (hopen : s.ended = none)
      (hjobs : s.trial.jobs = []) (h : s.commands = c :: commands) :
      Step env s
        { s with
          trial := { s.trial with jobs := [.command c] }
          begun := s.begun ++ [c]
          commands := commands
          dialing := false }
  /-- A command ends in a fault. -/
  | fault {s : Series σ τ} {f : Fault} {t : Trial (Watched σ) τ} (hopen : s.ended = none)
      (h : s.trial.turn env.watched = .faulted f t) :
      Step env s { s with trial := t, ended := some (.fault f) }
  /-- The thread of the test panics. -/
  | panic {s : Series σ τ} {p : Panic} {t : Trial (Watched σ) τ} (hopen : s.ended = none)
      (h : s.trial.turn env.watched = .panicked p t) :
      Step env s { s with trial := t, ended := some (.panic p) }
  /-- No command is left. -/
  | finish {s : Series σ τ} (hopen : s.ended = none) (hjobs : s.trial.jobs = [])
      (h : s.commands = []) :
      Step env s { s with ended := some (.ofVerdict s.trial.verdict) }
  /-- The test gives up a connection. -/
  | release {s : Series σ τ} {c : Conclusion} {k : Nat} {ks : List Nat} (hended : s.ended = some c)
      (h : s.trial.connections = k :: ks) :
      Step env s
        { s with
          trial :=
            { s.trial with
              exchange := (s.trial.exchange.perform env.watched (.tell (.released k))).1
              connections := ks } }
  /-- The next test begins, once the present one holds no connection any more. -/
  | next {s : Series σ τ} {c : Conclusion} {test : Test} {tests : List Test}
      (hended : s.ended = some c) (hconnections : s.trial.connections = [])
      (h : s.tests = test :: tests) : Step env s (s.follow c test tests)
  /-- Another thread performs a task.  The connections of a test are given up by nobody else. -/
  | thread {s : Series σ τ} (t : Task τ) (ht : ¬t.IsRelease) :
      Step env s
        { s with
          trial := { s.trial with exchange := (s.trial.exchange.perform env.watched t).1 } }
  /-- The far side changes. -/
  | outside {s : Series σ τ} (far : σ) :
      Step env s
        { s with
          trial :=
            { s.trial with
              exchange :=
                { s.trial.exchange with far := { s.trial.exchange.far with far := far } } } }

/-- Some steps, one after another. -/
abbrev Reach (env : Environment σ τ) : Series σ τ → Series σ τ → Prop :=
  Relation.ReflTransGen (Step env)

end Series

/-! ## How far a test is with its attempts -/

/-- The last command begun opens an interaction, and its attempt has come to nothing so far. -/
def Outstanding (begun : List Command) (dials : List Dial) : Prop :=
  ∃ pre c, begun = pre ++ [c] ∧ c.opens = true ∧ dials.length = opened pre

/-- Where a test stands that has begun some commands and made some attempts to connect. -/
inductive Attempting (jobs : List (Job τ)) (begun : List Command) (dialing : Bool)
    (dials : List Dial) : Prop where
  /-- What there is to do belongs to a command whose attempt was made, if it makes one. -/
  | within (hjobs : ∀ j ∈ jobs, j.IsWithin) (h : dials.length = opened begun)
  /-- The last command is about to be carried out.  There is something to do before that only if
  the far side makes calls while an attempt goes on. -/
  | before {front : List (Task τ)} {pre : List Command} {c : Command}
      (hjobs : jobs = front.map .task ++ [.command c]) (hfront : ∀ t ∈ front, ¬t.IsRelease)
      (hbegun : begun = pre ++ [c]) (h : dials.length = opened pre)
      (hdialing : front ≠ [] → c.opens = true ∧ dialing = true)

namespace Attempting

variable {env : Environment σ τ} {t t' : Trial (Watched σ) τ} {begun : List Command}
  {dialing : Bool} {dials : List Dial}

theorem opened_of_opens {pre : List Command} {c : Command} (hc : c.opens = true)
    (h : dials.length = opened pre) (d : Dial) :
    (dials ++ [d]).length = opened (pre ++ [c]) := by
  rw [List.length_append, h, Script.opened_concat, if_pos hc]
  rfl

theorem opened_of_not_opens {pre : List Command} {c : Command} (hc : c.opens = false)
    (h : dials.length = opened pre) : (dials ++ []).length = opened (pre ++ [c]) := by
  rw [List.append_nil, h, Script.opened_concat, hc]
  rfl

/-- What comes of the first job of a command: the attempt is made, or there is none. -/
theorem comes_command {jobs : List (Job τ)} {pre : List Command} {c : Command}
    (h : dials.length = opened pre) {turn : Trial.Turn (Watched σ) τ}
    (hturn : { t with jobs := jobs }.begin env.watched c = turn) (hb : ∀ b, turn ≠ .blocked b) :
    ∃ made, turn.Comes made { t with jobs := jobs } ∧
      (dials ++ made).length = opened (pre ++ [c]) := by
  cases hc : c.opens with
  | true =>
    rcases Trial.comes_begin_of_opens env hc { t with jobs := jobs } with hblocked | ⟨d, hd⟩
    · exact absurd (hturn.symm.trans hblocked) (hb _)
    · rw [hturn] at hd
      exact ⟨[d], hd, opened_of_opens hc h d⟩
  | false =>
    have hcomes := (Trial.comes_begin_of_not_opens env hc { t with jobs := jobs }).1
    rw [hturn] at hcomes
    exact ⟨[], hcomes, opened_of_not_opens hc h⟩

/-- The jobs within a command are those that are left of it. -/
theorem within_append {new rest : List (Job τ)} (hnew : ∀ j ∈ new, j.IsWithin)
    (hrest : ∀ j ∈ rest, j.IsWithin) (h : dials.length = opened begun) :
    Attempting (new ++ rest) begun dialing dials :=
  .within (fun j hj => (List.mem_append.mp hj).elim (hnew j) (hrest j)) h

/-- **A turn of a test** makes the attempts that it has to make. -/
theorem turn (h : Attempting t.jobs begun dialing dials) (hturn : t.turn env.watched = .next t') :
    ∃ made, Trial.Adds made t t' ∧ Attempting t'.jobs begun dialing (dials ++ made) := by
  cases h with
  | within hjobs h =>
    rcases hj : t.jobs with _ | ⟨j, rest⟩
    · rw [Trial.turn, hj] at hturn
      cases hturn
    rw [hj] at hjobs
    obtain ⟨hwithin, hrest⟩ := List.forall_mem_cons.mp hjobs
    have hcomes := Trial.comes_perform env hwithin { t with jobs := rest }
    rw [← Trial.turn_eq_perform env.watched hj, hturn] at hcomes
    obtain ⟨hadds, new, hnew, hnews⟩ := hcomes
    refine ⟨[], ⟨hadds.connections, hadds.deeds⟩, ?_⟩
    rw [hnew, List.append_nil]
    exact within_append hnews hrest h
  | @before front pre c hjobs hfront hbegun h hdialing =>
    cases front with
    | nil =>
      have hbegin : { t with jobs := [] }.begin env.watched c = .next t' :=
        (Trial.turn_eq_perform env.watched hjobs).symm.trans hturn
      have hnext : ∀ b, Trial.Turn.next t' ≠ .blocked b := by
        rintro b ⟨⟩
      obtain ⟨made, ⟨hadds, new, hnew, hnews⟩, hopened⟩ := comes_command h hbegin hnext
      refine ⟨made, ⟨hadds.connections, hadds.deeds⟩, ?_⟩
      rw [hnew, hbegun]
      exact within_append hnews (List.forall_mem_nil _) hopened
    | cons task front =>
      obtain ⟨htask, hrest⟩ := List.forall_mem_cons.mp hfront
      rw [Trial.turn_eq_perform env.watched hjobs] at hturn
      obtain ⟨-, rfl⟩ := Trial.next_of_task hturn
      refine ⟨[], Trial.adds_nil rfl (deeds_perform htask t.exchange), ?_⟩
      rw [List.append_nil]
      have hjobs' : (t.exchange.perform env.watched task).2.map Job.task ++
          (front.map .task ++ [.command c]) =
          ((t.exchange.perform env.watched task).2 ++ front).map .task ++ [.command c] := by
        rw [List.map_append, List.append_assoc]
      refine .before hjobs' (fun t' ht' => ?_) hbegun h fun _ => hdialing (List.cons_ne_nil _ _)
      exact (List.mem_append.mp ht').elim not_isRelease_of_mem (hrest t')

/-- **The end of the commands of a test.**  All attempts have been made and have come to something,
or a panic has cut the last one short. -/
theorem stops (h : Attempting t.jobs begun dialing dials)
    (hturn : (t.turn env.watched).stopped? = some t') :
    ∃ made, Trial.Adds made t t' ∧ ((dials ++ made).length = opened begun ∨
      dialing = true ∧ Outstanding begun (dials ++ made) ∧
        ∃ p, t.turn env.watched = .panicked p t') := by
  have hadds_of {made : List Dial} {jobs : List (Job τ)} {turn : Trial.Turn (Watched σ) τ}
      (hcomes : turn.Comes made { t with jobs := jobs }) (hstop : turn.stopped? = some t') :
      Trial.Adds made t t' := by
    cases turn with
    | faulted f t₁ | panicked p t₁ =>
      cases hstop
      exact ⟨hcomes.connections, hcomes.deeds⟩
    | finished | next | blocked => cases hstop
  cases h with
  | within hjobs h =>
    rcases hj : t.jobs with _ | ⟨j, rest⟩
    · rw [Trial.turn, hj] at hturn
      cases hturn
    rw [hj] at hjobs
    rw [Trial.turn_eq_perform env.watched hj] at hturn
    have hcomes := Trial.comes_perform env (hjobs j List.mem_cons_self) { t with jobs := rest }
    exact ⟨[], hadds_of hcomes hturn, .inl (by rw [List.append_nil, h])⟩
  | @before front pre c hjobs hfront hbegun h hdialing =>
    cases front with
    | nil =>
      have hbegin : t.turn env.watched = { t with jobs := [] }.begin env.watched c :=
        Trial.turn_eq_perform env.watched hjobs
      have hb : ∀ b, t.turn env.watched ≠ .blocked b := by
        intro b hb
        rw [hb] at hturn
        cases hturn
      obtain ⟨made, hcomes, hopened⟩ := comes_command h hbegin.symm hb
      refine ⟨made, hadds_of hcomes hturn, .inl ?_⟩
      rw [hbegun, hopened]
    | cons task front =>
      have hperform := Trial.turn_eq_perform env.watched hjobs
      obtain ⟨hc, hwaits⟩ := hdialing (List.cons_ne_nil _ _)
      by_cases hraise : ∃ p, task = .call (.raise p)
      · obtain ⟨p, rfl⟩ := hraise
        have hpanic : t.turn env.watched = .panicked p { t with jobs := [] } :=
          hperform.trans (Trial.panic_of_tasks rfl p)
        rw [hpanic] at hturn ⊢
        cases hturn
        refine ⟨[], Trial.adds_nil rfl rfl, .inr ⟨hwaits, ?_, p, rfl⟩⟩
        rw [List.append_nil]
        exact ⟨pre, c, hbegun, hc, h⟩
      · rw [hperform, Trial.perform_task fun p hp => hraise ⟨p, hp⟩] at hturn
        cases hturn

/-- The far side makes calls on the thread of a test only within a command, or while an attempt of it
goes on. -/
theorem interrupt {b : Blocked} (h : Attempting t.jobs begun dialing dials)
    (hturn : t.turn env.watched = .blocked b) (calls : List (Call τ)) :
    Attempting (calls.map (fun call => .task (.call call)) ++ t.jobs) begun (b.isDialing || dialing)
      dials := by
  cases h with
  | within hjobs h =>
    refine within_append (fun j hj => ?_) hjobs h
    obtain ⟨call, -, rfl⟩ := List.mem_map.mp hj
    exact id
  | @before front pre c hjobs hfront hbegun h hdialing =>
    cases front with
    | nil =>
      have hbegin : { t with jobs := [] }.begin env.watched c = .blocked b :=
        (Trial.turn_eq_perform env.watched hjobs).symm.trans hturn
      cases hc : c.opens with
      | false =>
        exact absurd hbegin ((Trial.comes_begin_of_not_opens env hc { t with jobs := [] }).2 b)
      | true =>
        have hb : b = .dialing := by
          rcases Trial.comes_begin_of_opens env hc { t with jobs := [] } with hd | ⟨d, hd⟩
          · rw [hbegin] at hd
            cases hd
            rfl
          · rw [hbegin] at hd
            cases hd
        have hjobs' : calls.map (fun call => .task (.call call)) ++ t.jobs =
            (calls.map .call).map .task ++ [.command c] := by
          rw [hjobs, List.map_map]
          rfl
        refine .before hjobs' (fun task htask => ?_) hbegun h fun _ => ⟨hc, by rw [hb]; rfl⟩
        obtain ⟨call, -, rfl⟩ := List.mem_map.mp htask
        exact id
    | cons task front =>
      exact absurd hjobs (Trial.not_task_of_blocked hturn task _)

/-- The window that a test waits for is over. -/
theorem window {i baseline ms : Nat} {rest : List (Job τ)}
    (h : Attempting t.jobs begun dialing dials)
    (hj : t.jobs = .window i baseline ms :: rest) :
    Trial.Adds [] t t.closeWindow ∧ Attempting t.closeWindow.jobs begun dialing dials := by
  cases h with
  | within hjobs h =>
    rw [hj] at hjobs
    have hclose : t.closeWindow = { t with jobs := rest }.atReceiver i fun r =>
        r.modify fun c => c.record (c.isQuietSince baseline) := by
      rw [Trial.closeWindow, hj]
    obtain ⟨hadds, new, hnew, hnews⟩ := Trial.comes_atReceiver (t := { t with jobs := rest }) i fun r =>
      r.modify fun c => c.record (c.isQuietSince baseline)
    rw [← hclose] at hadds hnew
    refine ⟨⟨hadds.connections, hadds.deeds⟩, ?_⟩
    rw [hnew]
    exact within_append hnews (List.forall_mem_cons.mp hjobs).2 h
  | @before front pre c hjobs hfront hbegun h hdialing =>
    rw [hj] at hjobs
    cases front <;> cases hjobs

/-- A command that is over has made its attempt, if it makes one. -/
theorem opened_of_nil (h : Attempting t.jobs begun dialing dials) (hjobs : t.jobs = []) :
    dials.length = opened begun := by
  cases h with
  | within _ h => exact h
  | before hjobs' => exact absurd (hjobs'.symm.trans hjobs) (by simp)

end Attempting

/-! ## The deeds of a test -/

/-- The attempts that a test has made by its end: one for each command begun that opens an
interaction.  The last one may be missing, if its thread has panicked while it waited for that. -/
def Episode.Tried (e : Episode) (dials : List Dial) : Prop :=
  dials.length = opened e.begun ∨
    e.dialing = true ∧ (∃ p, e.conclusion = .panic p) ∧ Outstanding e.begun dials

/-- The deeds of a test that is over: its attempts, and each connection that came of them given up
once. -/
structure Episode.Law (e : Episode) (deeds : List Deed) : Prop where
  begun : ∃ rest, e.test.commands = e.begun ++ rest ∧ ∀ v, e.conclusion = .verdict v → rest = []
  deeds : ∃ dials, e.Tried dials ∧ deeds = dials.map .dialed ++ (obtained dials).map .released

namespace Series

/-- The deeds `current` of the present test. -/
structure Underway (s : Series σ τ) (current : List Deed) : Prop where
  begun : s.test.commands = s.begun ++ s.commands
  /-- As long as there are commands to be carried out, no connection is given up, and all of them
  are held. -/
  running : s.ended = none → ∃ dials, current = dials.map .dialed ∧
    s.trial.connections = obtained dials ∧
    (dials.length = opened s.begun ∨ Outstanding s.begun dials)
  /-- After that they are given up one by one. -/
  concluded : ∀ c, s.ended = some c → ∃ dials released, (s.episode c).Tried dials ∧
    current = dials.map .dialed ++ released.map .released ∧
    obtained dials = released ++ s.trial.connections
  /-- A verdict is given when no command is left. -/
  verdict : ∀ v, s.ended = some (.verdict v) → s.commands = []

/-- The deeds of a test that holds no connection any more are those of a test that is over. -/
theorem Underway.law {s : Series σ τ} {current : List Deed} (h : s.Underway current)
    {c : Conclusion} (hended : s.ended = some c) (hconnections : s.trial.connections = []) :
    (s.episode c).Law current where
  begun := by
    refine ⟨s.commands, h.begun, ?_⟩
    rintro v rfl
    exact h.verdict v hended
  deeds := by
    obtain ⟨dials, released, htried, hcurrent, hobtained⟩ := h.concluded c hended
    rw [hconnections, List.append_nil] at hobtained
    exact ⟨dials, htried, by rw [hcurrent, hobtained]⟩

/-! ## The deeds of a series -/

/-- What is kept by every step: the tests behind the present one are over, and this is how far the
present one is. -/
structure Account (s : Series σ τ) (earlier : List (List Deed)) (dials : List Dial)
    (released : List Nat) : Prop where
  deeds : s.deeds = earlier.flatten ++ (dials.map .dialed ++ released.map .released)
  past : List.Forall₂ Episode.Law s.past earlier
  begun : s.test.commands = s.begun ++ s.commands
  connections : obtained dials = released ++ s.trial.connections
  running : s.ended = none → released = [] ∧ Attempting s.trial.jobs s.begun s.dialing dials
  concluded : ∀ c, s.ended = some c → (s.episode c).Tried dials
  verdict : ∀ v, s.ended = some (.verdict v) → s.commands = []

variable {env : Environment σ τ} {s s' : Series σ τ} {earlier : List (List Deed)}
  {dials : List Dial} {released : List Nat}

theorem Account.underway (h : Account s earlier dials released) :
    s.Underway (dials.map .dialed ++ released.map .released) where
  begun := h.begun
  running hopen := by
    obtain ⟨rfl, hattempting⟩ := h.running hopen
    refine ⟨dials, List.append_nil _, h.connections.symm, ?_⟩
    cases hattempting with
    | within _ hopened => exact .inl hopened
    | @before front pre c hjobs hfront hbegun hopened hdialing =>
      cases hc : c.opens with
      | true => exact .inr ⟨pre, c, hbegun, hc, hopened⟩
      | false =>
        rw [hbegun, ← Attempting.opened_of_not_opens hc hopened, List.append_nil]
        exact .inl rfl
  concluded c hended := ⟨dials, released, h.concluded c hended, rfl, h.connections⟩
  verdict := h.verdict

/-- The deeds of a test that makes some more attempts. -/
theorem Account.adds (h : Account s earlier dials released) (hopen : s.ended = none)
    {made : List Dial} {t : Trial (Watched σ) τ} (hadds : Trial.Adds made s.trial t) :
    t.exchange.far.deeds = earlier.flatten ++ ((dials ++ made).map .dialed ++ []) ∧
      obtained (dials ++ made) = [] ++ t.connections := by
  obtain ⟨rfl, -⟩ := h.running hopen
  constructor
  · have hdeeds : s.trial.exchange.far.deeds = earlier.flatten ++ (dials.map .dialed ++ []) := h.deeds
    rw [hadds.deeds, hdeeds, List.append_nil, List.append_nil, List.append_assoc, List.map_append]
  · rw [hadds.connections, obtained, List.filterMap_append, ← obtained, h.connections]
    rfl

/-- The commands of a test go on. -/
theorem Account.continues (h : Account s earlier dials released) (hopen : s.ended = none)
    {made : List Dial} {t : Trial (Watched σ) τ} (hadds : Trial.Adds made s.trial t) {dialing : Bool}
    (hattempting : Attempting t.jobs s.begun dialing (dials ++ made)) :
    Account { s with trial := t, dialing := dialing } earlier (dials ++ made) [] := by
  obtain ⟨hdeeds, hconnections⟩ := h.adds hopen hadds
  have hnot {c : Conclusion} (hended : s.ended = some c) : False := by
    rw [hopen] at hended
    cases hended
  exact ⟨hdeeds, h.past, h.begun, hconnections, fun _ => ⟨rfl, hattempting⟩,
    fun c hended => (hnot hended).elim, h.verdict⟩

/-- The commands of a test have come to their end. -/
theorem Account.concludes (h : Account s earlier dials released) (hopen : s.ended = none)
    {made : List Dial} {t : Trial (Watched σ) τ} (hadds : Trial.Adds made s.trial t)
    {c : Conclusion} (htried : (s.episode c).Tried (dials ++ made))
    (hverdict : ∀ v, c = .verdict v → s.commands = []) :
    Account { s with trial := t, ended := some c } earlier (dials ++ made) [] := by
  obtain ⟨hdeeds, hconnections⟩ := h.adds hopen hadds
  refine ⟨hdeeds, h.past, h.begun, hconnections, nofun, fun c' hc' => ?_, fun v hv => ?_⟩
  · cases hc'
    exact htried
  · cases hv
    exact hverdict v rfl

/-- The exchange changes, and nothing is done about connections. -/
theorem Account.elsewhere (h : Account s earlier dials released) {e : Exchange (Watched σ)}
    (he : e.far.deeds = s.deeds) :
    Account { s with trial := { s.trial with exchange := e } } earlier dials released :=
  ⟨he.trans h.deeds, h.past, h.begun, h.connections, h.running, h.concluded, h.verdict⟩

/-- **The account of a series**, step by step. -/
theorem Account.step (h : Account s earlier dials released) (hstep : Step env s s') :
    ∃ earlier' dials' released', Account s' earlier' dials' released' := by
  cases hstep with
  | @turn t hopen hturn =>
    obtain ⟨made, hadds, hattempting⟩ := (h.running hopen).2.turn hturn
    exact ⟨_, _, _, h.continues hopen hadds hattempting⟩
  | window hopen hjobs =>
    obtain ⟨hadds, hattempting⟩ := (h.running hopen).2.window hjobs
    rw [← List.append_nil dials] at hattempting
    exact ⟨_, _, _, h.continues hopen hadds hattempting⟩
  | @interrupt b hopen hturn far calls =>
    have hadds : Trial.Adds [] s.trial
        (s.trial.interrupt { s.trial.exchange.far with far := far } calls) :=
      Trial.adds_nil rfl rfl
    refine ⟨_, _, _, h.continues hopen hadds ?_⟩
    rw [List.append_nil]
    exact (h.running hopen).2.interrupt hturn calls
  | @command c commands hopen hjobs hcommands =>
    obtain ⟨rfl, hattempting⟩ := h.running hopen
    have hbegun : s.test.commands = (s.begun ++ [c]) ++ commands := by
      rw [h.begun, hcommands, List.append_assoc, List.singleton_append]
    have hjobs' : ([.command c] : List (Job τ)) = ([] : List (Task τ)).map .task ++ [.command c] := rfl
    have hattempting' : Attempting ([.command c] : List (Job τ)) (s.begun ++ [c]) false dials :=
      .before hjobs' (List.forall_mem_nil _) rfl (hattempting.opened_of_nil hjobs) nofun
    refine ⟨earlier, dials, [], h.deeds, h.past, hbegun, h.connections,
      fun _ => ⟨rfl, hattempting'⟩, ?_, ?_⟩
    · intro c' hended
      rw [hopen] at hended
      cases hended
    · intro v hended
      rw [hopen] at hended
      cases hended
  | @fault f t hopen hturn =>
    obtain ⟨made, hadds, htried⟩ := (h.running hopen).2.stops (by rw [hturn]; rfl)
    refine ⟨_, _, _, h.concludes hopen hadds ?_ nofun⟩
    rcases htried with htried | ⟨-, -, p, hp⟩
    · exact .inl htried
    · rw [hturn] at hp
      cases hp
  | @panic p t hopen hturn =>
    obtain ⟨made, hadds, htried⟩ := (h.running hopen).2.stops (by rw [hturn]; rfl)
    refine ⟨_, _, _, h.concludes hopen hadds ?_ nofun⟩
    rcases htried with htried | ⟨hdialing, hpending, -⟩
    · exact .inl htried
    · exact .inr ⟨hdialing, ⟨p, rfl⟩, hpending⟩
  | finish hopen hjobs hcommands =>
    refine ⟨_, _, _, h.concludes hopen (Trial.adds_refl s.trial) (.inl ?_) fun _ _ => hcommands⟩
    rw [List.append_nil]
    exact (h.running hopen).2.opened_of_nil hjobs
  | @release c k ks hended hconnections =>
    refine ⟨earlier, dials, released ++ [k], ?_, h.past, h.begun, ?_, ?_, h.concluded, h.verdict⟩
    · rw [List.map_append, ← List.append_assoc, ← List.append_assoc, List.append_assoc earlier.flatten]
      exact congrArg (· ++ [Deed.released k]) h.deeds
    · rw [h.connections, hconnections, List.append_assoc, List.singleton_append]
    · intro hopen
      rw [hended] at hopen
      cases hopen
  | @next c test tests hended hconnections htests =>
    refine ⟨earlier ++ [dials.map .dialed ++ released.map .released], [], [], ?_, ?_, rfl, rfl,
      fun _ => ⟨rfl, .within (List.forall_mem_nil _) rfl⟩, nofun, nofun⟩
    · rw [List.flatten_append, List.flatten_singleton]
      exact h.deeds.trans (List.append_nil _).symm
    · exact List.rel_append h.past (.cons (h.underway.law hended hconnections) .nil)
  | thread t ht => exact ⟨_, _, _, h.elsewhere (deeds_perform ht _)⟩
  | outside far => exact ⟨_, _, _, h.elsewhere rfl⟩

/-- How a run of the jobs of a test ends is how a part of a series ends. -/
def Ends (env : Environment σ τ) (s : Series σ τ) : Trial (Watched σ) τ × Trial.Ending → Prop
  | (t, .done) => t.jobs = [] ∧ ∃ dialing, Reach env s { s with trial := t, dialing := dialing }
  | (t, .faulted f) =>
    ∃ dialing, Reach env s { s with trial := t, dialing := dialing, ended := some (.fault f) }
  | (t, .panicked p) =>
    ∃ dialing, Reach env s { s with trial := t, dialing := dialing, ended := some (.panic p) }
  | _ => True

theorem Ends.head {t : Trial (Watched σ) τ} (dialing : Bool)
    (hstep : Step env s { s with trial := t, dialing := dialing })
    {r : Trial (Watched σ) τ × Trial.Ending}
    (h : Ends env { s with trial := t, dialing := dialing } r) : Ends env s r := by
  rcases r with ⟨t', _ | f | p | _ | _⟩
  · obtain ⟨hjobs, dialing', hreach⟩ := h
    exact ⟨hjobs, dialing', .head hstep hreach⟩
  · obtain ⟨dialing', hreach⟩ := h
    exact ⟨dialing', .head hstep hreach⟩
  · obtain ⟨dialing', hreach⟩ := h
    exact ⟨dialing', .head hstep hreach⟩
  · trivial
  · trivial

/-- The present test has not begun. -/
structure IsFresh (s : Series σ τ) : Prop where
  trial : s.trial = { name := s.test.name, exchange := s.trial.exchange }
  commands : s.commands = s.test.commands
  ended : s.ended = none

end Series
end StreamConformance
