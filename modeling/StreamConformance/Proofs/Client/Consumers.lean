import StreamConformance.Proofs.Channel.Refusal
import StreamConformance.Proofs.Client.Calls
import StreamConformance.Proofs.Receivers

/-!
# The consumers at a connection

Any number of threads open streams at a connection, each for a new consumer.  However they
interleave with the reader and with each other, a consumer is treated as the only one of its stream:

* it has one stream object at most (`eq_of_interaction`);
* it is offered one subscription at most, so it holds none when that comes
  (`subscription_of_offered`);
* at most one end of its stream is on its way or in the route table, or has arrived (`loads`,
  `isTally_loads`).

All of these are tallies: a consumer that is opened is handed on from the task that opens its stream
to what becomes of that (`IsTally`, `IsTally.atMost`).
-/

namespace StreamConformance
namespace Client

open Crew (Move Turns weight)

/-- The interaction whose consumer a stream is opened for. -/
def opened? : Event Step → Option Nat
  | .opened _ _ _ i => some i
  | .openedChannel _ i => some i
  | _ => none

theorem Connection.interaction_of_newLabel? {c : Connection} {e : Event Step} {l : Label}
    (h : c.newLabel? e = some l) : opened? e = some l.interaction := by
  cases e with
  | opened n kind p i => cases kind <;> (cases h; rfl)
  | openedChannel n i =>
    cases h
    rfl
  | asked | attached | heard | copied | released | resumed => cases h

/-- A step that names a stream object, or the consumer of a message, names one that there is. -/
def Connection.KnowsStep (c : Connection) : Step → Prop
  | .register j => ∃ l, c.labels[j]? = some l ∧ l.kind ≠ .detached
  | .post i _ | .writeMessage i _ =>
    ∃ (j : Nat) (l : Label), c.labels[j]? = some l ∧ l.interaction = i ∧ l.kind = .detached
  | _ => True

/-- A task that names a stream object names one that there is, and the consumer that it serves. -/
def Connection.Knows (c : Connection) : Task Step → Prop
  | .call (.resume s) => c.KnowsStep s
  | .tell (.resumed s) => c.KnowsStep s
  | .call (.subscribed i h) => ∃ l, c.labels[h.stream]? = some l ∧ l.interaction = i
  | .call (.ask i _) => ∃ (j : Nat) (l : Label), c.labels[j]? = some l ∧ l.interaction = i
  | _ => True

/-- The stream objects of a connection are there with their labels. -/
def Connection.Keeps (c c' : Connection) : Prop :=
  ∀ (j : Nat) (l : Label), c.labels[j]? = some l → c'.labels[j]? = some l

theorem Connection.KnowsStep.mono {c c' : Connection} (hc : c.Keeps c') {s : Step}
    (h : c.KnowsStep s) : c'.KnowsStep s := by
  unfold KnowsStep at h ⊢
  split at h
  · exact h.imp fun l hl => ⟨hc _ l hl.1, hl.2⟩
  · exact h.imp fun j ⟨l, hl⟩ => ⟨l, hc _ l hl.1, hl.2⟩
  · exact h.imp fun j ⟨l, hl⟩ => ⟨l, hc _ l hl.1, hl.2⟩
  · trivial

theorem Connection.Knows.mono {c c' : Connection} (hc : c.Keeps c') {t : Task Step}
    (h : c.Knows t) : c'.Knows t := by
  unfold Knows at h ⊢
  split at h
  · exact KnowsStep.mono hc h
  · exact KnowsStep.mono hc h
  · exact h.imp fun l hl => ⟨hc _ l hl.1, hl.2⟩
  · exact h.imp fun j ⟨l, hl⟩ => ⟨l, hc _ l hl.1, hl.2⟩
  · trivial

namespace Chronicle

open Exchange (Origin)

variable {ι : Type} {c d : Crew ι Chronicle Step} {e e' : Exchange Chronicle} {t t' : Task Step}

/-! ## New consumers -/

/-- A consumer that is opened holds no subscription yet. -/
def OpensNew (_ : ι) (e e' : Exchange Chronicle) (_ : List (Task Step)) : Prop :=
  ∀ x, e' = e.enter x → x.receiver.reception.subscription = none

theorem eq_of_enter_eq {x y : Interaction} (h : e.enter x = e.enter y) : x = y :=
  (Array.push_eq_push.mp (congrArg Exchange.interactions h)).1

theorem enter_ne_self (x : Interaction) (e : Exchange Chronicle) : e ≠ e.enter x := by
  intro h
  have hsize := congrArg (fun e : Exchange Chronicle => e.interactions.size) h
  rw [Exchange.size_enter] at hsize
  omega

theorem opensNew_enter (k : ι) {x : Interaction}
    (hx : x.receiver.reception.subscription = none) (ts : List (Task Step)) :
    OpensNew k e (e.enter x) ts := by
  intro y hy
  rw [← eq_of_enter_eq hy]
  exact hx

theorem opensNew_self (k : ι) (e : Exchange Chronicle) (ts : List (Task Step)) :
    OpensNew k e e ts :=
  fun x hx => absurd hx (enter_ne_self x e)

/-- What the threads may do if every stream is opened for a new consumer. -/
def newRules (ι : Type) : Crew.Rules ι Chronicle Step :=
  (rules ι).restrict OpensNew

theorem reach_rules [DecidableEq ι] (h : Crew.Reach environment (newRules ι) start c) :
    Crew.Reach environment (rules ι) start c :=
  h.mono (fun _ _ _ _ hstart => hstart.1) fun _ _ _ hemit => hemit

theorem not_due_start (t : Task Step) : ¬ (start : Crew ι Chronicle Step).Due t := by
  rintro (ht | ⟨k, ht⟩) <;> cases ht

/-- What every turn keeps is kept along a run. -/
theorem reach_induction [DecidableEq ι] {P : Crew ι Chronicle Step → Prop} {b : Crew ι Chronicle Step}
    (hb : Crew.Reach environment (newRules ι) start b)
    (h : Crew.Reach environment (newRules ι) b c) (hP : P b)
    (hturn : ∀ {c d : Crew ι Chronicle Step} {k : ι} {old new : List (Task Step)},
      Crew.Reach environment (newRules ι) start c → P c →
      Move environment (newRules ι) k c.exchange old new d.exchange → Turns k old new c d → P d) :
    P c := by
  induction h with
  | refl => exact hP
  | tail h hstep ih =>
    have hreach := hb.trans h
    obtain ⟨k, old, new, hmove, hturns⟩ := hstep.move (tidy_of_reach (reach_rules hreach)).calm
    exact hturn hreach ih hmove hturns

/-! ## Stream objects that there are -/

theorem keeps_perform (t : Task Step) (e : Exchange Chronicle) :
    e.far.connection.Keeps (e.perform environment t).1.far.connection := by
  intro j l hl
  rw [Exchange.far_perform]
  cases t with
  | tell event => exact Connection.label_react hl event
  | _ => exact hl

/-- A turn leaves the stream objects with their labels. -/
theorem keeps_move {k : ι} {old new : List (Task Step)}
    (h : Move environment (newRules ι) k e old new e') :
    e.far.connection.Keeps e'.far.connection := by
  cases h with
  | perform ht => exact keeps_perform _ e
  | start h =>
    cases h.1 with
    | channel | request | own | arrive | finish | release | sever => exact fun _ _ hl => hl
  | emit h hp hs =>
    rw [Exchange.send, Exchange.atScripted, Exchange.far_atInteraction]
    exact fun _ _ hl => hl

theorem knows_perform (h : e.far.connection.Knows t) (ht' : t' ∈ (e.perform environment t).2) :
    (e.perform environment t).1.far.connection.Knows t' := by
  have hmono : (e.perform environment t).1.far.connection.Knows t := h.mono (keeps_perform t e)
  have horigin := Origin.of_mem ht'
  cases horigin with
  | @call event cl hcl =>
    have hnew {l : Label} (hl : e.far.connection.newLabel? event = some l) :
        (e.far.connection.react event).1.labels[e.far.connection.labels.length]? = some l := by
      rw [Connection.labels_react, hl]
      exact List.getElem?_concat_length ..
    have hlink {i j : Nat} {l : Link} (hl : e.far.connection.link? j = some (i, l)) :
        ∃ (j : Nat) (l : Label),
          (e.far.connection.react event).1.labels[j]? = some l ∧ l.interaction = i := by
      obtain ⟨l', hl', hi, -⟩ := Connection.exists_label_of_serves ⟨l, hl⟩
      exact ⟨j, l', Connection.label_react hl' event, hi⟩
    have hmem : cl ∈ (e.far.connection.react event).2 := hcl
    cases Connection.makes_of_mem hmem with
    | ask _ hl => exact hlink hl
    | askCancel hl => exact hlink hl
    | askRequest hl => exact hlink hl
    | subscribed hl => exact ⟨_, hnew hl, rfl⟩
    | register hl hk => exact ⟨_, hnew hl, hk⟩
    | post n p i => exact ⟨_, _, hnew rfl, rfl, rfl⟩
    | message i p => exact hmono
    | _ => trivial
  | resumed s => exact hmono
  | _ => trivial

/-- What a thread may begin with, and what a script sends. -/
inductive Begins : Task Step → Prop where
  | request (n : Nat) (kind : Script.InteractionKind) (p : Payload) (i : Nat) :
      Begins (.tell (.opened n kind p i))
  | channel (n i : Nat) : Begins (.tell (.openedChannel n i))
  | own (i : Nat) (a : Ask) : Begins (.own i a)
  | arrive (f : Wire.Frame) : Begins (.call (.resume (.receive f)))
  | finish (reason : String) : Begins (.call (.resume (.close reason)))
  | release (n : Nat) : Begins (.tell (.released n))
  | emit (r : Handle) (s : Signal Payload) : Begins (.tell (.heard r s))

theorem begins_of_mem {ts : List (Task Step)} (h : Starts e e' ts) (ht : t ∈ ts) : Begins t := by
  cases h with
  | sever => cases ht
  | channel | request | own | arrive | finish | release =>
    obtain rfl := List.mem_singleton.mp ht
    constructor

/-- What is new after a turn comes of the task that was performed, or a thread begins with it. -/
theorem new_cases {k : ι} {old new : List (Task Step)}
    (h : Move environment (newRules ι) k e old new e') (ht : t ∈ new) :
    (∃ t', old = [t'] ∧ t ∈ (e.perform environment t').2 ∧ e' = (e.perform environment t').1) ∨
      (old = [] ∧ Begins t) := by
  cases h with
  | perform => exact Or.inl ⟨_, rfl, ht, rfl⟩
  | start hstart => exact Or.inr ⟨rfl, begins_of_mem hstart.1 ht⟩
  | emit =>
    obtain ⟨r, -, rfl⟩ := Option.map_eq_some_iff.mp (Option.mem_toList.mp ht)
    exact Or.inr ⟨rfl, .emit r _⟩

/-- **Whatever is due names stream objects that there are.** -/
theorem knows_of_due [DecidableEq ι] (h : Crew.Reach environment (newRules ι) start c) :
    ∀ t, c.Due t → c.exchange.far.connection.Knows t := by
  refine reach_induction (P := fun c => ∀ t, c.Due t → c.exchange.far.connection.Knows t) .refl h
    ?_ ?_
  · exact fun t ht => absurd ht (not_due_start t)
  · intro c d k old new _ ih hmove hturns t ht
    rcases hturns.due ht with ht | ht
    · exact (ih t ht).mono (keeps_move hmove)
    · rcases new_cases hmove ht with ⟨t', rfl, ht, hafter⟩ | ⟨-, hbegins⟩
      · rw [hafter]
        exact knows_perform (ih t' (Or.inr ⟨k, hturns.mem_old (List.mem_singleton_self _)⟩)) ht
      · cases hbegins <;> trivial

/-! ## Tallies of consumers -/

/-- What a thread begins with that opens no stream, and what a script sends. -/
def IsPlain : Task Step → Prop
  | .own .. | .call (.resume (.receive _)) | .call (.resume (.close _)) | .tell (.released _)
  | .tell (.heard ..) => True
  | _ => False

/-- A tally of what there is of a consumer: one when its stream is about to be opened, and never
more from then on. -/
structure IsTally (i : Nat) (q : Tally Chronicle Step) : Prop where
  kept_start : q.kept { far := {} } = 0
  stays : ∀ {e e' : Exchange Chronicle} {t : Task Step}, e.far.connection.Knows t →
    e.far.connection.Keeps e'.far.connection → q.carried e' t ≤ q.carried e t
  perform : ∀ {e : Exchange Chronicle} {t : Task Step}, e.far.connection.AllowsTask t →
    weight (q.carried (e.perform environment t).1) (e.perform environment t).2 +
      q.kept (e.perform environment t).1 + q.used t ≤ q.carried e t + q.kept e
  opens : ∀ {e : Exchange Chronicle} {x : Interaction} {event : Event Step},
    x.receiver.reception.subscription = none → opened? event = some e.interactions.size →
    q.carried (e.enter x) (.tell event) + q.kept (e.enter x) ≤
      q.kept e + if i = e.interactions.size then 1 else 0
  plain : ∀ {e : Exchange Chronicle} {t : Task Step}, IsPlain t → q.carried e t = 0
  congr : ∀ {e e' : Exchange Chronicle},
    e'.far.connection.streams = e.far.connection.streams →
    e'.far.connection.routes = e.far.connection.routes → e'.reception? i = e.reception? i →
    q.kept e' = q.kept e

/-- How much there may be of a consumer. -/
def share (i : Nat) (e : Exchange Chronicle) : Nat :=
  if i < e.interactions.size then 1 else 0

theorem share_enter (i : Nat) (x : Interaction) (e : Exchange Chronicle) :
    share i (e.enter x) = share i e + if i = e.interactions.size then 1 else 0 := by
  rw [share, share, Exchange.enter, Array.size_push]
  split <;> split <;> split <;> omega

/-- What a thread begins with has nothing to do with a consumer, unless it opens the stream. -/
theorem IsTally.start_le {i : Nat} {q : Tally Chronicle Step} (hq : IsTally i q)
    {ts : List (Task Step)} (h : Starts e e' ts)
    (hnew : ∀ x, e' = e.enter x → x.receiver.reception.subscription = none) :
    weight (q.carried e') ts + q.kept e' + share i e ≤ q.kept e + share i e' := by
  have hidle {t : Task Step} (ht : IsPlain t) :
      weight (q.carried e) [t] + q.kept e + share i e ≤ q.kept e + share i e := by
    simp only [Crew.weight_cons, Crew.weight_nil, hq.plain ht]
    omega
  have hopen {x : Interaction} {event : Event Step} (hx : x.receiver.reception.subscription = none)
      (hevent : opened? event = some e.interactions.size) :
      weight (q.carried (e.enter x)) [.tell event] + q.kept (e.enter x) + share i e ≤
        q.kept e + share i (e.enter x) := by
    have hle := hq.opens hx hevent
    rw [share_enter]
    simp only [Crew.weight_cons, Crew.weight_nil]
    omega
  cases h with
  | channel => exact hopen (hnew _ rfl) rfl
  | request => exact hopen (hnew _ rfl) rfl
  | sever cause =>
    have hkept : q.kept { e with far := e.far.sever cause } = q.kept e := hq.congr rfl rfl rfl
    rw [hkept, Crew.weight_nil, Nat.zero_add]
    exact Nat.le_refl _
  | own | arrive | finish | release => exact hidle trivial

/-- What a script sends has nothing to do with a consumer. -/
theorem IsTally.emit_eq {i : Nat} {q : Tally Chronicle Step} (hq : IsTally i q) (j : Nat)
    (p : ScriptedProducer) (emitter : Emitter) (s : Signal Payload) (e : Exchange Chronicle) :
    weight (q.carried (e.send (τ := Step) j p emitter s).1) (e.send j p emitter s).2 = 0 ∧
      q.kept (e.send (τ := Step) j p emitter s).1 = q.kept e ∧
      share i (e.send (τ := Step) j p emitter s).1 = share i e := by
  have hfar : (e.send (τ := Step) j p emitter s).1.far = e.far :=
    Exchange.far_atInteraction (τ := Step) ..
  refine ⟨Crew.weight_eq_zero fun t ht => ?_,
    hq.congr (by rw [hfar]) (by rw [hfar]) (Exchange.reception?_atScripted _ _ _ _), ?_⟩
  · obtain ⟨r, -, rfl⟩ := Option.map_eq_some_iff.mp (Option.mem_toList.mp ht)
    exact hq.plain trivial
  · rw [share, Exchange.send, Exchange.atScripted, Exchange.size_atInteraction, share]

/-- **There is at most one of each consumer.** -/
theorem IsTally.atMost [DecidableEq ι] {i : Nat} {q : Tally Chronicle Step} (hq : IsTally i q)
    (h : Crew.Reach environment (newRules ι) start c) : q.AtMost (share i c.exchange) c := by
  refine reach_induction (P := fun c => q.AtMost (share i c.exchange) c) .refl h ?_ ?_
  · refine ⟨0, Crew.weighs_of_forall fun _ => rfl, ?_⟩
    rw [show q.kept (start (ι := ι)).exchange = 0 from hq.kept_start]
    exact Nat.zero_le _
  · intro c d k old new hreach ih hmove hturns
    have hknows := knows_of_due hreach
    have hallows := (tidy_of_reach (reach_rules hreach)).pending
    refine ih.of_turns hturns (fun k' t ht => hq.stays (hknows t (Or.inr ⟨k', ht⟩))
      (keeps_move hmove)) ?_
    have hold : ∀ t ∈ old, t ∈ c.stack k := fun t => hturns.mem_old
    clear hturns
    generalize d.exchange = e' at hmove ⊢
    cases hmove with
    | @perform t ht =>
      have hperform := hq.perform (hallows k t (hold t (by simp)))
      have hshare : share i (c.exchange.perform environment t).1 = share i c.exchange := by
        rw [share, Exchange.size_perform, share]
      simp only [Crew.weight_cons, Crew.weight_nil, Nat.add_zero]
      omega
    | start hstart =>
      have hle := hq.start_le hstart.1 hstart.2
      simp only [Crew.weight_nil]
      omega
    | @emit j p emitter s hemit hp hs =>
      obtain ⟨hnew, hkept, hshare⟩ := hq.emit_eq j p emitter s c.exchange
      rw [hnew, hkept, hshare]
      simp only [Crew.weight_nil]
      omega

/-- Whether a stream is about to be opened for a consumer, as a number. -/
def opening (i : Nat) : Task Step → Nat
  | .tell event => if opened? event = some i then 1 else 0
  | _ => 0

/-- Streams are opened by threads that begin with that. -/
theorem opening_of_mem (i : Nat) (h : t' ∈ (e.perform environment t).2) : opening i t' = 0 := by
  have horigin := Origin.of_mem h
  cases horigin <;> rfl

theorem opening_of_isPlain {i : Nat} (h : IsPlain t) : opening i t = 0 := by
  cases t with
  | tell event =>
    cases event with
    | released | heard => rfl
    | _ => cases h
  | _ => rfl

/-! ### Stream objects -/

/-- The stream objects of a consumer. -/
def streams (i : Nat) : Tally Chronicle Step where
  carried _ := opening i
  kept e := e.far.connection.labels.countP fun l => l.interaction == i
  used _ := 0

theorem isTally_streams (i : Nat) : IsTally i (streams i) where
  kept_start := rfl
  stays _ _ := Nat.le_refl _
  perform := by
    intro e t _
    have hnew : weight (opening i) (e.perform environment t).2 = 0 :=
      Crew.weight_eq_zero fun t' => opening_of_mem i
    dsimp only [streams]
    rw [hnew, Exchange.far_perform]
    cases t with
    | tell event =>
      dsimp only [environment, react, opening]
      rw [Connection.labels_react, List.countP_append]
      cases hl : e.far.connection.newLabel? event with
      | none => simp
      | some l =>
        rw [Connection.interaction_of_newLabel? hl]
        simp only [Option.toList_some, List.countP_singleton, beq_iff_eq, Option.some.injEq]
        omega
    | _ => simp
  opens := by
    intro e x event _ hevent
    simp only [streams, opening, hevent, Exchange.enter, Option.some.injEq]
    split <;> split <;> omega
  plain := opening_of_isPlain
  congr := by
    intro e e' hstreams _ _
    simp only [streams, Connection.labels_congr hstreams]

/-- Two places in a list with the property `p` make two members with it. -/
theorem not_lt_of_countP_le_one {α : Type} {p : α → Bool} {l : List α} (h : l.countP p ≤ 1)
    {j j' : Nat} {a b : α} (hj : l[j]? = some a) (hj' : l[j']? = some b) (ha : p a = true)
    (hb : p b = true) : ¬ j < j' := by
  intro hlt
  rw [← List.take_append_drop j' l, List.countP_append] at h
  have hbefore : 0 < (l.take j').countP p :=
    List.countP_pos_iff.mpr ⟨a, List.mem_of_getElem? (by rw [List.getElem?_take, if_pos hlt, hj]), ha⟩
  have hafter : 0 < (l.drop j').countP p :=
    List.countP_pos_iff.mpr
      ⟨b, List.mem_of_getElem? (by rw [List.getElem?_drop, Nat.add_zero, hj']), hb⟩
  omega

/-- **A consumer has one stream object at most.** -/
theorem eq_of_interaction [DecidableEq ι] (h : Crew.Reach environment (newRules ι) start c)
    {j j' : Nat} {l l' : Label} (hj : c.exchange.far.connection.labels[j]? = some l)
    (hj' : c.exchange.far.connection.labels[j']? = some l')
    (hi : l.interaction = l'.interaction) : j = j' := by
  have hcount := ((isTally_streams l.interaction).atMost h).kept_add_used_le
  have hone : c.exchange.far.connection.labels.countP (fun m => m.interaction == l.interaction) ≤ 1 :=
    ((Nat.le_add_right _ _).trans hcount).trans (by unfold share; split <;> omega)
  have hl : (l.interaction == l.interaction) = true := beq_self_eq_true _
  have hl' : (l'.interaction == l.interaction) = true := by simp [hi]
  have hle := not_lt_of_countP_le_one hone hj hj' hl hl'
  have hge := not_lt_of_countP_le_one hone hj' hj hl' hl
  omega

/-- A stream object serves a consumer that there is. -/
theorem lt_size_of_label [DecidableEq ι] (h : Crew.Reach environment (newRules ι) start c) {j : Nat}
    {l : Label} (hj : c.exchange.far.connection.labels[j]? = some l) :
    l.interaction < c.exchange.interactions.size := by
  have hcount := ((isTally_streams l.interaction).atMost h).kept_add_used_le
  have hpos : 0 < c.exchange.far.connection.labels.countP
      (fun m => m.interaction == l.interaction) :=
    List.countP_pos_iff.mpr ⟨l, List.mem_of_getElem? hj, beq_self_eq_true _⟩
  have hshare : 0 < share l.interaction c.exchange :=
    (Nat.lt_of_lt_of_le hpos (Nat.le_add_right _ _)).trans_le hcount
  unfold share at hshare
  split at hshare
  · assumption
  · omega

/-! ### Offers -/

/-- Whether a subscription is to be offered to a consumer, as a number. -/
def offered (i : Nat) : Task Step → Nat
  | .call (.subscribed i' _) => if i' = i then 1 else 0
  | _ => 0

/-- Whether a consumer holds a subscription, as a number. -/
def held (i : Nat) (e : Exchange Chronicle) : Nat :=
  if ((e.reception? i).bind (·.subscription)).isSome then 1 else 0

/-- The subscriptions of a consumer: those that are to be offered, and the one that it holds. -/
def offers (i : Nat) : Tally Chronicle Step where
  carried _ t := opening i t + offered i t
  kept := held i
  used _ := 0

/-- Only the opening of a stream makes a subscription to be offered. -/
theorem weight_offered_le (i : Nat) (t : Task Step) (e : Exchange Chronicle) :
    weight (offered i) (e.perform environment t).2 ≤ opening i t := by
  by_cases ht : ∃ event, t = .tell event ∧ e.far.connection.newLabel? event ≠ none
  · obtain ⟨event, rfl, hnew⟩ := ht
    show weight (offered i) ((e.far.connection.react event).2.map .call) ≤ _
    cases event with
    | opened n kind p i' =>
      cases kind <;>
        simp [Connection.react, Connection.opened, Connection.addStream, offered, opening, opened?]
    | openedChannel n i' =>
      simp [Connection.react, Connection.openedChannel, Connection.addStream, offered, opening,
        opened?]
    | asked | attached | heard | copied | released | resumed => exact absurd rfl hnew
  · rw [Crew.weight_eq_zero fun t' ht' => ?_]
    · exact Nat.zero_le _
    have horigin := Origin.of_mem ht'
    cases horigin with
    | @call event cl hcl =>
      have hmem : cl ∈ (e.far.connection.react event).2 := hcl
      cases Connection.makes_of_mem hmem with
      | subscribed hl => exact absurd ⟨event, rfl, by simp [hl]⟩ ht
      | _ => rfl
    | _ => rfl

/-- A consumer comes to hold a subscription when that is offered. -/
theorem held_perform_le (i : Nat) (t : Task Step) (e : Exchange Chronicle) :
    held i (e.perform environment t).1 ≤ held i e + offered i t := by
  cases hx : e.reception? i with
  | none =>
    rw [held, Exchange.reception?_perform_of_none environment t hx]
    exact Nat.zero_le _
  | some x =>
    by_cases hu : ∃ u, t.use? = some (i, u)
    · obtain ⟨u, hu⟩ := hu
      obtain ⟨y, a, hy, hb, -⟩ := Exchange.reception?_use environment hu hx
      rw [held, hy, held, hx]
      cases hsub : y.subscription with
      | none => simp [hsub]
      | some h =>
        rcases hb.subscription_eq hsub with hsame | rfl
        · simp [hsub, hsame]
        · have ht : t = .call (.subscribed i h) := by
            unfold Task.use? at hu
            split at hu <;> cases hu
            rfl
          simp [hsub, ht, offered]
    · rw [held, Exchange.reception?_perform environment (fun u h => hu ⟨u, h⟩), held]
      exact Nat.le_add_right _ _

theorem isTally_offers (i : Nat) : IsTally i (offers i) where
  kept_start := rfl
  stays _ _ := Nat.le_refl _
  perform := by
    intro e t _
    have hnew : weight (fun t => opening i t + offered i t) (e.perform environment t).2 =
        weight (offered i) (e.perform environment t).2 :=
      Crew.weight_congr fun t' ht' => by rw [opening_of_mem i ht', Nat.zero_add]
    have hoffered := weight_offered_le i t e
    have hheld := held_perform_le i t e
    dsimp only [offers]
    rw [hnew]
    omega
  opens := by
    intro e x event hx hevent
    have hheld : held i (e.enter x) ≤ held i e := by
      rw [held, Exchange.reception?_enter, held]
      split
      · simp [hx]
      · exact Nat.le_refl _
    simp only [offers, opening, offered, hevent, Option.some.injEq, eq_comm (a := i)]
    omega
  plain := by
    intro e t ht
    have hoffered : offered i t = 0 := by
      unfold offered
      split
      · cases ht
      · rfl
    simp only [offers, opening_of_isPlain ht, hoffered]
  congr := by
    intro e e' _ _ hreception
    simp only [offers, held, hreception]

/-- **A consumer that is offered a subscription holds none.** -/
theorem subscription_of_offered [DecidableEq ι]
    (h : Crew.Reach environment (newRules ι) start c) {i : Nat} {g : Handle}
    (hpending : c.Pending (.call (.subscribed i g))) {x : Reception}
    (hx : c.exchange.reception? i = some x) : x.subscription = none := by
  obtain ⟨k, hk⟩ := hpending
  have hle := ((isTally_offers i).atMost h).of_mem hk
  have hcarried : (offers i).carried c.exchange (.call (.subscribed i g)) = 1 := by
    simp [offers, opening, offered]
  have hshare : share i c.exchange ≤ 1 := by
    unfold share
    split <;> omega
  have hheld : held i c.exchange = 0 := by
    dsimp only [offers] at hle hcarried
    omega
  rw [held, hx] at hheld
  simpa using hheld

/-! ### Ends -/

/-- Whether the end of a stream is on its way to a consumer, as a number. -/
def ending (i : Nat) : Task Step → Nat
  | .call (.signal i' s) => if i' = i ∧ s.isTerminal = true then 1 else 0
  | _ => 0

/-- Whether a consumer has to be entered into the route table or to be told of its message, as a
number. -/
def entering (i : Nat) (c : Connection) : Step → Nat
  | .register j => if (c.labels[j]?).map (·.interaction) = some i then 1 else 0
  | .post i' _ => if i' = i then 1 else 0
  | .writeMessage i' _ => if i' = i then 1 else 0
  | _ => 0

/-- What a task has to do with a consumer whose stream was opened. -/
def charge (i : Nat) (c : Connection) : Task Step → Nat
  | .call (.resume s) => entering i c s
  | .tell (.resumed s) => entering i c s
  | t => ending i t

/-- Where a consumer is: on its way into the route table, in there, or told how its stream ended. -/
def loads (i : Nat) : Tally Chronicle Step where
  carried e t := opening i t + charge i e.far.connection t
  kept e := e.far.connection.routes.uses i
  used := ending i

section React

variable {i : Nat} {r : Connection} {event : Event Step}

/-- Most calls have nothing to do with where a consumer is. -/
theorem charge_of_makes {cl : Call Step} (h : r.Makes event cl) (hnew : r.newLabel? event = none)
    (hpost : ∀ i p, event ≠ .resumed (.post i p))
    (hsignals : ∀ i s, (i, s) ∈ r.signalsOn event → s.isTerminal = false) (i : Nat)
    (r' : Connection) : charge i r' (.call cl) = 0 := by
  cases h with
  | register hl =>
    rw [hnew] at hl
    cases hl
  | post => cases hnew
  | message i p => exact absurd rfl (hpost i p)
  | signal hs => simp [charge, ending, hsignals _ _ hs]
  | _ => rfl

/-- Whoever is taken out of the table is sent an end. -/
theorem charge_endInbound_le (id : UInt32) {s : Signal Payload} (hs : s.isTerminal = true) (i : Nat)
    (r r' : Connection) :
    weight (charge i r') ((r.endInbound id s).2.map .call) + (r.routes.takeInbound id).1.uses i ≤
      r.routes.uses i := by
  have huses := Routes.uses_takeInbound_le id i r.routes
  rw [Connection.calls_endInbound]
  cases hi : r.routes.inbound? id with
  | none =>
    rw [hi] at huses
    simpa using huses
  | some i' =>
    rw [hi] at huses
    simp only [Option.some.injEq] at huses
    simp only [Option.map_some, Option.toList_some, List.map_cons, List.map_nil, Crew.weight_cons,
      Crew.weight_nil, charge, ending, hs, and_true]
    omega

theorem charge_drain (reason : String) (i : Nat) (r' : Connection) (l : List (UInt32 × Route)) :
    weight (charge i r') ((l.flatMap fun e => Connection.endRoute reason e.2).map .call) =
      l.countP fun e => e.2.inbound == some i := by
  induction l with
  | nil => rfl
  | cons x l ih =>
    obtain ⟨id, inbound, outbound⟩ := x
    rw [List.flatMap_cons, List.map_append, Crew.weight_append, ih, List.countP_cons, Nat.add_comm]
    congr 1
    cases inbound <;> cases outbound <;>
      simp [Connection.endRoute, charge, ending, entering, Signal.isTerminal]

/-- A step that sends no message on and tells no end has nothing to do with where a consumer is. -/
theorem charge_step_eq_zero {s : Step} (hpost : ∀ i p, s ≠ .post i p)
    (hsignals : ∀ i s', (i, s') ∈ r.signalsOn (.resumed s) → s'.isTerminal = false) (i : Nat) :
    weight (charge i (r.step s).1) ((r.step s).2.map .call) = 0 := by
  refine Crew.weight_eq_zero fun t ht => ?_
  obtain ⟨cl, hcl, rfl⟩ := List.mem_map.mp ht
  exact charge_of_makes (Connection.makes_of_mem_step hcl) rfl (by simpa using hpost) hsignals i _

/-- A frame that ends a stream takes its consumer out of the table, and tells it. -/
theorem charge_receive_le (f : Wire.Frame) (i : Nat) (r : Connection) :
    weight (charge i (r.step (.receive f)).1) ((r.step (.receive f)).2.map .call) +
        (r.routesAfter (.resumed (.receive f))).uses i ≤ r.routes.uses i := by
  cases f with
  | complete id =>
    exact charge_endInbound_le id (s := .complete) rfl i r (r.step (.receive (.complete id))).1
  | error id m =>
    have hcalls : (r.step (.receive (.error id m))).2 =
        (r.endInbound id (.error m)).2 ++ [.resume (.detachLink id)] := rfl
    rw [hcalls, List.map_append, Crew.weight_append]
    exact charge_endInbound_le id (s := .error m) rfl i r (r.step (.receive (.error id m))).1
  | next id p =>
    rw [charge_step_eq_zero (by simp) ?_ i, Nat.zero_add]
    · exact Nat.le_refl _
    · intro i s hs
      obtain ⟨i', -, heq⟩ := Option.map_eq_some_iff.mp (Option.mem_toList.mp hs)
      cases heq
      rfl
  | requestN | cancel | requestResponse | requestStream | requestSubscription | fireAndForget
  | requestChannel =>
    rw [charge_step_eq_zero (by simp) (by simp [Connection.signalsOn]) i, Nat.zero_add]
    exact Nat.le_refl _

/-- What a step does to a consumer it does once. -/
theorem charge_step_le (s : Step) (i : Nat) (r : Connection) :
    weight (charge i (r.step s).1) ((r.step s).2.map .call) + (r.step s).1.routes.uses i ≤
      entering i r s + r.routes.uses i := by
  have hroutes : (r.step s).1.routes = r.routesAfter (.resumed s) :=
    Connection.routes_react (.resumed s) r
  rw [hroutes]
  cases s with
  | register j =>
    rw [charge_step_eq_zero (by simp) (by simp [Connection.signalsOn]), Nat.zero_add, entering,
      Connection.routesAfter]
    cases r.labels[j]? with
    | none => simp
    | some l =>
      have hinsert := Routes.uses_insert_le l.id (l.route j) i r.routes
      rw [Nat.add_comm]
      simpa [Label.route] using hinsert
  | detach id =>
    rw [charge_step_eq_zero (by simp) (by simp [Connection.signalsOn]), Nat.zero_add]
    exact (Nat.le_add_right _ _).trans ((Routes.uses_takeInbound_le id i r.routes).trans
      (Nat.le_add_left _ _))
  | fail id fault =>
    have hend := charge_endInbound_le id (s := .error fault.message) rfl i r
      (r.step (.fail id fault)).1
    exact hend.trans (Nat.le_add_left _ _)
  | post i' p =>
    simp [Connection.step, charge, entering, Connection.routesAfter]
  | writeMessage i' f =>
    have hcalls : (r.step (.writeMessage i' f)).2 = [.signal i' (r.messageEnd f)] := by
      rw [Connection.step, Connection.send_eq, Connection.messageEnd]
      cases r.refusal? f <;> rfl
    have hends : (r.messageEnd f).isTerminal = true := by
      unfold Connection.messageEnd
      split <;> rfl
    rw [hcalls]
    simp [charge, ending, entering, hends, Connection.routesAfter]
  | receive f => exact (charge_receive_le f i r).trans (Nat.le_add_left _ _)
  | detachLink id =>
    rw [charge_step_eq_zero (by simp) (by simp [Connection.signalsOn]), Nat.zero_add]
    exact (Routes.uses_takeOutbound_le id i r.routes).trans (Nat.le_add_left _ _)
  | drain reason =>
    have hdrain := charge_drain reason i (r.step (.drain reason)).1 r.routes.entries
    exact (Nat.le_of_eq hdrain).trans (Nat.le_add_left _ _)
  | write | writeCancel | cancelProducer | askProducer | close =>
    rw [charge_step_eq_zero (by simp) (by simp [Connection.signalsOn])]
    exact Nat.le_refl _

/-- A stream object that has just been added is entered for its own consumer. -/
theorem entering_newLabel {l : Label} (h : r.newLabel? event = some l) (i : Nat) :
    entering i (r.react event).1 (.register r.streams.size) = if l.interaction = i then 1 else 0 := by
  rw [entering, Connection.labels_react, h, ← Connection.length_labels, Option.toList_some,
    List.getElem?_concat_length]
  simp

/-- **What happens to a consumer happens to it once.** -/
theorem charge_react_le (event : Event Step) (i : Nat) (r : Connection) :
    weight (charge i (r.react event).1) ((r.react event).2.map .call) +
        (r.react event).1.routes.uses i ≤
      opening i (.tell event) + charge i r (.tell event) + r.routes.uses i := by
  have hroutes := Connection.routes_react event r
  have hzero (hnew : r.newLabel? event = none) (hevent : ∀ s, event ≠ .resumed s) :
      weight (charge i (r.react event).1) ((r.react event).2.map .call) +
          (r.react event).1.routes.uses i ≤
        opening i (.tell event) + charge i r (.tell event) + r.routes.uses i := by
    have hsignals : r.signalsOn event = [] := by
      cases event with
      | resumed s => exact absurd rfl (hevent s)
      | _ => rfl
    have hsame : r.routesAfter event = r.routes := by
      cases event with
      | resumed s => exact absurd rfl (hevent s)
      | _ => rfl
    rw [hroutes, hsame, Crew.weight_eq_zero fun t ht => ?_]
    · omega
    obtain ⟨cl, hcl, rfl⟩ := List.mem_map.mp ht
    exact charge_of_makes (Connection.makes_of_mem hcl) hnew (fun i p => hevent _)
      (by simp [hsignals]) i _
  have hregister (l : Label) (h : r.newLabel? event = some l) := entering_newLabel h i
  rw [hroutes]
  cases event with
  | opened n kind p i' =>
    cases kind with
    | fireAndForget =>
      simp [Connection.react, Connection.opened, Connection.routesAfter, charge, entering, ending,
        opening, opened?]
    | requestResponse | requestStream | requestSubscription =>
      have hone := hregister _ rfl
      simp only [Connection.react, Connection.opened, Connection.addStream] at hone ⊢
      simp [Connection.routesAfter, charge, hone, ending, opening, opened?]
  | openedChannel n i' =>
    have hone := hregister _ rfl
    simp only [Connection.react, Connection.openedChannel, Connection.addStream] at hone ⊢
    simp [Connection.routesAfter, charge, hone, ending, opening, opened?]
  | resumed s =>
    rw [← hroutes]
    refine (charge_step_le s i r).trans (Nat.le_of_eq ?_)
    rw [opening, charge]
    simp [opened?]
  | asked | attached | heard | copied | released =>
    rw [← hroutes]
    exact hzero rfl (by simp)

/-- What a task has to do with a consumer does not change with the connection. -/
theorem charge_of_keeps {r' : Connection} (hknows : r.Knows t) (hkeeps : r.Keeps r') (i : Nat) :
    charge i r' t = charge i r t := by
  have hstep {s : Step} (h : r.KnowsStep s) : entering i r' s = entering i r s := by
    cases s with
    | register j =>
      obtain ⟨l, hl, -⟩ := h
      rw [entering, hkeeps j l hl, entering, hl]
    | _ => rfl
  cases t with
  | call cl =>
    cases cl with
    | resume s => exact hstep hknows
    | _ => rfl
  | tell event =>
    cases event with
    | resumed s => exact hstep hknows
    | _ => rfl
  | _ => rfl

theorem charge_of_isPlain (ht : IsPlain t) (i : Nat) (r : Connection) : charge i r t = 0 := by
  unfold IsPlain at ht
  split at ht <;> first | rfl | cases ht

/-- Only the connection says where a consumer is. -/
theorem charge_perform_eq_zero (ht : ∀ event, t ≠ .tell event) (hresume : ∀ s, t ≠ .call (.resume s))
    (i : Nat) (e : Exchange Chronicle) (r : Connection) :
    weight (charge i r) (e.perform environment t).2 = 0 := by
  refine Crew.weight_eq_zero fun t' ht' => ?_
  have horigin := Origin.of_mem ht'
  cases horigin with
  | call => exact absurd rfl (ht _)
  | resumed => exact absurd rfl (hresume _)
  | _ => rfl

/-- What a task does to a consumer it does once. -/
theorem charge_perform_le (t : Task Step) (i : Nat) (e : Exchange Chronicle) :
    weight (charge i (e.perform environment t).1.far.connection) (e.perform environment t).2 +
        (e.perform environment t).1.far.connection.routes.uses i + ending i t ≤
      opening i t + charge i e.far.connection t + e.far.connection.routes.uses i := by
  by_cases ht : ∃ event, t = .tell event
  · obtain ⟨event, rfl⟩ := ht
    exact charge_react_le event i e.far.connection
  · have hne : ∀ event, t ≠ .tell event := fun event h => ht ⟨event, h⟩
    rw [Exchange.far_perform_of_ne environment hne]
    cases t with
    | tell event => exact absurd rfl (hne event)
    | call cl =>
      cases cl with
      | resume s => simp [Exchange.perform, Exchange.performCall, charge, ending, opening]
      | _ =>
        rw [charge_perform_eq_zero hne (by simp)]
        simp only [opening, charge]
        omega
    | _ =>
      rw [charge_perform_eq_zero hne (by simp)]
      simp only [opening, charge, ending]
      omega

end React

theorem isTally_loads (i : Nat) : IsTally i (loads i) where
  kept_start := rfl
  stays hknows hkeeps := Nat.add_le_add_left (Nat.le_of_eq (charge_of_keeps hknows hkeeps i)) _
  perform := by
    intro e t _
    have hnew : weight ((loads i).carried (e.perform environment t).1) (e.perform environment t).2 =
        weight (charge i (e.perform environment t).1.far.connection)
          (e.perform environment t).2 :=
      Crew.weight_congr fun t' ht' => by
        dsimp only [loads]
        rw [opening_of_mem i ht', Nat.zero_add]
    rw [hnew]
    exact charge_perform_le t i e
  opens := by
    intro e x event hx hevent
    have hcharge : charge i (e.enter x).far.connection (.tell event) = 0 := by
      cases event with
      | opened | openedChannel => rfl
      | _ => cases hevent
    have hopening : opening i (.tell event) = if i = e.interactions.size then 1 else 0 := by
      simp only [opening, hevent, Option.some.injEq, eq_comm (a := i)]
    dsimp only [loads]
    rw [hcharge, hopening, Nat.add_zero, Nat.add_comm]
    exact Nat.le_refl _
  plain := by
    intro e t ht
    dsimp only [loads]
    rw [opening_of_isPlain ht, charge_of_isPlain ht]
  congr := by
    intro e e' _ hroutes _
    simp only [loads, hroutes]

end Chronicle
end Client
end StreamConformance
