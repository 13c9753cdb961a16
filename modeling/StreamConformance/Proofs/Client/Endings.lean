import StreamConformance.Proofs.Client.Consumers

/-!
# How a stream ends for its consumer

A stream that was entered into the route table stays there until its consumer is told how it ended,
or has itself canceled it.  So nobody is taken out of the table and forgotten.

* `Chronicle.told_eq`: what a connection was told are the events that were performed.
* `Chronicle.Backed`, `Chronicle.backed_of_due`: a stream is canceled only once its consumer has
  canceled, it is failed only once a frame of it was refused, and the table is emptied only once the
  connection is closed.
* `Chronicle.ended_of_signal`, `Chronicle.ends_eq_of_mem`: who is told an end has ended, and is told
  one only.
* `Chronicle.exists_label_of_inbound`, `Chronicle.exists_label_of_outbound`: who is in the table was
  entered for its own stream.
* `Chronicle.routed_or_over`, `Chronicle.linked_or_due`: who was entered into the table is in there,
  or an end was sent; and a link is in there, or its producer is to be canceled.
* `Chronicle.sent_or_over`: who sends a message without answers is told what became of that.
-/

namespace StreamConformance

/-- The event that is told by a task. -/
def Task.event? {τ : Type} : Task τ → Option (Event τ)
  | .tell e => some e
  | _ => none

theorem Task.mem_filterMap_event? {τ : Type} {event : Event τ} {ts : List (Task τ)} :
    event ∈ ts.filterMap Task.event? ↔ .tell event ∈ ts := by
  rw [List.mem_filterMap]
  constructor
  · rintro ⟨t, ht, heq⟩
    unfold Task.event? at heq
    split at heq <;> cases heq
    exact ht
  · exact fun ht => ⟨_, ht, rfl⟩

/-- The signal that the consumer of an interaction is sent by a task. -/
def Task.signalTo? {τ : Type} (i : Nat) : Task τ → Option (Signal Payload)
  | .call (.signal i' s) => if i' = i then some s else none
  | _ => none

theorem Task.mem_filterMap_signalTo? {τ : Type} {i : Nat} {s : Signal Payload}
    {ts : List (Task τ)} : s ∈ ts.filterMap (Task.signalTo? i) ↔ .call (.signal i s) ∈ ts := by
  rw [List.mem_filterMap]
  constructor
  · rintro ⟨t, ht, heq⟩
    unfold Task.signalTo? at heq
    split at heq
    · obtain ⟨rfl, hs⟩ := Option.ite_none_right_eq_some.mp heq
      rwa [Option.some.inj hs] at ht
    · cases heq
  · exact fun ht => ⟨_, ht, if_pos rfl⟩

/-- The signals that the consumer of an interaction was sent, in order. -/
def Crew.signalsTo {ι σ τ : Type} (i : Nat) (c : Crew ι σ τ) : List (Signal Payload) :=
  c.done.filterMap (Task.signalTo? i)

namespace Client

open Crew (Move Turns weight)

/-- No other stream object has the number of the stream object `j`. -/
def Connection.Unshared (j : Nat) (c : Connection) : Prop :=
  ∀ (j' : Nat) (l l' : Label), c.labels[j]? = some l → c.labels[j']? = some l' → l'.id = l.id →
    j' = j

theorem Connection.Unshared.of_keeps {c c' : Connection} {j : Nat} (h : c'.Unshared j)
    (hc : c.Keeps c') : c.Unshared j :=
  fun j' l l' hl hl' => h j' l l' (hc j l hl) (hc j' l' hl')

namespace Chronicle

open Exchange (Origin EndedBy)

/-- The stream object `j` was entered into the route table. -/
def Registered (j : Nat) (r : Chronicle) : Prop :=
  .resumed (.register j) ∈ r.told

/-- The stream object `j` was entered into the route table, with a number of its own. -/
structure Entered (j : Nat) (l : Label) (r : Chronicle) : Prop where
  registered : r.Registered j
  label : r.connection.labels[j]? = some l
  unshared : r.connection.Unshared j

variable {ι : Type} {c d : Crew ι Chronicle Step} {e e' : Exchange Chronicle} {k : ι} {i j : Nat}
  {t t' : Task Step} {old new : List (Task Step)}

/-! ## What a turn is to the far side -/

/-- Either the connection is told an event, or nothing happens to it but that it may fail. -/
theorem far_cases (h : Move environment (newRules ι) k e old new e') :
    (∃ event, old = [.tell event] ∧ new = (e.far.connection.react event).2.map .call ∧
      e' = { e with far := (e.far.react event).1 }) ∨
    (old.filterMap Task.event? = [] ∧ ∃ severed,
      e'.far = { e.far with connection := { e.far.connection with severed } }) := by
  cases h with
  | @perform t ht =>
    cases t with
    | tell event => exact Or.inl ⟨event, rfl, rfl, rfl⟩
    | _ => exact Or.inr ⟨rfl, _, Exchange.far_perform environment _ e⟩
  | start h =>
    refine Or.inr ⟨rfl, ?_⟩
    cases h.1 with
    | sever cause => exact ⟨some cause, rfl⟩
    | channel | request | own | arrive | finish | release => exact ⟨_, rfl⟩
  | emit h hp hs => exact Or.inr ⟨rfl, _, Exchange.far_atInteraction (τ := Step) ..⟩

theorem told_move (h : Move environment (newRules ι) k e old new e') :
    e'.far.told = e.far.told ++ old.filterMap Task.event? := by
  rcases far_cases h with ⟨event, rfl, -, rfl⟩ | ⟨hold, severed, hfar⟩
  · rfl
  · rw [hold, hfar, List.append_nil]

/-- **What a connection was told are the events that were performed**, in order. -/
theorem told_eq [DecidableEq ι] (h : Crew.Reach environment (newRules ι) start c) :
    c.exchange.far.told = c.done.filterMap Task.event? := by
  refine reach_induction (P := fun c => c.exchange.far.told = c.done.filterMap Task.event?) .refl h
    rfl fun _ ih hmove hturns => ?_
  rw [told_move hmove, ih, hturns.done, List.filterMap_append]

theorem mem_told [DecidableEq ι] (h : Crew.Reach environment (newRules ι) start c)
    {event : Event Step} : event ∈ c.exchange.far.told ↔ .tell event ∈ c.done := by
  rw [told_eq h, Task.mem_filterMap_event?]

/-- A connection that is closed stays closed. -/
theorem closed_move (h : Move environment (newRules ι) k e old new e')
    (hc : e.far.connection.closed = true) : e'.far.connection.closed = true := by
  rcases far_cases h with ⟨event, -, -, rfl⟩ | ⟨-, severed, hfar⟩
  · exact (Connection.closed_react event _).trans (by rw [hc]; rfl)
  · rw [hfar, hc]

/-- What was tried remains tried. -/
theorem attempts_move (h : Move environment (newRules ι) k e old new e') {a : Connection.Attempt}
    (ha : a ∈ e.far.attempts) : a ∈ e'.far.attempts := by
  rcases far_cases h with ⟨event, -, -, rfl⟩ | ⟨-, severed, hfar⟩
  · exact List.mem_append_left _ ha
  · rwa [hfar]

/-! ## Cancellations -/

/-- A consumer that was not there before a turn was opened by it. -/
theorem exists_enter_of_none {R : Crew.Rules ι Chronicle Step}
    (hR : ∀ k e e' ts, R.starts k e e' ts → Starts e e' ts) (h : Move environment R k e old new e')
    (hnone : e.reception? i = none) {y : Reception} (hy : e'.reception? i = some y) :
    ∃ x : Interaction, R.starts k e (e.enter x) new ∧ y = x.receiver.reception := by
  cases h with
  | perform ht =>
    rw [Exchange.reception?_perform_of_none environment _ hnone] at hy
    cases hy
  | start h =>
    have hnew {x : Interaction} (hy : (e.enter x).reception? i = some y) :
        y = x.receiver.reception := by
      rw [Exchange.reception?_enter] at hy
      split at hy
      · exact (Option.some.inj hy).symm
      · rw [hnone] at hy
        cases hy
    have hstart := hR _ _ _ _ h
    cases hstart with
    | channel | request => exact ⟨_, h, hnew hy⟩
    | own | arrive | finish | release =>
      rw [hnone] at hy
      cases hy
    | sever cause =>
      have hsame : e.reception? i = some y := hy
      rw [hnone] at hsame
      cases hsame
  | emit h hp hs =>
    have hsame : e.reception? i = some y := (Exchange.reception?_atScripted _ _ _ _).symm.trans hy
    rw [hnone] at hsame
    cases hsame

/-- What is offered to a consumer is offered by a call. -/
theorem eq_subscribed_of_use? {g : Handle} (h : t.use? = some (i, .offered g)) :
    t = .call (.subscribed i g) := by
  unfold Task.use? at h
  split at h <;> cases h
  rfl

/-- Who holds a subscription was offered it. -/
theorem subscribed_of_subscription [DecidableEq ι]
    (h : Crew.Reach environment (newRules ι) start c) {x : Reception} {g : Handle}
    (hx : c.exchange.reception? i = some x) (hg : x.subscription = some g) :
    .call (.subscribed i g) ∈ c.done := by
  refine reach_induction (P := fun c => ∀ x, c.exchange.reception? i = some x →
    x.subscription = some g → .call (.subscribed i g) ∈ c.done) .refl h (by rintro x ⟨⟩)
    (fun {c d k old new} _ ih hmove hturns y hy hg => ?_) x hx hg
  rw [hturns.mem_done]
  cases hx : c.exchange.reception? i with
  | none =>
    obtain ⟨x, hstart, rfl⟩ :=
      exists_enter_of_none (R := newRules ι) (fun _ _ _ _ h => h.1) hmove hx hy
    rw [hstart.2 x rfl] at hg
    cases hg
  | some x =>
    obtain ⟨y', hy', hbecomes⟩ := hmove.reception hx
    obtain rfl := Option.some.inj (hy'.symm.trans hy)
    rcases hbecomes with rfl | ⟨t, u, a, rfl, hu, hbecomes⟩
    · exact Or.inl (ih _ hx hg)
    · rcases hbecomes.subscription_eq hg with hsame | rfl
      · exact Or.inl (ih _ hx hsame)
      · rw [eq_subscribed_of_use? hu]
        exact Or.inr (List.mem_singleton_self _)

/-- **A consumer holds the subscription of its own stream object.** -/
theorem label_of_subscription [DecidableEq ι] (h : Crew.Reach environment (newRules ι) start c)
    {x : Reception} {g : Handle} (hx : c.exchange.reception? i = some x)
    (hg : x.subscription = some g) :
    ∃ l, c.exchange.far.connection.labels[g.stream]? = some l ∧ l.interaction = i :=
  knows_of_due h _ (Or.inl (subscribed_of_subscription h hx hg))

/-- A step that takes something away is backed by what happened before. -/
def BackedStep (e : Exchange Chronicle) : Step → Prop
  | .detach id => ∃ (j : Nat) (l : Label), e.far.connection.labels[j]? = some l ∧ l.id = id ∧
      e.EndedBy .canceled l.interaction
  | .drain _ => e.far.connection.closed = true
  | .fail id _ => ∃ a ∈ e.far.attempts, a.isRefused = true ∧ a.frame.stream = id
  | _ => True

/-- A task that takes something away is backed by what happened before. -/
def Backed (e : Exchange Chronicle) : Task Step → Prop
  | .call (.resume s) => BackedStep e s
  | .tell (.resumed s) => BackedStep e s
  | .tell (.asked h .cancel) => ∃ l, e.far.connection.labels[h.stream]? = some l ∧
      e.EndedBy .canceled l.interaction
  | _ => True

theorem Backed.move (h : Backed e t) (hmove : Move environment (newRules ι) k e old new e') :
    Backed e' t := by
  have hstep {s : Step} (h : BackedStep e s) : BackedStep e' s := by
    unfold BackedStep at h ⊢
    split at h
    · obtain ⟨j, l, hl, hid, hended⟩ := h
      exact ⟨j, l, keeps_move hmove j l hl, hid, hmove.endedBy hended⟩
    · exact closed_move hmove h
    · exact h.imp fun a ha => ⟨attempts_move hmove ha.1, ha.2⟩
    · trivial
  unfold Backed at h ⊢
  split at h
  · exact hstep h
  · exact hstep h
  · obtain ⟨l, hl, hended⟩ := h
    exact ⟨l, keeps_move hmove _ l hl, hmove.endedBy hended⟩
  · trivial

/-- Whoever asks for the end of a stream has canceled. -/
theorem backed_of_asked [DecidableEq ι] (h : Crew.Reach environment (newRules ι) start c)
    (ht : c.Pending t) {g : Handle}
    (hnew : .tell (.asked g .cancel) ∈ (c.exchange.perform environment t).2) :
    Backed (c.exchange.perform environment t).1 (.tell (.asked g .cancel)) := by
  obtain ⟨i, u, x, hu, hx⟩ := Exchange.exists_use_of_asked hnew
  obtain ⟨y, a, hy, hbecomes, hasked⟩ := Exchange.reception?_use environment hu hx
  obtain rfl := (hasked g .cancel).mp hnew
  suffices hl : (∃ l, c.exchange.far.connection.labels[g.stream]? = some l ∧ l.interaction = i) ∧
      y.terminal = some .canceled by
    obtain ⟨⟨l, hl, rfl⟩, hterm⟩ := hl
    exact ⟨l, keeps_perform t _ _ l hl, y, hy, hterm⟩
  rcases hbecomes.of_cancel with ⟨hsub, hterm⟩ | ⟨rfl, hbusy⟩
  · exact ⟨label_of_subscription h hx hsub, hterm⟩
  · obtain rfl := eq_subscribed_of_use? hu
    refine ⟨knows_of_due h _ (Or.inr ht), hbusy.resolve_right fun hheld => ?_⟩
    exact hheld (subscription_of_offered h ht hx)

/-- **Nothing is taken away without reason.** -/
theorem backed_of_due [DecidableEq ι] (h : Crew.Reach environment (newRules ι) start c) :
    ∀ t, c.Due t → Backed c.exchange t := by
  refine reach_induction (P := fun c => ∀ t, c.Due t → Backed c.exchange t) .refl h
    (fun t ht => absurd ht (not_due_start t)) fun {c d k old new} hreach ih hmove hturns t ht => ?_
  rcases hturns.due ht with ht | ht
  · exact (ih t ht).move hmove
  rcases new_cases hmove ht with ⟨t', rfl, hnew, hafter⟩ | ⟨-, hbegins⟩
  · have hpending : c.Pending t' := ⟨k, hturns.mem_old (List.mem_singleton_self _)⟩
    have hmono := (ih t' (Or.inr hpending)).move hmove
    rw [hafter] at hmono ⊢
    have horigin := Origin.of_mem hnew
    cases horigin with
    | @call event cl hcl =>
      have hmem : cl ∈ (c.exchange.far.connection.react event).2 := hcl
      cases Connection.makes_of_mem hmem with
      | @detach g l hl =>
        obtain ⟨l', hl', hended⟩ := hmono
        have hsame := keeps_perform (.tell (.asked g .cancel)) c.exchange _ _ hl
        obtain rfl := Option.some.inj (hl'.symm.trans hsame)
        exact ⟨_, l', hl', rfl, hended⟩
      | drain reason =>
        exact (Connection.closed_react _ _).trans (Bool.or_true _)
      | @fail _ a fault ha hfault =>
        refine ⟨a, List.mem_append_right _ (Option.mem_toList.mpr ha), ?_, rfl⟩
        rw [Connection.Attempt.isRefused, hfault]
        rfl
      | _ => trivial
    | resumed s => exact hmono
    | asked g a =>
      cases a with
      | request n => trivial
      | cancel => exact backed_of_asked hreach hpending hnew
    | _ => trivial
  · cases hbegins <;> trivial

/-! ## Ends -/

/-- A consumer that is to be told an end is there. -/
theorem exists_reception_of_signal [DecidableEq ι]
    (h : Crew.Reach environment (newRules ι) start c) {s : Signal Payload}
    (hs : s.isTerminal = true) (ht : c.Pending (.call (.signal i s))) :
    ∃ x, c.exchange.reception? i = some x := by
  obtain ⟨k, hk⟩ := ht
  have hle := ((isTally_loads i).atMost h).of_mem hk
  have hcarried : (loads i).carried c.exchange (.call (.signal i s)) = 1 := by
    simp [loads, opening, charge, ending, hs]
  have hi : i < c.exchange.interactions.size := by
    by_contra hge
    rw [hcarried, share, if_neg hge] at hle
    omega
  exact Exchange.exists_reception?_of_lt hi

/-- **Who is told an end has ended.** -/
theorem ended_of_signal [DecidableEq ι] (h : Crew.Reach environment (newRules ι) start c)
    {s : Signal Payload} (hs : s.isTerminal = true) (hdone : .call (.signal i s) ∈ c.done) :
    ∃ t, c.exchange.EndedBy t i := by
  refine reach_induction (P := fun c => .call (.signal i s) ∈ c.done → ∃ t, c.exchange.EndedBy t i)
    .refl h (by rintro ⟨⟩) (fun {c d k old new} hreach ih hmove hturns hdone => ?_) hdone
  rcases hturns.mem_done.mp hdone with hdone | hold
  · exact (ih hdone).imp fun t ht => hmove.endedBy ht
  · obtain ⟨x, hx⟩ := exists_reception_of_signal hreach hs ⟨k, hturns.mem_old hold⟩
    obtain ⟨-, -, hafter⟩ := hmove.of_mem hold
    have huse : (Task.call (.signal i s) : Task Step).use? = some (i, .heard s) := rfl
    obtain ⟨y, a, hy, hbecomes, -⟩ := Exchange.reception?_use environment huse hx
    obtain ⟨t, ht⟩ := Option.ne_none_iff_exists'.mp (hbecomes.terminal_ne_none hs)
    rw [hafter]
    exact ⟨t, y, hy, ht⟩

theorem length_filter_signalTo? (i : Nat) (ts : List (Task Step)) :
    ((ts.filterMap (Task.signalTo? i)).filter Signal.isTerminal).length = weight (ending i) ts := by
  induction ts with
  | nil => rfl
  | cons t ts ih =>
    rw [Crew.weight_cons, ← ih]
    unfold ending
    split
    · rename_i i' s
      by_cases hi : i' = i
      · subst hi
        have hsome : (Task.call (.signal i' s) : Task Step).signalTo? i' = some s := if_pos rfl
        rw [List.filterMap_cons_some hsome, List.filter_cons]
        cases s.isTerminal <;> simp [Nat.add_comm]
      · have hnone : (Task.call (.signal i' s) : Task Step).signalTo? i = none := if_neg hi
        rw [List.filterMap_cons_none hnone, if_neg fun h => hi h.1, Nat.zero_add]
    · rename_i hne
      have hnone : t.signalTo? i = none := by
        unfold Task.signalTo?
        split
        · exact absurd rfl (hne _ _)
        · rfl
      rw [List.filterMap_cons_none hnone, Nat.zero_add]

/-- **A consumer is sent one end at most.** -/
theorem ends_eq_of_mem [DecidableEq ι] (h : Crew.Reach environment (newRules ι) start c)
    {s : Signal Payload} (hs : s.isTerminal = true) (hdone : .call (.signal i s) ∈ c.done) :
    (c.signalsTo i).filter Signal.isTerminal = [s] := by
  have hlength := ((isTally_loads i).atMost h).kept_add_used_le
  have hone : ((c.signalsTo i).filter Signal.isTerminal).length ≤ 1 := by
    rw [Crew.signalsTo, length_filter_signalTo?]
    exact ((Nat.le_add_left _ _).trans hlength).trans (by unfold share; split <;> omega)
  have hmem : s ∈ (c.signalsTo i).filter Signal.isTerminal :=
    List.mem_filter.mpr ⟨Task.mem_filterMap_signalTo?.mpr hdone, hs⟩
  obtain ⟨s', hs'⟩ := List.length_eq_one_iff.mp
    (Nat.le_antisymm hone (List.length_pos_of_mem hmem))
  rw [hs'] at hmem ⊢
  rw [List.mem_singleton.mp hmem]

/-- An end of its stream was sent to a consumer, or it has canceled. -/
def IsOver (i : Nat) (c : Crew ι Chronicle Step) : Prop :=
  (∃ s, s.isTerminal = true ∧ c.Due (.call (.signal i s))) ∨ c.exchange.EndedBy .canceled i

theorem IsOver.turn [DecidableEq ι] (h : IsOver i c)
    (hmove : Move environment (newRules ι) k c.exchange old new d.exchange)
    (hturns : Turns k old new c d) : IsOver i d := by
  rcases h with ⟨s, hs, hdue⟩ | hended
  · exact Or.inl ⟨s, hs, hturns.due_of_due hdue⟩
  · exact Or.inr (hmove.endedBy hended)

/-- Who is sent an end has ended, or is about to be told. -/
theorem IsOver.ended [DecidableEq ι] (h : IsOver i c)
    (hreach : Crew.Reach environment (newRules ι) start c) :
    (∃ t, c.exchange.EndedBy t i) ∨ ∃ s, s.isTerminal = true ∧ c.Pending (.call (.signal i s)) := by
  rcases h with ⟨s, hs, hdone | hpending⟩ | hended
  · exact Or.inl (ended_of_signal hreach hs hdone)
  · exact Or.inr ⟨s, hs, hpending⟩
  · exact Or.inl ⟨_, hended⟩

/-! ## Entries -/

/-- Whether a stream object is entered into the route table by a task, as a number. -/
def entry (j : Nat) : Task Step → Nat
  | .call (.resume (.register j')) | .tell (.resumed (.register j')) => if j' = j then 1 else 0
  | _ => 0

/-- The entry of a stream object into the route table: that it is to be entered, and that it was. -/
def entries (j : Nat) : Tally Chronicle Step where
  carried _ := entry j
  kept _ := 0
  used
    | .tell event => entry j (.tell event)
    | _ => 0

/-- A stream object is to be entered when it is added, and not again. -/
theorem entry_react_le (event : Event Step) (j : Nat) (r : Connection) :
    weight (entry j) ((r.react event).2.map .call) + (if j < r.labels.length then 1 else 0) ≤
      if j < (r.react event).1.labels.length then 1 else 0 := by
  rw [Connection.labels_react, List.length_append]
  cases hnew : r.newLabel? event with
  | none =>
    rw [Crew.weight_eq_zero fun t ht => ?_]
    · simp
    obtain ⟨cl, hcl, rfl⟩ := List.mem_map.mp ht
    cases Connection.makes_of_mem hcl with
    | register h =>
      rw [hnew] at h
      cases h
    | _ => rfl
  | some l =>
    have hone : weight (entry j) ((r.react event).2.map .call) ≤
        if r.labels.length = j then 1 else 0 := by
      rw [Connection.length_labels]
      cases event with
      | opened n kind p i =>
        cases kind <;> simp [Connection.react, Connection.opened, Connection.addStream, entry]
      | openedChannel n i =>
        simp [Connection.react, Connection.openedChannel, Connection.addStream, entry]
      | asked | attached | heard | copied | released | resumed => cases hnew
    refine (Nat.add_le_add_right hone _).trans ?_
    rw [Option.toList_some, List.length_singleton]
    grind

/-- Other tasks lead to no entry, unless that is the step that was to be taken. -/
theorem entry_perform (ht : ∀ event, t ≠ .tell event) (j : Nat) (e : Exchange Chronicle) :
    weight (entry j) (e.perform environment t).2 = entry j t := by
  by_cases hstep : ∃ s, t = .call (.resume s)
  · obtain ⟨s, rfl⟩ := hstep
    cases s <;> rfl
  · have hnone : entry j t = 0 := by
      cases t with
      | tell event => exact absurd rfl (ht event)
      | call cl =>
        cases cl with
        | resume s => exact absurd ⟨s, rfl⟩ hstep
        | _ => rfl
      | _ => rfl
    rw [hnone]
    refine Crew.weight_eq_zero fun t' ht' => ?_
    have horigin := Origin.of_mem ht'
    cases horigin with
    | call => exact absurd rfl (ht _)
    | resumed s => exact absurd ⟨s, rfl⟩ hstep
    | _ => rfl

/-- What threads begin with, and what scripts send, enters no stream object. -/
theorem entry_eq_zero_of_not_perform (h : Move environment (newRules ι) k e [] new e') (j : Nat) :
    weight (entry j) new = 0 := by
  refine Crew.weight_eq_zero fun t ht => ?_
  rcases new_cases h ht with ⟨t', hold, -⟩ | ⟨-, hbegins⟩
  · cases hold
  · cases hbegins <;> rfl

/-- **A stream object is entered once.** -/
theorem atMost_entries [DecidableEq ι] (h : Crew.Reach environment (newRules ι) start c) (j : Nat) :
    (entries j).AtMost (if j < c.exchange.far.connection.labels.length then 1 else 0) c := by
  refine reach_induction (P := fun c => (entries j).AtMost
    (if j < c.exchange.far.connection.labels.length then 1 else 0) c) .refl h
    ⟨0, Crew.weighs_of_forall fun _ => rfl, Nat.zero_le _⟩ fun {c d k old new} _ ih hmove hturns => ?_
  refine ih.of_turns hturns (fun _ _ _ => Nat.le_refl _) ?_
  show weight (entry j) new + 0 + weight (entries j).used old + _ ≤ weight (entry j) old + 0 + _
  have hfar := far_cases hmove
  clear hturns
  generalize d.exchange = e' at hmove hfar ⊢
  rcases hfar with ⟨event, rfl, rfl, rfl⟩ | ⟨hold, severed, hsame⟩
  · have hreact := entry_react_le event j c.exchange.far.connection
    have hused : weight (entries j).used [.tell event] = weight (entry j) [.tell event] := rfl
    have hfar : (c.exchange.far.react event).1.connection =
        (c.exchange.far.connection.react event).1 := rfl
    rw [hused, hfar]
    omega
  · have hlabels : e'.far.connection.labels = c.exchange.far.connection.labels := by
      rw [hsame]
      rfl
    have hused : weight (entries j).used old = 0 := by
      refine Crew.weight_eq_zero fun t ht => ?_
      cases t with
      | tell event => exact absurd (List.filterMap_eq_nil_iff.mp hold _ ht) (by simp [Task.event?])
      | _ => rfl
    have hweight : weight (entry j) new = weight (entry j) old := by
      cases old with
      | nil => exact entry_eq_zero_of_not_perform hmove j
      | cons t old =>
        cases hmove with
        | perform ht =>
          refine entry_perform ?_ j c.exchange
          rintro event rfl
          cases hold
    rw [hlabels, hused, hweight]

/-- A stream object that was entered is not to be entered again. -/
theorem not_pending_register [DecidableEq ι] (h : Crew.Reach environment (newRules ι) start c)
    (hj : c.exchange.far.Registered j) : ¬ c.Pending (.tell (.resumed (.register j))) := by
  rintro ⟨k, hk⟩
  have hle := (atMost_entries h j).of_mem hk
  have hused : 1 ≤ weight (entries j).used c.done := by
    have hmem := Crew.le_weight (w := (entries j).used) ((mem_told h).mp hj)
    simpa [entries, entry] using hmem
  have hcarried : (entries j).carried c.exchange (.tell (.resumed (.register j))) = 1 := if_pos rfl
  split at hle <;> omega

/-- What holds of a stream object when it is entered into the route table, and is kept by every turn
from then on. -/
theorem entered_induction [DecidableEq ι] {P : Crew ι Chronicle Step → Prop}
    (h : Crew.Reach environment (newRules ι) start c) {l : Label} (hj : c.exchange.far.Entered j l)
    (hentered : ∀ {c d : Crew ι Chronicle Step} {k : ι} {new : List (Task Step)},
      Crew.Reach environment (newRules ι) start c → c.exchange.far.connection.labels[j]? = some l →
      d.exchange.far = (c.exchange.far.react (.resumed (.register j))).1 →
      Turns k [.tell (.resumed (.register j))] new c d → P d)
    (hturn : ∀ {c d : Crew ι Chronicle Step} {k : ι} {old new : List (Task Step)},
      Crew.Reach environment (newRules ι) start c → c.exchange.far.Entered j l → P c →
      Move environment (newRules ι) k c.exchange old new d.exchange → Turns k old new c d → P d) :
    P c := by
  refine reach_induction (P := fun c => c.exchange.far.Entered j l → P c) .refl h
    (by rintro ⟨⟨⟩, -, -⟩) (fun {c d k old new} hreach ih hmove hturns hj => ?_) hj
  obtain ⟨hj, hl, hid⟩ := hj
  have hknown (hdue : c.Due (.tell (.resumed (.register j)))) :
      c.exchange.far.connection.labels[j]? = some l := by
    obtain ⟨l', hl', -⟩ := knows_of_due hreach _ hdue
    obtain rfl := Option.some.inj ((keeps_move hmove j l' hl').symm.trans hl)
    exact hl'
  rw [Registered, told_move hmove, List.mem_append] at hj
  by_cases hbefore : c.exchange.far.Registered j
  · have hentered : c.exchange.far.Entered j l :=
      ⟨hbefore, hknown (Or.inl ((mem_told hreach).mp hbefore)), hid.of_keeps (keeps_move hmove)⟩
    exact hturn hreach hentered (ih hentered) hmove hturns
  · rcases far_cases hmove with ⟨event, rfl, rfl, hfar⟩ | ⟨hold, -⟩
    · obtain rfl := List.mem_singleton.mp (hj.resolve_left hbefore)
      have hpending := hturns.mem_old (List.mem_singleton_self _)
      exact hentered hreach (hknown (Or.inr ⟨k, hpending⟩)) (by rw [hfar]) hturns
    · rw [hold] at hj
      exact absurd (hj.resolve_right List.not_mem_nil) hbefore

theorem registered_mono (h : Move environment (newRules ι) k e old new e')
    (hj : e.far.Registered j) : e'.far.Registered j := by
  rw [Registered, told_move h]
  exact List.mem_append_left _ hj

theorem registered_of_mem_old (h : Move environment (newRules ι) k e old new e')
    (hj : .tell (.resumed (.register j)) ∈ old) : e'.far.Registered j := by
  rw [Registered, told_move h]
  exact List.mem_append_right _ (Task.mem_filterMap_event?.mpr hj)

/-- **Every consumer in the table was entered for its own stream.** -/
theorem exists_label_of_inbound [DecidableEq ι] (h : Crew.Reach environment (newRules ι) start c)
    {id : UInt32} (hin : c.exchange.far.connection.routes.inbound? id = some i) :
    ∃ j l, c.exchange.far.connection.labels[j]? = some l ∧ l.id = id ∧ l.interaction = i ∧
      c.exchange.far.Registered j := by
  refine reach_induction (P := fun c => c.exchange.far.connection.routes.inbound? id = some i →
    ∃ j l, c.exchange.far.connection.labels[j]? = some l ∧ l.id = id ∧ l.interaction = i ∧
      c.exchange.far.Registered j) .refl h (by rintro ⟨⟩)
    (fun {c d k old new} _ ih hmove _ hin => ?_) hin
  have hkept (hin : c.exchange.far.connection.routes.inbound? id = some i) :
      ∃ j l, d.exchange.far.connection.labels[j]? = some l ∧ l.id = id ∧ l.interaction = i ∧
        d.exchange.far.Registered j := by
    obtain ⟨j, l, hl, hid, hi, hj⟩ := ih hin
    exact ⟨j, l, keeps_move hmove j l hl, hid, hi, registered_mono hmove hj⟩
  rcases far_cases hmove with ⟨event, rfl, -, hfar⟩ | ⟨-, severed, hfar⟩
  · rw [hfar] at hin
    rcases Connection.inbound?_of_react hin with hin | ⟨j, l, rfl, hl, hid, hi⟩
    · exact hkept hin
    · exact ⟨j, l, keeps_move hmove j l hl, hid, hi,
        registered_of_mem_old hmove (List.mem_singleton_self _)⟩
  · rw [hfar] at hin
    exact hkept hin

/-- **Every link in the table was entered for its own stream.** -/
theorem exists_label_of_outbound [DecidableEq ι] (h : Crew.Reach environment (newRules ι) start c)
    {id : UInt32} (hout : c.exchange.far.connection.routes.outbound? id = some j) :
    ∃ l, c.exchange.far.connection.labels[j]? = some l ∧ l.id = id ∧
      c.exchange.far.Registered j := by
  refine reach_induction (P := fun c => c.exchange.far.connection.routes.outbound? id = some j →
    ∃ l, c.exchange.far.connection.labels[j]? = some l ∧ l.id = id ∧
      c.exchange.far.Registered j) .refl h (by rintro ⟨⟩)
    (fun {c d k old new} _ ih hmove _ hout => ?_) hout
  have hkept (hout : c.exchange.far.connection.routes.outbound? id = some j) :
      ∃ l, d.exchange.far.connection.labels[j]? = some l ∧ l.id = id ∧
        d.exchange.far.Registered j := by
    obtain ⟨l, hl, hid, hj⟩ := ih hout
    exact ⟨l, keeps_move hmove j l hl, hid, registered_mono hmove hj⟩
  rcases far_cases hmove with ⟨event, rfl, -, hfar⟩ | ⟨-, severed, hfar⟩
  · rw [hfar] at hout
    rcases Connection.outbound?_of_react hout with hout | ⟨l, rfl, hl, hid⟩
    · exact hkept hout
    · exact ⟨l, keeps_move hmove j l hl, hid,
        registered_of_mem_old hmove (List.mem_singleton_self _)⟩
  · rw [hfar] at hout
    exact hkept hout

/-- **Nobody is taken out of the table and forgotten.**  A stream that was entered is in the table, or
its consumer was sent an end or has canceled. -/
theorem routed_or_over [DecidableEq ι] (h : Crew.Reach environment (newRules ι) start c) {l : Label}
    (hj : c.exchange.far.Entered j l) :
    c.exchange.far.connection.routes.inbound? l.id = some l.interaction ∨ IsOver l.interaction c := by
  refine entered_induction (P := fun c =>
    c.exchange.far.connection.routes.inbound? l.id = some l.interaction ∨ IsOver l.interaction c)
    h hj (fun _ hl hfar _ => ?_) fun {c d k old new} hreach hj ih hmove hturns => ?_
  · rw [hfar]
    exact Or.inl (Connection.routes_of_register hl).1
  rcases ih with hin | hover
  · rcases far_cases hmove with ⟨event, rfl, rfl, hfar⟩ | ⟨-, severed, hfar⟩
    · obtain hin | ⟨s, hs, hsignal⟩ | rfl | ⟨j', l', rfl, hl', hid⟩ :=
        Connection.inbound?_react hin event
      · rw [hfar]
        exact Or.inl hin
      · refine Or.inr (Or.inl ⟨s, hs, hturns.due_of_new (List.mem_map.mpr ⟨_, ?_, rfl⟩)⟩)
        exact Connection.mem_signalsOn.mp hsignal
      · obtain ⟨j', l', hl', hid, hended⟩ :=
          backed_of_due hreach _ (Or.inr ⟨k, hturns.mem_old (List.mem_singleton_self _)⟩)
        obtain rfl := hj.unshared j' l l' hj.label hl' hid
        obtain rfl := Option.some.inj (hl'.symm.trans hj.label)
        exact Or.inr (Or.inr (hmove.endedBy hended))
      · obtain rfl := hj.unshared j' l l' hj.label hl' hid
        rw [hfar]
        exact Or.inl (Connection.routes_of_register hj.label).1
    · rw [hfar]
      exact Or.inl hin
  · exact Or.inr (hover.turn hmove hturns)

/-- **No link is taken out of the table and forgotten.**  The link of a channel that was entered is in
the table, or its producer is to be canceled. -/
theorem linked_or_due [DecidableEq ι] (h : Crew.Reach environment (newRules ι) start c) {l : Label}
    (hj : c.exchange.far.Entered j l) (hk : l.kind = .channel) :
    c.exchange.far.connection.routes.outbound? l.id = some j ∨
      c.Due (.call (.resume (.cancelProducer j))) := by
  refine entered_induction (P := fun c =>
    c.exchange.far.connection.routes.outbound? l.id = some j ∨
      c.Due (.call (.resume (.cancelProducer j))))
    h hj (fun _ hl hfar _ => ?_) fun {c d k old new} hreach hj ih hmove hturns => ?_
  · rw [hfar]
    exact Or.inl ((Connection.routes_of_register hl).2 hk)
  rcases ih with hin | hdue
  · rcases far_cases hmove with ⟨event, rfl, rfl, hfar⟩ | ⟨-, severed, hfar⟩
    · obtain hin | hcall | ⟨j', l', rfl, hl', hid⟩ := Connection.outbound?_react hin event
      · rw [hfar]
        exact Or.inl hin
      · exact Or.inr (hturns.due_of_new (List.mem_map.mpr ⟨_, hcall, rfl⟩))
      · obtain rfl := hj.unshared j' l l' hj.label hl' hid
        rw [hfar]
        exact Or.inl ((Connection.routes_of_register hj.label).2 hk)
    · rw [hfar]
      exact Or.inl hin
  · exact Or.inr (hturns.due_of_due hdue)

/-! ## Messages without answers -/

/-- A task by which a message is sent. -/
def IsSending (i : Nat) : Task Step → Prop
  | .call (.resume (.post i' _)) | .tell (.resumed (.post i' _)) |
    .call (.resume (.writeMessage i' _)) | .tell (.resumed (.writeMessage i' _)) => i' = i
  | _ => False

/-- A message is sent on, until its consumer is told what became of it. -/
theorem sending_perform (h : IsSending i t) (e : Exchange Chronicle) :
    (∃ t' ∈ (e.perform environment t).2, IsSending i t') ∨
      ∃ s, s.isTerminal = true ∧ .call (.signal i s) ∈ (e.perform environment t).2 := by
  unfold IsSending at h
  split at h <;> first | subst h | cases h
  · exact Or.inl ⟨_, List.mem_singleton_self _, rfl⟩
  · exact Or.inl ⟨_, List.mem_singleton_self _, rfl⟩
  · exact Or.inl ⟨_, List.mem_singleton_self _, rfl⟩
  · rename_i i f
    refine Or.inr ⟨e.far.connection.messageEnd f, ?_, List.mem_map.mpr ⟨_, ?_, rfl⟩⟩
    · unfold Connection.messageEnd
      split <;> rfl
    · exact Connection.mem_signalsOn.mp (List.mem_singleton_self _)

/-- **Who sends a message is told what became of it**, or will be. -/
theorem sent_or_over [DecidableEq ι] (h : Crew.Reach environment (newRules ι) start c) {l : Label}
    (hl : c.exchange.far.connection.labels[j]? = some l) (hk : l.kind = .detached) :
    (∃ t, c.Pending t ∧ IsSending l.interaction t) ∨ IsOver l.interaction c := by
  refine reach_induction (P := fun c => c.exchange.far.connection.labels[j]? = some l →
    (∃ t, c.Pending t ∧ IsSending l.interaction t) ∨ IsOver l.interaction c) .refl h (by rintro ⟨⟩)
    (fun {c d k old new} hreach ih hmove hturns hl => ?_) hl
  by_cases hbefore : c.exchange.far.connection.labels[j]? = some l
  · rcases ih hbefore with ⟨t, ht, hsending⟩ | hover
    · rcases hturns.pending ht with ht | hold
      · exact Or.inl ⟨t, ht, hsending⟩
      · obtain ⟨-, rfl, -⟩ := hmove.of_mem hold
        rcases sending_perform hsending c.exchange with ⟨t', ht', hsending'⟩ | ⟨s, hs, hsignal⟩
        · exact Or.inl ⟨t', ⟨k, hturns.mem_new ht'⟩, hsending'⟩
        · exact Or.inr (Or.inl ⟨s, hs, hturns.due_of_new hsignal⟩)
    · exact Or.inr (hover.turn hmove hturns)
  · rcases far_cases hmove with ⟨event, rfl, rfl, hfar⟩ | ⟨-, severed, hfar⟩
    · rw [hfar] at hl
      have hnew := (Connection.label_or_new hl).resolve_left hbefore
      cases event with
      | opened n kind p i =>
        cases kind with
        | fireAndForget =>
          cases hnew
          exact Or.inl ⟨_, ⟨k, hturns.mem_new (List.mem_cons_of_mem _ (List.mem_singleton_self _))⟩,
            rfl⟩
        | requestResponse | requestStream | requestSubscription =>
          cases hnew
          cases hk
      | openedChannel n i =>
        cases hnew
        cases hk
      | asked | attached | heard | copied | released | resumed => cases hnew
    · rw [hfar] at hl
      exact absurd hl hbefore

/-- A step that was to be taken is still to be taken, or was taken. -/
theorem due_resumed [DecidableEq ι] (h : Crew.Reach environment (newRules ι) start c) {s : Step}
    (hdue : c.Due (.call (.resume s))) :
    c.Pending (.call (.resume s)) ∨ c.Due (.tell (.resumed s)) := by
  refine hdue.elim (fun hdone => Or.inr ?_) Or.inl
  refine reach_induction (P := fun c => .call (.resume s) ∈ c.done → c.Due (.tell (.resumed s)))
    .refl h (by rintro ⟨⟩) (fun {c d k old new} _ ih hmove hturns hdone => ?_) hdone
  rcases hturns.mem_done.mp hdone with hdone | hold
  · exact hturns.due_of_due (ih hdone)
  · obtain ⟨-, rfl, -⟩ := hmove.of_mem hold
    exact hturns.due_of_new (List.mem_singleton_self _)

end Chronicle
end Client
end StreamConformance
