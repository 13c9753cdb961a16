import StreamConformance.Proofs.Client.Deliveries

/-!
# When the producer of a channel is canceled

The producer of a channel is canceled because of the first frame by which the peer wants no more of
its items, whether it has given its subscription already or gives it only later; and that happens
once.

* `Chronicle.cancels`, `Chronicle.atMost_cancels`: a cancellation is handed on from the call by which
  a producer is attached to what the link makes of its subscription, so there is one at most.
* `Chronicle.ended_or_dismissed_of_ask`: a producer is canceled only if it has ended or the peer wants
  no more.
* `Chronicle.stopped_of_frame`, `Chronicle.stopped_of_cancelProducer`,
  `Chronicle.due_cancelProducer_of_stopped`: the peer wants no more exactly if a frame says so.
-/

namespace StreamConformance
namespace Client

open Crew (Move Turns weight)

/-! ## At most one cancellation -/

/-- A producer is told to stop. -/
def cancelsProducer (i : Nat) : Task Step → Bool
  | .call (.ask i' .cancel) => i' == i
  | _ => false

/-- Whether a producer is told to stop by a task, as a number. -/
def stopping (i : Nat) (t : Task Step) : Nat :=
  (cancelsProducer i t).toNat

/-- Whether a producer is about to give its subscription to a stream object, as a number. -/
def joining (j : Nat) : Task Step → Nat
  | .call (.attach _ r) | .tell (.attached r _) => if r.stream = j then 1 else 0
  | _ => 0

namespace Connection

variable {c : Connection} {i j : Nat} {e : Event Step}

/-- There is no stream object for the interaction `i` but `j`. -/
def Sole (i j : Nat) (c : Connection) : Prop :=
  ∀ (j' : Nat) (l : Label), c.labels[j']? = some l → l.interaction = i → j' = j

theorem Sole.of_keeps {c' : Connection} (h : c'.Sole i j) (hc : c.Keeps c') : c.Sole i j :=
  fun j' l hl => h j' l (hc j' l hl)

theorem Sole.eq_of_serves (h : c.Sole i j) {j' : Nat} (hserves : c.Serves i j') : j' = j := by
  obtain ⟨l, hl, hi, -⟩ := exists_label_of_serves hserves
  exact h j' l hl hi

/-- Whether the subscription that a link was given is in use, as a number. -/
def inUse (j : Nat) (c : Connection) : Nat :=
  (c.linkAt j).attached.toNat

/-- Whether a stream object is there, as a number. -/
def present (j : Nat) (c : Connection) : Nat :=
  if j < c.labels.length then 1 else 0

theorem present_react_le (e : Event Step) (j : Nat) (c : Connection) :
    c.present j ≤ (c.react e).1.present j := by
  rw [present, present, labels_react, List.length_append]
  split <;> split <;> omega

theorem inUse_react_le (he : c.AllowsEvent e) (hattaches : attaches j e = false)
    (hlink : (c.linkAt j).outboundDone = true → (c.linkAt j).attached = false) :
    (c.react e).1.inUse j ≤ c.inUse j := by
  have hbecomes := linkAt_react_of_allowsEvent he j
  rw [inUse, inUse, hbecomes.attached hlink, hattaches, Bool.and_false, Bool.or_false]
  cases (c.linkAt j).attached <;> cases (ends j e || dismisses j e) <;> simp

theorem calls_attached {r : Handle} {l : Link} (h : c.link? r.stream = some (i, l)) (n : Nat) :
    (c.react (.attached r n)).2 = [.ask i l.attach.2] := by
  obtain ⟨s, hs, rfl, hl⟩ := link?_eq_some.mp h
  simp only [react, attached, atLink, atStream, hs, hl]

theorem calls_cancelProducer {l : Link} (h : c.link? j = some (i, l)) :
    (c.react (.resumed (.cancelProducer j))).2 = if l.attached then [.ask i .cancel] else [] := by
  obtain ⟨s, hs, rfl, hl⟩ := link?_eq_some.mp h
  simp only [react, step, atLink, atStream, hs, hl]
  rfl

/-- The cancellation of the producer `i`, of which the stream object `j` is the peer: what is handed
on by the calls on an event, and what is kept by the link, is no more than before. -/
def Conserves (i j : Nat) (e : Event Step) (c : Connection) : Prop :=
  weight (fun t => joining j t + stopping i t) ((c.react e).2.map .call) +
      (c.react e).1.inUse j + c.present j ≤
    joining j (.tell e) + c.inUse j + (c.react e).1.present j

section Conserves

variable (he : c.AllowsEvent e)
  (hlink : (c.linkAt j).outboundDone = true → (c.linkAt j).attached = false)
  (hsole : ∀ j', c.Serves i j' → j' = j)

include he hlink in
/-- Where no calls have to do with cancellations nothing becomes more. -/
theorem conserves_of_weight_eq_zero (hattaches : attaches j e = false)
    (hcalls : weight (fun t => joining j t + stopping i t) ((c.react e).2.map .call) = 0) :
    c.Conserves i j e := by
  have hpresent := present_react_le e j c
  have huse := inUse_react_le he hattaches hlink
  rw [Conserves, hcalls]
  omega

include hsole in
/-- What concerns another link concerns another producer. -/
theorem stopping_ask_of_ne {i' j' : Nat} {l : Link} (hj : j' ≠ j) (hl : c.link? j' = some (i', l))
    (a : Ask) : stopping i (.call (.ask i' a)) = 0 := by
  cases a with
  | request n => rfl
  | cancel =>
    have hne : i' ≠ i := by
      rintro rfl
      exact hj (hsole j' ⟨l, hl⟩)
    simp [stopping, cancelsProducer, hne]

include hlink hsole in
/-- A producer gives its subscription: it is turned down, or it is in use from now on. -/
theorem conserves_attached {r : Handle} {n : Nat} (he : c.AllowsEvent (.attached r n)) :
    c.Conserves i j (.attached r n) := by
  have hserves : c.Serves n r.stream := he
  obtain ⟨l, hl⟩ := hserves
  have hcalls := calls_attached hl n
  by_cases hj : r.stream = j
  · subst hj
    have hjoining : joining r.stream (.tell (.attached r n)) = 1 := if_pos rfl
    have hattaches : attaches r.stream (.attached r n) = true := beq_self_eq_true _
    have hquiet : (ends r.stream (.attached r n) || dismisses r.stream (.attached r n)) = false := rfl
    have hpresent := present_react_le (.attached r n) r.stream c
    have huse := (linkAt_react_of_allowsEvent he r.stream).attached hlink
    rw [linkAt_of_link? hl] at hlink
    rw [hattaches, hquiet, linkAt_of_link? hl, Bool.and_true, Bool.not_false, Bool.and_true] at huse
    have hask : joining r.stream (.call (.ask n l.attach.2)) = 0 := rfl
    rw [Conserves, hcalls, hjoining, inUse, inUse, huse, linkAt_of_link? hl]
    simp only [List.map_cons, List.map_nil, Crew.weight_cons, Crew.weight_nil, hask]
    have hstop : stopping i (.call (.ask n l.attach.2)) ≤ 1 := Bool.toNat_le _
    cases hdone : l.outboundDone with
    | true =>
      rw [hlink hdone]
      simp only [Bool.not_true, Bool.or_false, Bool.toNat_false]
      omega
    | false =>
      cases hatt : l.attached with
      | true =>
        simp only [Bool.true_or, Bool.toNat_true]
        omega
      | false =>
        have hrequest : l.attach.2 = .request 1 := by simp [Link.attach, hdone, hatt]
        have hzero : stopping i (.call (.ask n (.request 1))) = 0 := rfl
        rw [hrequest, hzero]
        simp only [Bool.not_false, Bool.or_true, Bool.toNat_true, Bool.toNat_false]
        omega
  · refine conserves_of_weight_eq_zero he hlink (by simpa [attaches] using hj) ?_
    rw [hcalls]
    simp only [List.map_cons, List.map_nil, Crew.weight_cons, Crew.weight_nil,
      stopping_ask_of_ne hsole hj hl]
    rfl

include hlink hsole in
/-- The reader dismisses a producer: it is canceled if its subscription was in use. -/
theorem conserves_cancelProducer {j' : Nat}
    (he : c.AllowsEvent (.resumed (.cancelProducer j'))) :
    c.Conserves i j (.resumed (.cancelProducer j')) := by
  have hserves : ∃ i', c.Serves i' j' := he
  obtain ⟨i', l, hl⟩ := hserves
  have hcalls := calls_cancelProducer hl
  by_cases hj : j' = j
  · subst hj
    have hpresent := present_react_le (.resumed (.cancelProducer j')) j' c
    have huse := (linkAt_react_of_allowsEvent he j').attached hlink
    have hdismisses : dismisses j' (.resumed (.cancelProducer j')) = true := beq_self_eq_true _
    rw [hdismisses, Bool.or_true, Bool.not_true, Bool.and_false] at huse
    rw [Conserves, hcalls, inUse, inUse, huse, linkAt_of_link? hl]
    have hstop : stopping i (.call (.ask i' .cancel)) ≤ 1 := Bool.toNat_le _
    have hask : joining j' (.call (.ask i' .cancel)) = 0 := rfl
    cases l.attached with
    | true =>
      simp only [if_true, List.map_cons, List.map_nil, Crew.weight_cons, Crew.weight_nil, hask,
        Bool.toNat_true, Bool.toNat_false]
      omega
    | false =>
      simp only [Bool.false_eq_true, if_false, List.map_nil, Crew.weight_nil, Bool.toNat_false]
      omega
  · refine conserves_of_weight_eq_zero he hlink rfl ?_
    rw [hcalls]
    split
    · simp only [List.map_cons, List.map_nil, Crew.weight_cons, Crew.weight_nil,
        stopping_ask_of_ne hsole hj hl]
      rfl
    · rfl

include hlink in
/-- A channel is opened: its producer is about to be attached to a new stream object. -/
theorem conserves_openedChannel (n i' : Nat) : c.Conserves i j (.openedChannel n i') := by
  have huse := inUse_react_le (c := c) (e := .openedChannel n i') (j := j) trivial rfl hlink
  have hlength : (c.react (.openedChannel n i')).1.labels.length = c.labels.length + 1 := by
    rw [labels_react, List.length_append]
    rfl
  have hcalls : weight (fun t => joining j t + stopping i t)
      ((c.react (.openedChannel n i')).2.map .call) = if c.labels.length = j then 1 else 0 := by
    rw [length_labels]
    simp [react, openedChannel, addStream, joining, stopping, cancelsProducer]
  rw [Conserves, hcalls, present, present, hlength]
  split <;> split <;> split <;> omega

include he hlink hsole in
/-- **A producer that gives its subscription is canceled at once, or the subscription is in use until
it is canceled.** -/
theorem conserves_of_allowsEvent : c.Conserves i j e := by
  by_cases hattached : ∃ r n, e = .attached r n
  · obtain ⟨r, n, rfl⟩ := hattached
    exact conserves_attached hlink hsole he
  by_cases hcancel : ∃ j', e = .resumed (.cancelProducer j')
  · obtain ⟨j', rfl⟩ := hcancel
    exact conserves_cancelProducer hlink hsole he
  by_cases hopened : ∃ n i', e = .openedChannel n i'
  · obtain ⟨n, i', rfl⟩ := hopened
    exact conserves_openedChannel hlink n i'
  refine conserves_of_weight_eq_zero he hlink ?_ (Crew.weight_eq_zero fun t ht => ?_)
  · unfold attaches
    split
    · exact absurd ⟨_, _, rfl⟩ hattached
    · rfl
  · obtain ⟨cl, hcl, rfl⟩ := List.mem_map.mp ht
    cases makes_of_mem hcl with
    | attach n i' => exact absurd ⟨n, i', rfl⟩ hopened
    | ask _ _ h =>
      obtain ⟨r, n, rfl⟩ := h
      exact absurd ⟨r, n, rfl⟩ hattached
    | askCancel => exact absurd ⟨_, rfl⟩ hcancel
    | _ => rfl

end Conserves

end Connection

namespace Chronicle

open Exchange (Origin)

variable {ι : Type} {c d : Crew ι Chronicle Step} {e e' : Exchange Chronicle} {reader k : ι}
  {i j : Nat} {l : Label} {t : Task Step} {old new : List (Task Step)}

/-- The cancellation of the producer of an interaction: its producer is about to give its
subscription, that is in use, or it is told to stop. -/
def cancels (i j : Nat) : Tally Chronicle Step where
  carried _ t := joining j t + stopping i t
  kept e := e.far.connection.inUse j
  used := stopping i

/-- A producer that is attached gives its subscription once. -/
theorem joining_attach_le (i' : Nat) (r : Handle) (x : Interaction) (i j : Nat) :
    weight (fun t => joining j t + stopping i t) (Exchange.attach (τ := Step) i' r x).2 ≤
      if r.stream = j then 1 else 0 := by
  rcases x with ⟨c, _ | p | p | p⟩ <;> simp only [Exchange.attach]
  · exact Nat.zero_le _
  · split
    · exact Nat.zero_le _
    · simp [joining, stopping, cancelsProducer]
  · split
    · exact Nat.zero_le _
    · simp [joining, stopping, cancelsProducer]
  · split
    · exact Nat.zero_le _
    · split
      · simp [joining, stopping, cancelsProducer]
      · exact Nat.zero_le _

/-- On the near side a cancellation is handed on only by the attachment of a producer. -/
theorem joining_perform_le (ht : ∀ event, t ≠ .tell event) (i j : Nat) (e : Exchange Chronicle) :
    weight (fun t => joining j t + stopping i t) (e.perform environment t).2 ≤ joining j t := by
  by_cases hattach : ∃ i' r, t = .call (.attach i' r)
  · obtain ⟨i', r, rfl⟩ := hattach
    show weight _ (e.atInteraction i' (Exchange.attach i' r)).2 ≤ if r.stream = j then 1 else 0
    unfold Exchange.atInteraction
    split
    · exact Nat.zero_le _
    · exact joining_attach_le i' r _ i j
  · rw [Crew.weight_eq_zero fun t' ht' => ?_]
    · exact Nat.zero_le _
    have horigin := Origin.of_mem ht'
    cases horigin with
    | call => exact absurd rfl (ht _)
    | attached r => exact absurd ⟨_, r, rfl⟩ hattach
    | _ => rfl

variable [DecidableEq ι]

/-- **There is at most one cancellation of a producer.** -/
theorem atMost_cancels (h : Crew.Reach environment (newRules ι) start c)
    (hsole : c.exchange.far.connection.Sole i j) :
    (cancels i j).AtMost (c.exchange.far.connection.present j) c := by
  refine reach_induction (P := fun c => c.exchange.far.connection.Sole i j →
    (cancels i j).AtMost (c.exchange.far.connection.present j) c) .refl h
    (fun _ => ⟨0, Crew.weighs_of_forall fun _ => rfl, Nat.le_refl _⟩)
    (fun {c d k old new} hreach ih hmove hturns hsole => ?_) hsole
  have hsole := hsole.of_keeps (keeps_move hmove)
  refine (ih hsole).of_turns hturns (fun _ _ _ => Nat.le_refl _) ?_
  have htidy := tidy_of_reach (reach_rules hreach)
  have hold : ∀ t ∈ old, c.exchange.far.connection.AllowsTask t := fun t ht =>
    htidy.pending k t (hturns.mem_old ht)
  show weight (fun t => joining j t + stopping i t) new + d.exchange.far.connection.inUse j +
      weight (stopping i) old + c.exchange.far.connection.present j ≤
    weight (fun t => joining j t + stopping i t) old + c.exchange.far.connection.inUse j +
      d.exchange.far.connection.present j
  clear hturns
  generalize d.exchange = e' at hmove ⊢
  cases hmove with
  | @perform t hcalm =>
    simp only [Crew.weight_cons, Crew.weight_nil, Nat.add_zero]
    by_cases ht : ∃ event, t = .tell event
    · obtain ⟨event, rfl⟩ := ht
      have hconserves := Connection.conserves_of_allowsEvent (hold _ (List.mem_singleton_self _))
        (htidy.sorted.book j).attached fun _ => hsole.eq_of_serves
      have hzero : stopping i (.tell event) = 0 := rfl
      rw [Connection.Conserves] at hconserves
      rw [hzero]
      exact hconserves
    · have hne : ∀ event, t ≠ .tell event := fun event h => ht ⟨event, h⟩
      have hle := joining_perform_le hne i j c.exchange
      rw [Exchange.far_perform_of_ne environment hne]
      omega
  | start hstart =>
    cases hstart.1 with
    | sever cause => exact Nat.le_refl _
    | channel | request | own | arrive | finish | release =>
      simp [joining, stopping, cancelsProducer, Exchange.enter]
  | @emit i' p emitter s hemit hp hs =>
    have hfar : (c.exchange.send (τ := Step) i' p emitter s).1.far = c.exchange.far :=
      Exchange.far_atInteraction (τ := Step) ..
    have hzero : weight (fun t => joining j t + stopping i t)
        (c.exchange.send (τ := Step) i' p emitter s).2 = 0 := by
      refine Crew.weight_eq_zero fun t ht => ?_
      obtain ⟨r, -, rfl⟩ := Option.map_eq_some_iff.mp (Option.mem_toList.mp ht)
      rfl
    rw [hzero, hfar]
    simp only [Crew.weight_nil]
    omega

omit [DecidableEq ι] in
theorem weight_stopping (i : Nat) (ts : List (Task Step)) :
    weight (stopping i) ts = ts.countP (cancelsProducer i) := by
  induction ts with
  | nil => rfl
  | cons t ts ih =>
    rw [Crew.weight_cons, ih, List.countP_cons, stopping, Nat.add_comm]
    cases cancelsProducer i t <;> rfl

/-- **A producer is canceled at most once.** -/
theorem countP_cancelsProducer_le (h : Crew.Reach environment (newRules ι) start c)
    (hsole : c.exchange.far.connection.Sole i j) : c.done.countP (cancelsProducer i) ≤ 1 := by
  have hle := (atMost_cancels h hsole).kept_add_used_le
  rw [← weight_stopping]
  dsimp only [cancels, Connection.present] at hle
  split at hle <;> omega

/-! ## Why a producer is canceled -/

omit [DecidableEq ι] in
theorem mem_told_move (h : Move environment (newRules ι) k e old new e') {event : Event Step}
    (hevent : event ∈ e.far.told) : event ∈ e'.far.told := by
  rw [told_move h]
  exact List.mem_append_left _ hevent

/-- A subscription is turned down when it is given only if the link is done. -/
theorem ended_or_dismissed_of_attach (h : Crew.Reach environment (newRules ι) start c) {r : Handle}
    {n : Nat} {l : Link} (hsole : c.exchange.far.connection.Sole i r.stream)
    (ht : .tell (.attached r n) ∈ c.stack k)
    (hl : c.exchange.far.connection.link? r.stream = some (i, l)) (hcancel : l.attach.2 = .cancel) :
    c.exchange.far.Ended r.stream ∨ c.exchange.far.Dismissed r.stream := by
  cases hdone : l.outboundDone with
  | true =>
    refine ((tidy_of_reach (reach_rules h)).sorted.book r.stream).done.mp ?_
    rw [Connection.linkAt_of_link? hl, hdone]
  | false =>
    -- The link would have been given a subscription before, and is not given another.
    have hle := (atMost_cancels h hsole).of_mem ht
    have hjoining : (cancels i r.stream).carried c.exchange (.tell (.attached r n)) = 1 := by
      simp [cancels, joining, stopping, cancelsProducer]
    have hatt : l.attached = true := by
      by_contra hnot
      simp [Link.attach, hdone, hnot] at hcancel
    have hkept : (cancels i r.stream).kept c.exchange = 1 := by
      show (c.exchange.far.connection.linkAt r.stream).attached.toNat = 1
      rw [Connection.linkAt_of_link? hl, hatt]
      rfl
    rw [hjoining, hkept, Connection.present] at hle
    split at hle <;> omega

/-- **A producer is canceled only if it has ended, or the peer wants no more.** -/
theorem ended_or_dismissed_of_ask (h : Crew.Reach environment (newRules ι) start c)
    (hsole : c.exchange.far.connection.Sole i j) (hdue : c.Due (.call (.ask i .cancel))) :
    c.exchange.far.Ended j ∨ c.exchange.far.Dismissed j := by
  refine reach_induction (P := fun c => c.exchange.far.connection.Sole i j →
    c.Due (.call (.ask i .cancel)) → c.exchange.far.Ended j ∨ c.exchange.far.Dismissed j) .refl h
    (fun _ hdue => absurd hdue (not_due_start _))
    (fun {c d k old new} hreach ih hmove hturns hsole hdue => ?_) hsole hdue
  have hsole := hsole.of_keeps (keeps_move hmove)
  have hmono : c.exchange.far.Ended j ∨ c.exchange.far.Dismissed j →
      d.exchange.far.Ended j ∨ d.exchange.far.Dismissed j :=
    Or.imp (fun ⟨event, hevent, hends⟩ => ⟨event, mem_told_move hmove hevent, hends⟩)
      fun ⟨event, hevent, hdismisses⟩ => ⟨event, mem_told_move hmove hevent, hdismisses⟩
  rcases hturns.due hdue with hdue | hnew
  · exact hmono (ih hsole hdue)
  rcases new_cases hmove hnew with ⟨t, rfl, hnew, hafter⟩ | ⟨-, hbegins⟩
  · have ht := hturns.mem_old (List.mem_singleton_self _)
    have horigin := Origin.of_mem hnew
    cases horigin with
    | @call event cl hcl =>
      have hmem : .ask i .cancel ∈ (c.exchange.far.connection.react event).2 := hcl
      generalize hask : Call.ask i .cancel = cl at hmem
      cases Connection.makes_of_mem hmem with
      | @ask _ j' i' l hconcerned hl hattached =>
        obtain ⟨r, n, rfl⟩ := hattached
        cases hconcerned
        obtain ⟨rfl, hcancel⟩ := Call.ask.inj hask
        obtain rfl := hsole.eq_of_serves ⟨l, hl⟩
        exact hmono (ended_or_dismissed_of_attach hreach hsole ht hl hcancel.symm)
      | askCancel hl =>
        obtain ⟨rfl, -⟩ := Call.ask.inj hask
        obtain rfl := hsole.eq_of_serves ⟨_, hl⟩
        rw [hafter]
        exact Or.inr ⟨_, List.mem_append_right _ (List.mem_singleton_self _), beq_self_eq_true _⟩
      | askRequest hl => cases hask
      | _ => cases hask
  · cases hbegins

/-! ## When the peer wants no more -/

omit [DecidableEq ι] in
theorem stopped_move {id : UInt32} (h : Move environment (newRules ι) k e old new e')
    (hstopped : e.far.Stopped j id) : e'.far.Stopped j id := by
  have hj : e.far.Registered j := by
    by_contra hnot
    rw [Stopped, since_of_not_registered hnot] at hstopped
    cases hstopped
  rw [Stopped, since_move h hj]
  exact List.mem_append_left _ hstopped

/-- **The reader dismisses the producer of a channel only when it has looked for the link.** -/
theorem stopped_of_cancelProducer (h : Crew.Reach environment (newRules ι) start c)
    (hquiet : Undisturbed j l c)
    (ht : t = .call (.resume (.cancelProducer j)) ∨ t = .tell (.resumed (.cancelProducer j)))
    (hdue : c.Due t) : c.exchange.far.Stopped j l.id := by
  refine reach_induction (P := fun c => Undisturbed j l c →
    ∀ t, t = .call (.resume (.cancelProducer j)) ∨ t = .tell (.resumed (.cancelProducer j)) →
      c.Due t → c.exchange.far.Stopped j l.id) .refl h
    (fun _ t _ hdue => absurd hdue (not_due_start t))
    (fun {c d k old new} hreach ih hmove hturns hquiet t ht hdue => ?_) hquiet t ht hdue
  have hquiet := hquiet.of_turns hmove hturns
  rcases hturns.due hdue with hdue | hnew
  · exact stopped_move hmove (ih hquiet t ht hdue)
  rcases new_cases hmove hnew with ⟨t', rfl, hnew, -⟩ | ⟨-, hbegins⟩
  · have hdue' : c.Due t' := Or.inr ⟨k, hturns.mem_old (List.mem_singleton_self _)⟩
    have horigin := Origin.of_mem hnew
    rcases ht with rfl | rfl
    · cases horigin with
      | @call event cl hcl =>
        have hmem : .resume (.cancelProducer j) ∈ (c.exchange.far.connection.react event).2 := hcl
        cases Connection.makes_of_mem hmem with
        | cancelProducer hout =>
          obtain ⟨l', hl', rfl, hj⟩ := exists_label_of_outbound hreach hout
          obtain rfl := hquiet.label l' hl'
          rw [Stopped, since_move hmove hj]
          exact List.mem_append_right _ (List.mem_singleton_self _)
        | drainLink =>
          have hclosed : c.exchange.far.connection.closed = true := backed_of_due hreach _ hdue'
          rw [hquiet.isOpen] at hclosed
          cases hclosed
    · cases horigin with
      | resumed s => exact stopped_move hmove (ih hquiet _ (Or.inl rfl) hdue')
  · rcases ht with rfl | rfl <;> cases hbegins

/-- **When it was looked for the link of a channel, its producer is to be dismissed.** -/
theorem due_cancelProducer_of_stopped (h : Crew.Reach environment (newRules ι) start c)
    (hquiet : Undisturbed j l c) (hk : l.kind = .channel) (hstopped : c.exchange.far.Stopped j l.id) :
    c.Due (.call (.resume (.cancelProducer j))) := by
  refine reach_induction (P := fun c => Undisturbed j l c → c.exchange.far.Stopped j l.id →
    c.Due (.call (.resume (.cancelProducer j)))) .refl h (by rintro - ⟨⟩)
    (fun {c d k old new} hreach ih hmove hturns hquiet hstopped => ?_) hquiet hstopped
  have hquiet := hquiet.of_turns hmove hturns
  by_cases hj : c.exchange.far.Registered j
  · rw [Stopped, since_move hmove hj, List.mem_append] at hstopped
    rcases hstopped with hstopped | hold
    · exact hturns.due_of_due (ih hquiet hstopped)
    · have hold := Task.mem_filterMap_event?.mp hold
      rcases linked_or_due hreach (hquiet.entered hreach hj) hk with hout | hdue
      · refine hturns.due_of_new ?_
        rcases far_cases hmove with ⟨event, rfl, rfl, -⟩ | ⟨hnone, -⟩
        · cases List.mem_singleton.mp hold
          refine List.mem_map.mpr ⟨_, ?_, rfl⟩
          rw [Connection.react, Connection.calls_detachLink, hout]
          exact List.mem_singleton_self _
        · rw [← Task.mem_filterMap_event?, hnone] at hold
          cases hold
      · exact hturns.due_of_due hdue
  · rw [Stopped, since_move_of_not_registered hmove hj] at hstopped
    cases hstopped

/-- **Because of a frame by which the peer wants no more it is looked for the link.** -/
theorem stopped_of_frame (h : Crew.Reach environment (newRules ι) start c) {id : UInt32}
    {f : Wire.Frame} (hf : f ∈ c.exchange.far.framesSince j) (hstops : detachesLink id f) :
    c.Pending (.call (.resume (.detachLink id))) ∨
      c.Pending (.tell (.resumed (.detachLink id))) ∨ c.exchange.far.Stopped j id := by
  refine reach_induction (P := fun c => f ∈ c.exchange.far.framesSince j →
    c.Pending (.call (.resume (.detachLink id))) ∨
      c.Pending (.tell (.resumed (.detachLink id))) ∨ c.exchange.far.Stopped j id) .refl h
    (by rintro ⟨⟩) (fun {c d k old new} hreach ih hmove hturns hf => ?_) hf
  by_cases hj : c.exchange.far.Registered j
  · have hnew : ∀ t ∈ new, d.Pending t := fun t ht => ⟨k, hturns.mem_new ht⟩
    have htold (event : Event Step) (hevent : .tell event ∈ old) :
        event ∈ d.exchange.far.since j := by
      rw [since_move hmove hj]
      exact List.mem_append_right _ (Task.mem_filterMap_event?.mpr hevent)
    rw [framesSince, since_move hmove hj, List.filterMap_append, List.mem_append] at hf
    rcases hf with hf | hf
    · rcases ih hf with hcall | htell | hstopped
      · rcases hturns.pending hcall with hcall | hold
        · exact Or.inl hcall
        · obtain ⟨-, rfl, -⟩ := hmove.of_mem hold
          exact Or.inr (Or.inl (hnew _ (List.mem_singleton_self _)))
      · rcases hturns.pending htell with htell | hold
        · exact Or.inr (Or.inl htell)
        · exact Or.inr (Or.inr (htold _ hold))
      · exact Or.inr (Or.inr (stopped_move hmove hstopped))
    · obtain ⟨event, hevent, hreceived⟩ := List.mem_filterMap.mp hf
      have hold := Task.mem_filterMap_event?.mp hevent
      obtain rfl : event = .resumed (.receive f) := by
        unfold received? at hreceived
        split at hreceived <;> cases hreceived
        rfl
      refine Or.inl (hnew _ ?_)
      rcases far_cases hmove with ⟨event, rfl, rfl, -⟩ | ⟨hnone, -⟩
      · cases List.mem_singleton.mp hold
        refine List.mem_map.mpr ⟨_, ?_, rfl⟩
        unfold detachesLink at hstops
        split at hstops
        · subst hstops
          exact List.mem_append_right _ (List.mem_singleton_self _)
        · subst hstops
          exact List.mem_singleton_self _
        · cases hstops
      · rw [hnone] at hevent
        cases hevent
  · rw [framesSince, since_move_of_not_registered hmove hj] at hf
    cases hf

end Chronicle

end Client
end StreamConformance
