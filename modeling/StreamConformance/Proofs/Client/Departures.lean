import StreamConformance.Proofs.Channel.Following
import StreamConformance.Proofs.Client.Deliveries

/-!
# How the consumer of a stream leaves the route table

A consumer that is told the end of its stream has been taken out of the table before that.  One that
cancels is taken out later, by its stream object; and it may cancel at any time, also before it is
offered a subscription, which it then turns down.  In each of these cases the stream object is asked
for the end, once the stream has been entered, and never before, or its entry would stay for good.

* `Chronicle.registered_of_subscribed`: a subscription is offered when the stream has been entered.
* `Chronicle.subscribed_of_asked`: a stream object is asked for the end when its subscription has been
  offered.
* `Chronicle.asked_of_canceled`: a consumer that has canceled has asked for the end, or is about to
  turn its subscription down.
* `Chronicle.departed_of_asked`: whose stream object was asked for the end is taken out of the table.
* `Chronicle.isSome_inbound?_iff`: when nothing is left to be done for a stream, its consumer is in the
  table as long as the stream has not ended for it, and no longer.
-/

namespace StreamConformance

open Receiver (Use)

namespace Reception

variable {x y : Reception} {u : Use} {a : Option (Handle × Ask)}

/-- A consumer that holds a subscription gives it up only with the end of the stream, and if that is
its own cancellation it says so. -/
theorem Becomes.of_holding {g : Handle} (h : Becomes x u y a)
    (hx : x.terminal = none → x.subscription = some g) :
    (y.terminal = none → y.subscription = some g) ∧
      (y.terminal = some .canceled → x.terminal = some .canceled ∨ a = some (g, .cancel)) := by
  cases h with
  | late | tooLate | taken | requested | turnedDown => exact ⟨hx, Or.inl⟩
  | ended s hs hterm =>
    cases s with
    | next p => cases hs
    | complete | error => exact ⟨nofun, nofun⟩
  | canceled hterm =>
    refine ⟨nofun, fun _ => Or.inr ?_⟩
    rw [hx hterm]
    rfl
  | accepted h' ha hcanceled hsub =>
    refine ⟨fun hnone => ?_, fun hterm => absurd hterm hcanceled⟩
    rw [hx hnone] at hsub
    cases hsub

/-- How a stream ends for a consumer: it has ended before, or the consumer cancels, or it hears the
end. -/
theorem Becomes.terminal_cases {t : Terminal} (h : Becomes x u y a) (ht : y.terminal = some t) :
    x.terminal = some t ∨ t = .canceled ∨ ∃ s, u = .heard s ∧ s.isTerminal = true := by
  cases h with
  | ended s hs => exact Or.inr (Or.inr ⟨s, rfl, hs⟩)
  | canceled => exact Or.inr (Or.inl (Option.some.inj ht).symm)
  | late | tooLate | taken | requested | accepted | turnedDown => exact Or.inl ht

end Reception

namespace Client

open Crew (Move Turns)

namespace Connection

variable {c : Connection} {e : Event Step} {i : Nat} {g : Handle} {l : Label}

/-- For a new stream object a subscription is offered. -/
theorem subscribed_mem_of_newLabel? (h : c.newLabel? e = some l) :
    .subscribed l.interaction ⟨c.number, c.labels.length⟩ ∈ (c.react e).2 := by
  rw [length_labels]
  cases e with
  | opened n kind p i =>
    cases kind with
    | fireAndForget =>
      cases h
      exact List.mem_cons_self
    | requestResponse | requestStream | requestSubscription =>
      cases h
      exact List.mem_cons_of_mem _ (List.mem_singleton_self _)
  | openedChannel n i =>
    cases h
    exact List.mem_cons_of_mem _ List.mem_cons_self
  | asked | attached | heard | copied | released | resumed => cases h

/-- A stream is entered before its subscription is offered. -/
theorem register_mem_of_subscribed {front rest : List (Call Step)}
    (h : (c.react e).2 = front ++ .subscribed i g :: rest)
    (hl : (c.react e).1.labels[g.stream]? = some l) (hk : l.kind ≠ .detached) :
    .resume (.register g.stream) ∈ front := by
  have hmem : .subscribed i g ∈ (c.react e).2 := by
    rw [h]
    exact List.mem_append_right _ List.mem_cons_self
  -- The first call for a stream is that it is to be entered, so something stands in front.
  have hfront {cl : Call Step} {cls : List (Call Step)} (hcalls : (c.react e).2 = cl :: cls)
      (hne : cl ≠ .subscribed i g) : cl ∈ front := by
    rw [h] at hcalls
    cases front with
    | nil => exact absurd (List.cons.inj hcalls).1.symm hne
    | cons cl' front =>
      rw [← (List.cons.inj hcalls).1]
      exact List.mem_cons_self
  cases makes_of_mem hmem with
  | @subscribed _ l' hnew =>
    rw [labels_react, hnew, Option.toList_some, List.getElem?_concat_length] at hl
    obtain rfl := Option.some.inj hl
    rw [length_labels]
    cases e with
    | opened n kind p i =>
      cases kind with
      | fireAndForget =>
        cases hnew
        exact absurd rfl hk
      | requestResponse | requestStream | requestSubscription => exact hfront rfl nofun
    | openedChannel n i => exact hfront rfl nofun
    | asked | attached | heard | copied | released | resumed => cases hnew

/-- A stream object that is asked for the end has its consumer taken out of the table, unless it was
asked before. -/
theorem detach_mem_of_asked (hl : c.labels[g.stream]? = some l) (hk : l.kind ≠ .detached) :
    .resume (.detach l.id) ∈ (c.react (.asked g .cancel)).2 ∨
      (c.linkAt g.stream).inboundDone = true := by
  rw [getElem?_labels, Option.map_eq_some_iff] at hl
  obtain ⟨s, hs, rfl⟩ := hl
  cases hside : s.side with
  | request r =>
    left
    simp only [react, asked, atStream, hs, hside]
    exact List.mem_cons_self
  | channel link =>
    rw [linkAt_of_link? (link?_of_side hs hside), react, asked_cancel hs hside]
    cases link.inboundDone with
    | true => exact Or.inr rfl
    | false => exact Or.inl List.mem_cons_self
  | detached =>
    rw [Stream.label, hside] at hk
    exact absurd rfl hk

/-- A link learns that its consumer has canceled when it is asked for the end. -/
theorem inboundDone_of_react {j : Nat} (h : ((c.react e).1.linkAt j).inboundDone = true) :
    (c.linkAt j).inboundDone = true ∨ ∃ g, e = .asked g .cancel ∧ g.stream = j := by
  cases hlink : c.link? j with
  | none =>
    have hmoves := moves_react e c j
    rw [hlink] at hmoves
    generalize hlink' : (c.react e).1.link? j = x at hmoves
    rw [linkAt, hlink'] at h
    cases hmoves <;> cases h
  | some x =>
    obtain ⟨i, l⟩ := x
    obtain ⟨s, hs, -, hl⟩ := link?_eq_some.mp hlink
    cases hx : Link.input? j e with
    | some x =>
      rw [linkAt_of_link? (link?_react_of_input hs hl hx), (Link.takes_take s.id x l).inboundDone,
        Bool.or_eq_true, beq_iff_eq] at h
      rw [linkAt_of_link? hlink]
      refine h.imp_right ?_
      rintro rfl
      cases Link.brings_of_input? hx with
      | cancel g => exact ⟨g, rfl, rfl⟩
    | none =>
      have hother : concerned? e ≠ some j := fun hconcerned => by
        obtain ⟨y, hy⟩ := Link.input?_isSome_iff.mpr hconcerned
        rw [hx] at hy
        cases hy
      have hsame := getElem?_streams_react hother (Array.getElem?_eq_some_iff.mp hs).1
      rw [linkAt, link?, hsame] at h
      exact Or.inl h

end Connection

namespace Chronicle

open Exchange (Origin EndedBy)

variable {ι : Type} {c d : Crew ι Chronicle Step} {e e' : Exchange Chronicle} {reader k : ι}
  {i j : Nat} {g : Handle} {l : Label} {id : UInt32}

/-! ## When a subscription is offered -/

/-- The stream object `j` is to be entered into the table. -/
def Enters (j : Nat) : Task Step → Prop
  | .call (.resume (.register j')) | .tell (.resumed (.register j')) => j' = j
  | _ => False

/-- The subscriptions that are among the tasks of a thread are of streams that have been entered, or
will be by the tasks before. -/
def OffersLate (e : Exchange Chronicle) (ts : List (Task Step)) : Prop :=
  ∀ {front rest : List (Task Step)} {i : Nat} {g : Handle} {l : Label},
    ts = front ++ .call (.subscribed i g) :: rest →
    e.far.connection.labels[g.stream]? = some l → l.kind ≠ .detached →
      e.far.Registered g.stream ∨ ∃ t ∈ front, Enters g.stream t

/-- A stream is entered, or is to be entered, once it was to be entered. -/
theorem enters_move {old new : List (Task Step)} (h : Move environment (newRules ι) k e old new e')
    {t : Task Step} (ht : t ∈ old) (henters : Enters j t) :
    e'.far.Registered j ∨ ∃ t ∈ new, Enters j t := by
  obtain ⟨rfl, rfl, -⟩ := h.of_mem ht
  unfold Enters at henters
  split at henters <;> first | subst henters | cases henters
  · exact Or.inr ⟨_, List.mem_singleton_self _, rfl⟩
  · exact Or.inl (registered_of_mem_old h ht)

/-- A subscription that is offered anew is so behind the entry of its stream. -/
theorem enters_of_new {old front rest : List (Task Step)}
    (h : Move environment (newRules ι) k e old (front ++ .call (.subscribed i g) :: rest) e')
    (hl : e'.far.connection.labels[g.stream]? = some l) (hk : l.kind ≠ .detached) :
    ∃ t ∈ front, Enters g.stream t := by
  have hmem : .call (.subscribed i g) ∈ front ++ .call (.subscribed i g) :: rest :=
    List.mem_append_right _ List.mem_cons_self
  rcases new_cases h hmem with ⟨t, rfl, hperform, hafter⟩ | ⟨-, hbegins⟩
  · obtain ⟨-, hnew, -⟩ := h.of_mem (List.mem_singleton_self t)
    have horigin := Origin.of_mem hperform
    cases horigin with
    | @call event cl hcl =>
      rw [hafter] at hl
      obtain ⟨front', back, hcalls, rfl, hback⟩ := List.map_eq_append_iff.mp hnew.symm
      obtain ⟨cl', rest', rfl, hcl', -⟩ := List.map_eq_cons_iff.mp hback
      obtain rfl : cl' = .subscribed i g := Task.call.inj hcl'
      exact ⟨_, List.mem_map_of_mem (Connection.register_mem_of_subscribed hcalls hl hk), rfl⟩
  · cases hbegins

variable [DecidableEq ι]

/-- **No subscription is offered before the stream is entered**, on any thread. -/
theorem offersLate_of_reach (h : Crew.Reach environment (newRules ι) start c) (k : ι) :
    OffersLate c.exchange (c.stack k) := by
  refine reach_induction (P := fun c => ∀ k, OffersLate c.exchange (c.stack k)) .refl h ?_
    (fun {c d k old new} hreach ih hmove hturns k' => ?_) k
  · intro k front rest i g l hstack
    cases front <;> cases hstack
  intro front rest i g l hstack hl hk
  have hbefore {front' : List (Task Step)}
      (hstack : c.stack k' = front' ++ .call (.subscribed i g) :: rest) :
      c.exchange.far.Registered g.stream ∨ ∃ t ∈ front', Enters g.stream t := by
    have hpending : c.Pending (.call (.subscribed i g)) :=
      ⟨k', by rw [hstack]; exact List.mem_append_right _ List.mem_cons_self⟩
    obtain ⟨l', hl', -⟩ := knows_of_due hreach _ (Or.inr hpending)
    obtain rfl := Option.some.inj ((keeps_move hmove _ l' hl').symm.trans hl)
    exact ih k' hstack hl' hk
  obtain ⟨others, hc, hd, -⟩ := hturns.stack
  rw [hd] at hstack
  by_cases hkk : k' = k
  · subst hkk
    rw [Function.update_self] at hstack
    have hkept (mid : List (Task Step)) (hfront : front = new ++ mid)
        (hothers : others = mid ++ .call (.subscribed i g) :: rest) :
        d.exchange.far.Registered g.stream ∨ ∃ t ∈ front, Enters g.stream t := by
      rw [hothers, ← List.append_assoc] at hc
      rcases hbefore hc with hj | ⟨t, ht, henters⟩
      · exact Or.inl (registered_mono hmove hj)
      rw [hfront]
      rcases List.mem_append.mp ht with ht | ht
      · exact (enters_move hmove ht henters).imp_right fun ⟨t', ht', henters'⟩ =>
          ⟨t', List.mem_append_left _ ht', henters'⟩
      · exact Or.inr ⟨t, List.mem_append_right _ ht, henters⟩
    rcases List.append_eq_append_iff.mp hstack with ⟨mid, hfront, hothers⟩ | ⟨mid, hnew, hothers⟩
    · exact hkept mid hfront hothers
    · cases mid with
      | nil => exact hkept [] (by rw [hnew, List.append_nil, List.append_nil]) hothers.symm
      | cons t mid =>
        obtain ⟨rfl, rfl⟩ := List.cons.inj hothers
        rw [hnew] at hmove
        exact Or.inr (enters_of_new hmove hl hk)
  · rw [Function.update_of_ne hkk] at hstack
    exact (hbefore hstack).imp_left (registered_mono hmove)

/-- **Who was offered a subscription has been entered.** -/
theorem registered_of_subscribed (h : Crew.Reach environment (newRules ι) start c)
    (hdone : .call (.subscribed i g) ∈ c.done)
    (hl : c.exchange.far.connection.labels[g.stream]? = some l) (hk : l.kind ≠ .detached) :
    c.exchange.far.Registered g.stream := by
  refine reach_induction (P := fun c => .call (.subscribed i g) ∈ c.done →
    c.exchange.far.connection.labels[g.stream]? = some l → c.exchange.far.Registered g.stream)
    .refl h (by rintro ⟨⟩) (fun {c d k old new} hreach ih hmove hturns hdone hl => ?_) hdone hl
  have hdue : c.Due (.call (.subscribed i g)) :=
    (hturns.mem_done.mp hdone).imp id fun hold => ⟨k, hturns.mem_old hold⟩
  obtain ⟨l', hl', -⟩ := knows_of_due hreach _ hdue
  obtain rfl := Option.some.inj ((keeps_move hmove _ l' hl').symm.trans hl)
  refine registered_mono hmove ?_
  rcases hturns.mem_done.mp hdone with hdone | hold
  · exact ih hdone hl'
  · obtain ⟨rfl, -, -⟩ := hmove.of_mem hold
    obtain ⟨rest, hc, -⟩ := hturns.stack
    have hc : c.stack k = [] ++ .call (.subscribed i g) :: rest := hc
    exact (offersLate_of_reach hreach k hc hl' hk).resolve_right
      fun ⟨t, ht, _⟩ => List.not_mem_nil ht

/-- **A stream object is asked for the end when its subscription has been offered.** -/
theorem subscribed_of_asked (h : Crew.Reach environment (newRules ι) start c)
    (hdue : c.Due (.tell (.asked g .cancel))) : ∃ i, .call (.subscribed i g) ∈ c.done := by
  refine reach_induction (P := fun c => c.Due (.tell (.asked g .cancel)) →
    ∃ i, .call (.subscribed i g) ∈ c.done) .refl h (fun hdue => absurd hdue (not_due_start _))
    (fun {c d k old new} hreach ih hmove hturns hdue => ?_) hdue
  rcases hturns.due hdue with hdue | hnew
  · exact (ih hdue).imp fun i hi => hturns.mem_done.mpr (Or.inl hi)
  rcases new_cases hmove hnew with ⟨t, rfl, hnew, -⟩ | ⟨-, hbegins⟩
  · obtain ⟨i, u, x, hu, hx⟩ := Exchange.exists_use_of_asked hnew
    obtain ⟨y, a, -, hbecomes, hasked⟩ := Exchange.reception?_use environment hu hx
    obtain rfl := (hasked g .cancel).mp hnew
    refine ⟨i, hturns.mem_done.mpr ?_⟩
    rcases hbecomes.of_cancel with ⟨hsub, -⟩ | ⟨rfl, -⟩
    · exact Or.inl (subscribed_of_subscription hreach hx hsub)
    · rw [eq_subscribed_of_use? hu]
      exact Or.inr (List.mem_singleton_self _)
  · cases hbegins

/-! ## Who cancels asks for the end -/

/-- **For every stream object a subscription is offered**, or was offered. -/
theorem exists_subscribed_of_label (h : Crew.Reach environment (newRules ι) start c)
    (hl : c.exchange.far.connection.labels[j]? = some l) :
    ∃ g, g.stream = j ∧ c.Due (.call (.subscribed l.interaction g)) := by
  refine reach_induction (P := fun c => c.exchange.far.connection.labels[j]? = some l →
    ∃ g, g.stream = j ∧ c.Due (.call (.subscribed l.interaction g))) .refl h (by rintro ⟨⟩)
    (fun {c d k old new} _ ih hmove hturns hl => ?_) hl
  have hkept (hl : c.exchange.far.connection.labels[j]? = some l) :
      ∃ g, g.stream = j ∧ d.Due (.call (.subscribed l.interaction g)) :=
    (ih hl).imp fun g hg => ⟨hg.1, hturns.due_of_due hg.2⟩
  rcases far_cases hmove with ⟨event, rfl, rfl, hfar⟩ | ⟨-, severed, hfar⟩
  · rw [hfar] at hl
    rcases Connection.getElem?_labels_react hl with hold | ⟨hnew, rfl⟩
    · exact hkept hold
    · exact ⟨_, rfl, hturns.due_of_new
        (List.mem_map_of_mem (Connection.subscribed_mem_of_newLabel? hnew))⟩
  · rw [hfar] at hl
    exact hkept hl

/-- **A consumer that was offered a subscription** holds it as long as the stream has not ended for
it, and has asked for the end if it has canceled. -/
theorem holds_of_subscribed (h : Crew.Reach environment (newRules ι) start c)
    (hdone : .call (.subscribed i g) ∈ c.done) :
    ∃ x, c.exchange.reception? i = some x ∧ (x.terminal = none → x.subscription = some g) ∧
      (x.terminal = some .canceled → c.Due (.tell (.asked g .cancel))) := by
  refine reach_induction (P := fun c => .call (.subscribed i g) ∈ c.done →
    ∃ x, c.exchange.reception? i = some x ∧ (x.terminal = none → x.subscription = some g) ∧
      (x.terminal = some .canceled → c.Due (.tell (.asked g .cancel)))) .refl h (by rintro ⟨⟩)
    (fun {c d k old new} hreach ih hmove hturns hdone => ?_) hdone
  rcases hturns.mem_done.mp hdone with hdone | hold
  · obtain ⟨x, hx, hholds, hasked⟩ := ih hdone
    by_cases huse : ∃ t u, t ∈ old ∧ t.use? = some (i, u)
    · obtain ⟨t, u, ht, hu⟩ := huse
      obtain ⟨-, rfl, hafter⟩ := hmove.of_mem ht
      obtain ⟨y, a, hy, hbecomes, hasks⟩ := Exchange.reception?_use environment hu hx
      obtain ⟨hkept, hcanceled⟩ := hbecomes.of_holding hholds
      refine ⟨y, by rw [hafter, hy], hkept, fun hterm => ?_⟩
      rcases hcanceled hterm with hbefore | rfl
      · exact hturns.due_of_due (hasked hbefore)
      · exact hturns.due_of_new ((hasks g .cancel).mpr rfl)
    · obtain ⟨y, hy, rfl | ⟨t, u, a, rfl, hu, -⟩⟩ := hmove.reception hx
      · exact ⟨y, hy, hholds, fun hterm => hturns.due_of_due (hasked hterm)⟩
      · exact absurd ⟨t, u, List.mem_singleton_self _, hu⟩ huse
  · have hpending : c.Pending (.call (.subscribed i g)) := ⟨k, hturns.mem_old hold⟩
    obtain ⟨-, rfl, hafter⟩ := hmove.of_mem hold
    obtain ⟨l, hl, rfl⟩ := knows_of_due hreach _ (Or.inr hpending)
    obtain ⟨x, hx⟩ := Exchange.exists_reception?_of_lt (lt_size_of_label hreach hl)
    have hu : (Task.call (.subscribed l.interaction g) : Task Step).use? =
        some (l.interaction, .offered g) := rfl
    obtain ⟨y, a, hy, hbecomes, hasks⟩ := Exchange.reception?_use environment hu hx
    have hnone := subscription_of_offered hreach hpending hx
    refine ⟨y, by rw [hafter, hy], ?_⟩
    cases hbecomes with
    | accepted _ _ hterm => exact ⟨fun _ => rfl, fun hcanceled => absurd hcanceled hterm⟩
    | turnedDown _ hbusy =>
      have hcanceled := hbusy.resolve_right fun hne => hne hnone
      refine ⟨fun hopen => ?_, fun _ => hturns.due_of_new ((hasks g .cancel).mpr rfl)⟩
      rw [hcanceled] at hopen
      cases hopen

/-- **Who has canceled has asked for the end**, or is about to turn its subscription down. -/
theorem asked_of_canceled (h : Crew.Reach environment (newRules ι) start c)
    (hl : c.exchange.far.connection.labels[j]? = some l)
    (hcanceled : c.exchange.EndedBy .canceled l.interaction) :
    ∃ g, g.stream = j ∧ (c.Pending (.call (.subscribed l.interaction g)) ∨
      c.Due (.tell (.asked g .cancel))) := by
  obtain ⟨g, hg, hdone | hpending⟩ := exists_subscribed_of_label h hl
  · obtain ⟨x, hx, hterm⟩ := hcanceled
    obtain ⟨x', hx', -, hasked⟩ := holds_of_subscribed h hdone
    obtain rfl := Option.some.inj (hx.symm.trans hx')
    exact ⟨g, hg, Or.inr (hasked hterm)⟩
  · exact ⟨g, hg, Or.inl hpending⟩

/-! ## Who asks for the end is taken out -/

/-- The consumer of a stream is about to be taken out of the table. -/
def Leaving (id : UInt32) (c : Crew ι Chronicle Step) : Prop :=
  c.Pending (.call (.resume (.detach id))) ∨ c.Pending (.tell (.resumed (.detach id)))

/-- A link knows that its consumer has canceled only when it was asked for the end. -/
theorem asked_of_inboundDone (h : Crew.Reach environment (newRules ι) start c)
    (hdone : (c.exchange.far.connection.linkAt j).inboundDone = true) :
    ∃ g, g.stream = j ∧ .asked g .cancel ∈ c.exchange.far.told := by
  refine reach_induction (P := fun c => (c.exchange.far.connection.linkAt j).inboundDone = true →
    ∃ g, g.stream = j ∧ .asked g .cancel ∈ c.exchange.far.told) .refl h (by rintro ⟨⟩)
    (fun {c d k old new} _ ih hmove _ hdone => ?_) hdone
  rw [told_move hmove]
  have hkept (hdone : (c.exchange.far.connection.linkAt j).inboundDone = true) :=
    (ih hdone).imp fun g hg => And.imp_right (List.mem_append_left (old.filterMap Task.event?)) hg
  rcases far_cases hmove with ⟨event, rfl, -, hfar⟩ | ⟨-, severed, hfar⟩
  · rw [hfar] at hdone
    rcases Connection.inboundDone_of_react hdone with hdone | ⟨g, rfl, hg⟩
    · exact hkept hdone
    · exact ⟨g, hg, List.mem_append_right _ (List.mem_singleton_self _)⟩
  · rw [hfar] at hdone
    exact hkept hdone

/-- What is entered is no message without answers. -/
theorem kind_of_entered (h : Crew.Reach environment (newRules ι) start c)
    (hj : c.exchange.far.Entered j l) : l.kind ≠ .detached := by
  obtain ⟨l', hl', hk⟩ := knows_of_due h _ (Or.inl ((mem_told h).mp hj.registered))
  obtain rfl := Option.some.inj (hl'.symm.trans hj.label)
  exact hk

/-- Nobody comes into the table for a stream that was entered. -/
theorem inbound?_eq_none_of_turn (h : Crew.Reach environment (newRules ι) start c)
    {old new : List (Task Step)} (hmove : Move environment (newRules ι) k c.exchange old new d.exchange)
    (hturns : Turns k old new c d) (hj : c.exchange.far.Entered j l)
    (hnone : c.exchange.far.connection.routes.inbound? l.id = none) :
    d.exchange.far.connection.routes.inbound? l.id = none := by
  rcases far_cases hmove with ⟨event, rfl, -, hfar⟩ | ⟨-, severed, hfar⟩
  · rw [hfar, Option.eq_none_iff_forall_ne_some]
    intro i hin
    rcases Connection.inbound?_of_react hin with hin | ⟨j', l', rfl, hl', hid, -⟩
    · rw [hnone] at hin
      cases hin
    · obtain rfl := hj.unshared j' l l' hj.label hl' hid
      exact not_pending_register h hj.registered ⟨k, hturns.mem_old (List.mem_singleton_self _)⟩
  · rw [hfar, hnone]

/-- **Whoever asks for the end is taken out of the table**, or is about to be. -/
theorem departed_of_asked (h : Crew.Reach environment (newRules ι) start c)
    (hj : c.exchange.far.Entered j l) (hg : g.stream = j)
    (hasked : .asked g .cancel ∈ c.exchange.far.told) :
    c.exchange.far.connection.routes.inbound? l.id = none ∨ Leaving l.id c := by
  refine entered_induction (P := fun c => ∀ g, g.stream = j →
    .asked g .cancel ∈ c.exchange.far.told →
      c.exchange.far.connection.routes.inbound? l.id = none ∨ Leaving l.id c) h hj
    (fun {c d k new} hreach hl hfar hturns g hg hasked => ?_)
    (fun {c d k old new} hreach hj ih hmove hturns g hg hasked => ?_) g hg hasked
  · -- It cannot have been asked before the stream is entered.
    subst hg
    have hpending : c.Pending (.tell (.resumed (.register g.stream))) :=
      ⟨k, hturns.mem_old (List.mem_singleton_self _)⟩
    obtain ⟨l', hl', hk⟩ := knows_of_due hreach _ (Or.inr hpending)
    rw [hfar, react, List.mem_append, List.mem_singleton] at hasked
    have hdue : c.Due (.tell (.asked g .cancel)) :=
      Or.inl ((mem_told hreach).mp (hasked.resolve_right (by rintro ⟨⟩)))
    obtain ⟨i, hdone⟩ := subscribed_of_asked hreach hdue
    exact absurd hpending
      (not_pending_register hreach (registered_of_subscribed hreach hdone hl' hk))
  have hkept (hdeparts : c.exchange.far.connection.routes.inbound? l.id = none ∨ Leaving l.id c) :
      d.exchange.far.connection.routes.inbound? l.id = none ∨ Leaving l.id d := by
    rcases hdeparts with hnone | hcall | htell
    · exact Or.inl (inbound?_eq_none_of_turn hreach hmove hturns hj hnone)
    · rcases hturns.pending hcall with hcall | hold
      · exact Or.inr (Or.inl hcall)
      · obtain ⟨-, rfl, -⟩ := hmove.of_mem hold
        exact Or.inr (Or.inr ⟨k, hturns.mem_new (List.mem_singleton_self _)⟩)
    · rcases hturns.pending htell with htell | hold
      · exact Or.inr (Or.inr htell)
      · obtain ⟨-, -, hafter⟩ := hmove.of_mem hold
        refine Or.inl ?_
        rw [hafter]
        exact (Routes.inbound?_takeInbound ..).trans (if_pos rfl)
  rw [told_move hmove, List.mem_append, Task.mem_filterMap_event?] at hasked
  rcases hasked with hasked | hold
  · exact hkept (ih g hg hasked)
  · have hl : c.exchange.far.connection.labels[g.stream]? = some l := by
      rw [hg]
      exact hj.label
    rcases Connection.detach_mem_of_asked hl (kind_of_entered hreach hj) with hdetach | hdone
    · obtain ⟨-, rfl, -⟩ := hmove.of_mem hold
      exact Or.inr (Or.inl ⟨k, hturns.mem_new (List.mem_map_of_mem hdetach)⟩)
    · obtain ⟨g', hg', hasked⟩ := asked_of_inboundDone hreach hdone
      exact hkept (ih g' (hg'.trans hg) hasked)

/-! ## Who is in the table -/

/-- The consumer that is in the table for a stream is its own. -/
theorem eq_interaction_of_inbound? (h : Crew.Reach environment (newRules ι) start c)
    (hj : c.exchange.far.Entered j l)
    (hin : c.exchange.far.connection.routes.inbound? l.id = some i) : i = l.interaction := by
  obtain ⟨j', l', hl', hid, rfl, -⟩ := exists_label_of_inbound h hin
  obtain rfl := hj.unshared j' l l' hj.label hl' hid
  rw [Option.some.inj (hl'.symm.trans hj.label)]

/-- **Who was told an end is not in the table.** -/
theorem inbound?_ne_of_signal (h : Crew.Reach environment (newRules ι) start c) {s : Signal Payload}
    (hs : s.isTerminal = true) (hdone : .call (.signal i s) ∈ c.done) (id : UInt32) :
    c.exchange.far.connection.routes.inbound? id ≠ some i := by
  intro hin
  have hle := ((isTally_loads i).atMost h).kept_add_used_le
  have hused : 1 ≤ Crew.weight (ending i) c.done := by
    have hmem := Crew.le_weight (w := ending i) hdone
    simpa [ending, hs] using hmem
  have hkept : 0 < c.exchange.far.connection.routes.uses i := Routes.uses_pos_of_inbound? hin
  dsimp only [loads, share] at hle
  split at hle <;> omega

/-- **A stream ends for its consumer when that cancels or is told an end.** -/
theorem canceled_or_signal_of_endedBy (h : Crew.Reach environment (readerRules reader) start c)
    {t : Terminal} (hended : c.exchange.EndedBy t i) :
    t = .canceled ∨ ∃ s, s.isTerminal = true ∧ .call (.signal i s) ∈ c.done := by
  refine reading_induction (P := fun c => c.exchange.EndedBy t i →
    t = .canceled ∨ ∃ s, s.isTerminal = true ∧ .call (.signal i s) ∈ c.done) h
    (by rintro ⟨x, ⟨⟩, -⟩) (fun {c d k old new} _ ih hmove hturns hended => ?_) hended
  obtain ⟨y, hy, ht⟩ := hended
  have hkept {x : Reception} (hx : c.exchange.reception? i = some x) (ht : x.terminal = some t) :
      t = .canceled ∨ ∃ s, s.isTerminal = true ∧ .call (.signal i s) ∈ d.done :=
    (ih ⟨x, hx, ht⟩).imp_right fun ⟨s, hs, hdone⟩ => ⟨s, hs, hturns.mem_done.mpr (Or.inl hdone)⟩
  cases hx : c.exchange.reception? i with
  | none =>
    obtain ⟨x, hstart, rfl⟩ :=
      exists_enter_of_none (fun _ _ _ _ => starts_of_readerRules) hmove hx hy
    rw [(hstart.2.2 x rfl).terminal] at ht
    cases ht
  | some x =>
    obtain ⟨y', hy', hbecomes⟩ := hmove.reception hx
    obtain rfl := Option.some.inj (hy'.symm.trans hy)
    rcases hbecomes with rfl | ⟨t', u, a, rfl, hu, hbecomes⟩
    · exact hkept hx ht
    · rcases hbecomes.terminal_cases ht with hbefore | hcanceled | ⟨s, rfl, hs⟩
      · exact hkept hx hbefore
      · exact Or.inl hcanceled
      · rw [eq_signal_of_use? hu] at hturns
        exact Or.inr ⟨s, hs, hturns.mem_done.mpr (Or.inr (List.mem_singleton_self _))⟩

/-- A task that has to do with the end of the stream object `j` for its consumer: the consumer is to
be told an end, or one that may have canceled is to be offered its subscription, or the consumer is to
be taken out of the table because it has canceled. -/
def EndsInbound (j : Nat) (l : Label) : Task Step → Prop
  | .call (.signal i s) => i = l.interaction ∧ s.isTerminal = true
  | .call (.subscribed i _) => i = l.interaction
  | .tell (.asked g .cancel) => g.stream = j
  | .call (.resume (.detach id)) | .tell (.resumed (.detach id)) => id = l.id
  | _ => False

/-- No end of the stream object `j` is on its way, to its consumer or from it.  All else may be. -/
def Settled (j : Nat) (l : Label) (c : Crew ι Chronicle Step) : Prop :=
  ∀ t, c.Pending t → ¬ EndsInbound j l t

omit [DecidableEq ι] in
theorem settled_of_quiet (h : c.Quiet) (j : Nat) (l : Label) : Settled j l c :=
  fun _ ht => absurd ht h.not_pending

/-- **The consumer of a stream is in the table as long as the stream has not ended for it**, and no
longer, however it ends. -/
theorem isSome_inbound?_iff (h : Crew.Reach environment (readerRules reader) start c)
    (hj : c.exchange.far.Entered j l) (hsettled : Settled j l c) :
    (c.exchange.far.connection.routes.inbound? l.id).isSome = true ↔
      ¬ ∃ t, c.exchange.EndedBy t l.interaction := by
  have hreach := reach_newRules h
  constructor
  · rintro hin ⟨t, hended⟩
    obtain ⟨i, hi⟩ := Option.isSome_iff_exists.mp hin
    obtain rfl := eq_interaction_of_inbound? hreach hj hi
    rcases canceled_or_signal_of_endedBy h hended with rfl | ⟨s, hs, hdone⟩
    · obtain ⟨g, hg, hoffer | hdone | hpending⟩ := asked_of_canceled hreach hj.label hended
      · exact hsettled _ hoffer rfl
      · rcases departed_of_asked hreach hj hg ((mem_told hreach).mpr hdone) with
          hnone | hcall | htell
        · rw [hi] at hnone
          cases hnone
        · exact hsettled _ hcall rfl
        · exact hsettled _ htell rfl
      · exact hsettled _ hpending hg
    · exact inbound?_ne_of_signal hreach hs hdone l.id hi
  · intro hlives
    rcases routed_or_over hreach hj with hin | hover
    · rw [hin]
      rfl
    · rcases hover.ended hreach with hended | ⟨s, hs, hpending⟩
      · exact absurd hended hlives
      · exact absurd ⟨rfl, hs⟩ (hsettled _ hpending)

end Chronicle
end Client
end StreamConformance
