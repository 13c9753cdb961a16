import StreamConformance.Proofs.Client.Endings
import StreamConformance.Proofs.Scripts

/-!
# What the producer of a channel hears of its end

The subscription that a producer gives to a channel is canceled if the peer wants no more, or if the
connection ends; but the cancellation goes through several hands before it reaches the emitter for
which the script waits.

* `Chronicle.due_attached`: a producer that has a peer gives it a subscription.
* `Chronicle.canceled_of_ask`: who is asked to stop has an emitter that is closed, or will have.
* `Chronicle.finished_of_heard`: a script that has ended the channel has an emitter that is closed.
* `Chronicle.isClosed_of_outboundDone`: so once the peer of a link wants no more items and nothing is left
  to be done, the emitter of its producer is closed, and a script that waits for it goes on.
-/

namespace StreamConformance
namespace Client

open Crew (Move Turns)

namespace Chronicle

variable {ι : Type} {c d : Crew ι Chronicle Step} {i j : Nat} {p : ScriptedProducer}

/-- A script of an interaction that is opened has no peer yet. -/
theorem remote_eq_none_of_new {k : ι} {e e' : Exchange Chronicle} {old new : List (Task Step)}
    (h : Move environment (newRules ι) k e old new e') (hp : e'.scripted? i = some p)
    (hi : ¬ i < e.interactions.size) : p.remote = none := by
  have hnone {q : ScriptedProducer} (hq : e.scripted? i = some q) : False := by
    obtain ⟨x, hx, -⟩ := Option.map_eq_some_iff.mp (Exchange.scripted?_eq_some.mp hq)
    exact hi (Array.getElem?_eq_some_iff.mp hx).1
  have hsize : e'.interactions.size = e.interactions.size → p.remote = none := by
    intro hsize
    obtain ⟨x, hx, -⟩ := Option.map_eq_some_iff.mp (Exchange.scripted?_eq_some.mp hp)
    exact absurd (hsize ▸ (Array.getElem?_eq_some_iff.mp hx).1) hi
  have hnew {x : Interaction} (hx : x.producer.remote = none) (he : e' = e.enter x) :
      p.remote = none := by
    rw [← Exchange.remote?_of_scripted? hp, he, Exchange.remote?, Exchange.producer?,
      Exchange.enter, Array.getElem?_push]
    split
    · exact hx
    · rw [Array.getElem?_eq_none (Nat.le_of_not_lt hi)]
      rfl
  cases h with
  | perform ht => exact hsize (Exchange.size_perform ..)
  | start h =>
    cases h.1 with
    | channel x hfresh => exact hnew (by cases hfresh <;> rfl) rfl
    | request x => exact hnew rfl rfl
    | own | arrive | finish | release => exact hsize rfl
    | sever cause => exact hsize rfl
  | emit h hq hs =>
    refine hsize ?_
    rw [Exchange.send, Exchange.atScripted, Exchange.size_atInteraction]

variable [DecidableEq ι]

/-- **A script that has a peer gives it a subscription.** -/
theorem due_attached (h : Crew.Reach environment (newRules ι) start c) {r : Handle}
    (hp : c.exchange.scripted? i = some p) (hr : p.remote = some r) :
    c.Due (.tell (.attached r i)) := by
  refine reach_induction (P := fun c => ∀ p, c.exchange.scripted? i = some p → p.remote = some r →
    c.Due (.tell (.attached r i))) .refl h (by rintro p ⟨⟩)
    (fun {c d k old new} _ ih hmove hturns p hp hr => ?_) p hp hr
  by_cases hi : i < c.exchange.interactions.size
  · obtain ⟨q, hq, hbecomes⟩ := hmove.scripted_of_lt hp hi
    rcases hbecomes.remote with hsame | ⟨-, r', -, hr', hnew⟩
    · exact hturns.due_of_due (ih q hq (hsame.symm.trans hr))
    · obtain rfl := Option.some.inj (hr'.symm.trans hr)
      exact hturns.due_of_new hnew
  · rw [remote_eq_none_of_new hmove hp hi] at hr
    cases hr

/-- **Who is asked to stop has a closed emitter**, or will have. -/
theorem canceled_of_ask (h : Crew.Reach environment (newRules ι) start c)
    (hdone : .call (.ask i .cancel) ∈ c.done) (hp : c.exchange.scripted? i = some p) :
    p.emitter.canceled = true ∨ c.Pending (.passOn i .cancel) := by
  refine reach_induction (P := fun c => .call (.ask i .cancel) ∈ c.done →
    ∀ p, c.exchange.scripted? i = some p → p.emitter.canceled = true ∨
      c.Pending (.passOn i .cancel)) .refl h (by rintro ⟨⟩)
    (fun {c d k old new} hreach ih hmove hturns hdone p hp => ?_) hdone p hp
  have hi : i < c.exchange.interactions.size := by
    have hdue : c.Due (.call (.ask i .cancel)) :=
      (hturns.mem_done.mp hdone).imp id fun hold => ⟨k, hturns.mem_old hold⟩
    obtain ⟨j, l, hl, rfl⟩ := knows_of_due hreach _ hdue
    exact lt_size_of_label hreach hl
  obtain ⟨q, hq, hbecomes⟩ := hmove.scripted_of_lt hp hi
  rcases hturns.mem_done.mp hdone with hdone | hold
  · rcases ih hdone q hq with hcanceled | hpending
    · exact Or.inl (hbecomes.emitter.canceled hcanceled)
    · refine (hturns.pending hpending).symm.imp_left fun hold => ?_
      obtain ⟨-, -, hafter⟩ := hmove.of_mem hold
      rw [hafter, (Exchange.perform_passOn environment hq .cancel).1] at hp
      cases hp
      rfl
  · refine Or.inr ⟨k, hturns.mem_new ?_⟩
    obtain ⟨-, rfl, -⟩ := hmove.of_mem hold
    rw [(Exchange.perform_ask environment hq .cancel).2]
    exact List.mem_singleton_self _

/-- **A script that ends a channel has a closed emitter.** -/
theorem finished_of_heard (h : Crew.Reach environment (newRules ι) start c) {r : Handle}
    {s : Signal Payload} (hs : s.isTerminal = true) (hdue : c.Due (.tell (.heard r s))) :
    ∃ i p, c.exchange.scripted? i = some p ∧ p.remote = some r ∧ p.emitter.finished = true := by
  refine reach_induction (P := fun c => c.Due (.tell (.heard r s)) →
    ∃ i p, c.exchange.scripted? i = some p ∧ p.remote = some r ∧ p.emitter.finished = true) .refl h
    (fun hdue => absurd hdue (not_due_start _))
    (fun {c d k old new} _ ih hmove hturns hdue => ?_) hdue
  rcases hturns.due hdue with hdue | hnew
  · obtain ⟨i, p, hp, hr, hfinished⟩ := ih hdue
    obtain ⟨q, hq, hbecomes⟩ := hmove.scripted hp
    refine ⟨i, q, hq, ?_, hbecomes.emitter.finished hfinished⟩
    rcases hbecomes.remote with hsame | ⟨hnone, -⟩
    · exact hsame.trans hr
    · rw [hr] at hnone
      cases hnone
  · clear hturns
    generalize d.exchange = e' at hmove ⊢
    cases hmove with
    | perform ht =>
      obtain ⟨item, rfl⟩ := Exchange.next_of_heard hnew
      cases hs
    | start h =>
      cases h.1 with
      | sever => cases hnew
      | channel | request | own | arrive | finish | release => cases List.mem_singleton.mp hnew
    | @emit i p emitter s hemit hp hsent =>
      obtain ⟨r, hr, heq⟩ := Option.map_eq_some_iff.mp (Option.mem_toList.mp hnew)
      cases heq
      exact ⟨i, _, (Exchange.send_of_scripted? (τ := Step) hp emitter s).1, hr,
        (Emitter.finished_of_sent hsent).2 hs⟩

/-- A link is done once its producer is to be canceled and that was performed. -/
theorem outboundDone_of_due (h : Crew.Reach environment (newRules ι) start c)
    (hdue : c.Due (.call (.resume (.cancelProducer j)))) :
    (c.exchange.far.connection.linkAt j).outboundDone = true ∨
      c.Pending (.call (.resume (.cancelProducer j))) ∨
      c.Pending (.tell (.resumed (.cancelProducer j))) := by
  rcases due_resumed h hdue with hpending | hdone | hpending
  · exact Or.inr (Or.inl hpending)
  · refine Or.inl (((tidy_of_reach (reach_rules h)).sorted.book j).done.mpr (Or.inr ?_))
    exact ⟨_, (mem_told h).mpr hdone, beq_self_eq_true j⟩
  · exact Or.inr (Or.inr hpending)

/-- A producer that gave its subscription to a link that is done has ended, or is told to stop. -/
theorem ended_or_asked (h : Crew.Reach environment (newRules ι) start c)
    (hserves : c.exchange.far.connection.Serves i j)
    (hdone : (c.exchange.far.connection.linkAt j).outboundDone = true)
    (hatt : c.exchange.far.Attached j) :
    c.exchange.far.Ended j ∨ c.Due (.call (.ask i .cancel)) := by
  have htidy := tidy_of_reach (reach_rules h)
  refine (htidy.followed i j hserves hatt).resolve_left fun hin => ?_
  rw [(htidy.sorted.book j).attached hdone] at hin
  cases hin

/-- **No script waits for ever for a link that is done.** -/
theorem isClosed_of_outboundDone (h : Crew.Reach environment (newRules ι) start c) (hquiet : c.Quiet)
    (hserves : c.exchange.far.connection.Serves i j)
    (hdone : (c.exchange.far.connection.linkAt j).outboundDone = true) {r : Handle}
    (hp : c.exchange.scripted? i = some p) (hr : p.remote = some r) : p.emitter.isClosed = true := by
  have hremotes := (tidy_of_reach (reach_rules h)).sorted.remotes
  -- The peer of the script is the stream object itself, as the consumer has no other.
  have hown {j' : Nat} (hserves' : c.exchange.far.connection.Serves i j') : j' = j := by
    obtain ⟨l, hl, rfl, -⟩ := Connection.exists_label_of_serves hserves
    obtain ⟨l', hl', hi, -⟩ := Connection.exists_label_of_serves hserves'
    exact eq_of_interaction h hl' hl hi
  obtain rfl := hown (hremotes i r ((Exchange.remote?_of_scripted? hp).trans hr))
  have hatt : c.exchange.far.Attached r.stream :=
    ⟨_, (mem_told h).mpr (hquiet.mem_done (due_attached h hp hr)), beq_self_eq_true _⟩
  rw [Emitter.isClosed, Bool.or_eq_true]
  rcases ended_or_asked h hserves hdone hatt with ⟨event, hevent, hends⟩ | hdue
  · unfold ends at hends
    split at hends
    · rename_i r' s
      rw [Bool.and_eq_true, beq_iff_eq] at hends
      obtain ⟨i', p', hp', hr', hfinished⟩ :=
        finished_of_heard h hends.1 (Or.inl ((mem_told h).mp hevent))
      have hserves' := hremotes i' r' ((Exchange.remote?_of_scripted? hp').trans hr')
      rw [hends.2] at hserves'
      obtain ⟨l, hl⟩ := hserves
      obtain ⟨l', hl'⟩ := hserves'
      have hi : i' = i := congrArg Prod.fst (Option.some.inj (hl'.symm.trans hl))
      subst hi
      obtain rfl := Option.some.inj (hp'.symm.trans hp)
      exact Or.inr hfinished
    · cases hends
  · exact Or.inl ((canceled_of_ask h (hquiet.mem_done hdue) hp).resolve_right hquiet.not_pending)

end Chronicle
end Client
end StreamConformance
