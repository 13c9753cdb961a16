import StreamConformance.Proofs.Inquiry.Stages

/-!
# Before a consumer holds its subscription

The owner of the consumer may ask for items before it subscribes, and the subscription takes some
sections.  Nobody else has anything to do in the meantime but to cancel.

* `Inquiry.Unopened.stage_of_handing`: the consumer is given the subscription, and asks it for all
  that it was asked for before.
* `Inquiry.Unopened.stage_of_step`: every step leads to a stage.
-/

namespace StreamConformance
namespace Inquiry

open Client (Step)
open Line (peer)
open Wire (Frame)

variable {kind : Script.InteractionKind} {p : Payload} {n0 : Nat} {d : Crew Party Line Step}
  {consumer : Consumer Payload Handle Target}

/-- The demand that a consumer without a subscription is asked for waits. -/
theorem request_of_unsubscribed (hterm : consumer.terminal = none)
    (hsub : consumer.subscription = none) {n : Nat} (hlimit : consumer.pending + n ≤ Demand.limit) :
    consumer.request n = ({ consumer with pending := consumer.pending + n }, {}) := by
  by_cases hn : n = 0
  · subst hn
    simp [Consumer.request]
  · simp [Consumer.request, Consumer.isTerminated, hterm, hsub, hn, Demand.add_eq hlimit]

/-- A consumer asks its subscription for all that it was asked for before. -/
theorem subscribed_of_unsubscribed (hterm : consumer.terminal = none)
    (hsub : consumer.subscription = none) {n : Nat}
    (hn : Demand.add consumer.initialDemand consumer.pending = n) :
    consumer.subscribed peer =
      ({ consumer with
          subscription := some peer, pending := 0,
          outstanding := Demand.add consumer.outstanding n },
        { ask := if n = 0 then none else some (peer, .request n) }) := by
  by_cases hzero : n = 0
  · subst hzero
    simp [Consumer.subscribed, Consumer.isCanceled, hterm, hsub, hn]
  · have hpos : 0 < n := Nat.pos_of_ne_zero hzero
    simp [Consumer.subscribed, Consumer.isCanceled, hterm, hsub, hn, hzero, hpos]

namespace Unopened

variable {v v' : Unopened}

theorem stack_owner (ts : List (Task Step)) (hts : v'.approach.tasks kind p = ts)
    (hcanceling : v'.canceling = v.canceling) :
    (v'.crew kind p).stack = Function.update (v.crew kind p).stack .owner ts := by
  funext k
  cases k with
  | owner => exact hts
  | canceler => exact congrArg cancelTasks hcanceling
  | reader => rfl
  | responder => rfl

theorem stack_canceler (ts : List (Task Step)) (hts : cancelTasks v'.canceling = ts)
    (happroach : v'.approach = v.approach) :
    (v'.crew kind p).stack = Function.update (v.crew kind p).stack .canceler ts := by
  funext k
  cases k with
  | owner => exact congrArg (Approach.tasks kind p) happroach
  | canceler => exact hts
  | reader => rfl
  | responder => rfl

/-- Nothing changes for the consumer with a task that neither asks it nor cancels. -/
theorem IsConsistent.approach (h : v.IsConsistent n0) (a : Approach) {t : Task Step}
    (hasked : Line.requested t = 0) (hcancels : cancels t = false) :
    ({ v with approach := a, done := v.done ++ [t] } : Unopened).IsConsistent n0 :=
  { h with
    demand := by simpa [hasked] using h.demand
    canceled := by simpa [hcancels] using h.canceled }

/-- The owner does something that leaves the consumer without a subscription. -/
theorem stage_of_work (v' : Unopened) (new : List (Task Step)) {t : Task Step}
    {rest : List (Task Step)} (h : v'.IsConsistent n0)
    (hp : (v.crew kind p).exchange.perform environment t = ((v'.crew kind p).exchange, new))
    (hts : v'.approach.tasks kind p = new ++ rest) (hcanceling : v'.canceling = v.canceling)
    (hdone : v'.done = v.done ++ [t]) :
    Stage kind p n0 ((v.crew kind p).work environment .owner t rest) := by
  rw [Crew.work_eq hp (stack_owner _ hts hcanceling) hdone]
  exact .unopened h

/-- The consumer is asked for `n` items. -/
theorem stage_of_asking (h : v.IsConsistent n0) {n : Nat}
    (happroach : v.approach = .asking n) (hlimit : n0 + (askedIn v.done + n) ≤ Demand.limit) :
    Stage kind p n0 ((v.crew kind p).work environment .owner (.own 0 (.request n)) []) := by
  obtain ⟨consumer, approach, canceling, done⟩ := v
  obtain rfl : approach = .asking n := happroach
  have hdemand : consumer.initialDemand + consumer.pending = n0 + askedIn done := h.demand
  have hle : consumer.pending + n ≤ Demand.limit := by
    dsimp only at hlimit
    omega
  have hrequest : consumer.demand (.request n) =
      ({ consumer with pending := consumer.pending + n }, {}) :=
    request_of_unsubscribed h.terminal h.subscription hle
  have hp := perform_own (.request n) consumer {}
  rw [hrequest] at hp
  refine stage_of_work
    { consumer := { consumer with pending := consumer.pending + n }
      canceling := canceling
      done := done ++ [.own 0 (.request n)] } [] { h with
    demand := ?_
    canceled := ?_ } hp rfl rfl rfl
  · rw [askedIn_append, askedIn_singleton]
    show consumer.initialDemand + (consumer.pending + n) = n0 + (askedIn done + n)
    omega
  · simpa [cancels] using h.canceled

/-- The consumer is given the subscription. -/
theorem stage_of_handing (h : v.IsConsistent n0) (happroach : v.approach = .handing)
    (hlimit : n0 + askedIn v.done ≤ Demand.limit) :
    Stage kind p n0 ((v.crew kind p).work environment .owner (.call (.subscribed 0 peer)) []) := by
  obtain ⟨consumer, approach, canceling, done⟩ := v
  obtain rfl : approach = .handing := happroach
  have hdemand : consumer.initialDemand + consumer.pending = n0 + askedIn done := h.demand
  have hadd : Demand.add consumer.initialDemand consumer.pending = n0 + askedIn done := by
    rw [← hdemand]
    exact Demand.add_eq (hdemand ▸ hlimit)
  let v' : Opened :=
    { consumer := { consumer with
        subscription := some peer
        pending := 0
        outstanding := Demand.add consumer.outstanding (n0 + askedIn done) }
      hand := .ofDemand (n0 + askedIn done)
      canceling := canceling
      done := done ++ [.call (.subscribed 0 peer)] }
  have hstack : (v'.crew kind p).stack = Function.update
      ((⟨consumer, .handing, canceling, done⟩ : Unopened).crew kind p).stack .owner
      ((Hand.ofDemand (n0 + askedIn done)).tasks ++ []) := by
    funext k
    cases k with
    | owner => exact (List.append_nil _).symm
    | canceler | reader | responder => rfl
  have hp := perform_subscribed peer consumer { connection := Approach.handing.connection kind p }
  rw [subscribed_of_unsubscribed h.terminal h.subscription hadd, Hand.tasks_ofDemand] at hp
  rw [Crew.work_eq (d := v'.crew kind p) hp hstack rfl]
  exact .opened
    { terminal := h.terminal
      forward := h.forward
      subscription := rfl
      canceled := by simpa [v', cancels] using h.canceled
      demand := by simp [v', Line.requested]
      granting := fun m => Hand.pos_of_ofDemand
      grants := fun m hm => by cases hm
      written := Hand.frames_ofDemand _
      handled_le := Nat.le_refl 0
      conversation := rfl
      ended := rfl
      read_le := Nat.le_refl 0
      reads := by
        rw [show v'.consumer.values = [] from h.values]
        exact .free }

/-- The owner does what it has in hand. -/
theorem stage_of_owner (h : v.IsConsistent n0) (hkind : kind ≠ .fireAndForget)
    {t : Task Step} {rest : List (Task Step)} (hk : v.approach.tasks kind p = t :: rest)
    (hlimit : n0 + asked ((v.crew kind p).work environment .owner t rest) ≤ Demand.limit) :
    Stage kind p n0 ((v.crew kind p).work environment .owner t rest) := by
  rw [asked, Crew.done_work, askedIn_append, askedIn_singleton] at hlimit
  cases happroach : v.approach with
  | free =>
    rw [happroach] at hk
    cases hk
  | asking n =>
    rw [happroach] at hk
    obtain ⟨rfl, rfl⟩ := List.cons.inj hk
    exact stage_of_asking h happroach hlimit
  | subscribing =>
    rw [happroach] at hk
    obtain ⟨rfl, rfl⟩ := List.cons.inj hk
    refine stage_of_work _ _ (h.approach .registering rfl rfl) ?_ (List.append_nil _).symm rfl rfl
    rw [crew, crew, happroach]
    cases kind with
    | fireAndForget => exact absurd rfl hkind
    | requestResponse | requestStream | requestSubscription => rfl
  | registering =>
    rw [happroach] at hk
    obtain ⟨rfl, rfl⟩ := List.cons.inj hk
    refine stage_of_work _ [.tell (.resumed (.register 0))] (h.approach .registered rfl rfl) ?_ rfl
      rfl rfl
    rw [crew, crew, happroach]
    rfl
  | registered =>
    rw [happroach] at hk
    obtain ⟨rfl, rfl⟩ := List.cons.inj hk
    refine stage_of_work _ [] (h.approach .handing rfl rfl) ?_ rfl rfl rfl
    rw [crew, crew, happroach]
    rfl
  | handing =>
    rw [happroach] at hk
    obtain ⟨rfl, rfl⟩ := List.cons.inj hk
    exact stage_of_handing h happroach hlimit

/-- Nothing is on its way before the subscription. -/
theorem written_connection (kind : Script.InteractionKind) (p : Payload) (a : Approach) :
    (a.connection kind p).written = [] := by
  cases a <;> rfl

/-- An owner that has nothing in hand has not begun to subscribe. -/
theorem approach_of_free (hk : v.approach.tasks kind p = []) : v.approach = .free := by
  cases happroach : v.approach with
  | free => rfl
  | _ =>
    rw [happroach] at hk
    cases hk

/-- The owner begins something. -/
theorem stage_of_begin (h : v.IsConsistent n0) (hk : v.approach.tasks kind p = []) {a : Approach}
    (ha : a.connection kind p = {}) :
    Stage kind p n0 ((v.crew kind p).turn .owner (a.tasks kind p) (v.crew kind p).exchange) := by
  have hexchange : (v.crew kind p).exchange =
      (({ v with approach := a } : Unopened).crew kind p).exchange := by
    rw [crew, crew, approach_of_free hk, ha]
    rfl
  have hturn : (v.crew kind p).turn .owner (a.tasks kind p) (v.crew kind p).exchange =
      ({ v with approach := a } : Unopened).crew kind p :=
    Crew.turn_eq hexchange (stack_owner _ rfl rfl) rfl
  rw [hturn]
  exact .unopened { h with }

/-- The canceler begins to cancel. -/
theorem stage_of_canceling (h : v.IsConsistent n0) :
    Stage kind p n0
      ((v.crew kind p).turn .canceler [.own 0 .cancel] (v.crew kind p).exchange) := by
  have hturn : (v.crew kind p).turn .canceler [.own 0 .cancel] (v.crew kind p).exchange =
      ({ v with canceling := true } : Unopened).crew kind p :=
    Crew.turn_eq rfl (stack_canceler _ rfl rfl) rfl
  rw [hturn]
  exact .unopened { h with }

/-- Nobody is about to panic. -/
theorem not_raise {k : Party} {panic : Panic} {rest : List (Task Step)}
    (hk : (v.crew kind p).stack k = .call (.raise panic) :: rest) : False := by
  cases k with
  | owner =>
    have hk' : v.approach.tasks kind p = .call (.raise panic) :: rest := hk
    cases happroach : v.approach <;> rw [happroach] at hk' <;> cases hk'
  | canceler => cases (eq_cancel_of_cons hk).1
  | reader => cases hk
  | responder => cases hk

/-- **Every step before the subscription** leads to a stage. -/
theorem stage_of_step (h : v.IsConsistent n0) (hkind : kind ≠ .fireAndForget)
    (hstep : Crew.Step environment (rules kind p) (v.crew kind p) d)
    (hlimit : n0 + asked d ≤ Demand.limit) : Stage kind p n0 d := by
  cases hstep with
  | @work k t rest hk ht =>
    cases k with
    | owner => exact stage_of_owner h hkind hk hlimit
    | canceler =>
      obtain ⟨rfl, -⟩ := eq_cancel_of_cons hk
      refine .ended (hasEnded_of_cancel rfl h.terminal ?_)
      rw [h.values]
      exact List.nil_prefix
    | reader => cases hk
    | responder => cases hk
  | panic hk => exact (not_raise hk).elim
  | @start k e ts hk hstart =>
    cases hstart with
    | subscribe => exact stage_of_begin h hk (a := .subscribing) rfl
    | ask n => exact stage_of_begin h hk (a := .asking n) rfl
    | cancel => exact stage_of_canceling h
    | take hf => cases hf
    | @handle f fs hf =>
      have hwritten : (v.approach.connection kind p).written.drop 0 = f :: fs := hf
      rw [written_connection] at hwritten
      cases hwritten
  | emit hk hemit => exact hemit.elim

end Unopened

end Inquiry
end StreamConformance
