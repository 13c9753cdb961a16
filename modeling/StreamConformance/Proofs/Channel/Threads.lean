import StreamConformance.Proofs.Channel.Traffic
import StreamConformance.Proofs.Client.Endings

/-!
# What threads do is traffic

However the threads at a connection are scheduled, what the connection is told is traffic:
consumers, producers and the reader come as they like, and a step is taken only if the connection
has left it to be done, and not more often.

* `Receiver.subscription_of_ask`, `Chronicle.lt_length_of_asked`: who asks a subscription was given
  it, so its stream object is there.
* `Chronicle.Covers`, `Chronicle.exists_covers_of_move`: traffic that keeps up with some threads,
  which have no more steps in hand than are left to be done.
* `Chronicle.exists_run_of_reach`: what happens to a connection happens to it in traffic.
-/

namespace StreamConformance

/-! ## Whom a consumer asks -/

namespace Consumer

variable {ι η φ : Type} {c : Consumer ι η φ} {g h : η} {a b : Ask}

theorem subscription_of_ask_demand (hask : (c.demand a).2.ask = some (g, b)) :
    c.subscription = some g := by
  cases a with
  | request n =>
    simp only [demand, request] at hask
    split at hask
    · cases hask
    · split at hask
      · rename_i h hsub
        cases hask
        exact hsub
      · cases hask
  | cancel =>
    simp only [demand, cancel] at hask
    split at hask
    · cases hask
    · obtain ⟨h, hsub, heq⟩ := Option.map_eq_some_iff.mp hask
      cases heq
      exact hsub

theorem eq_of_ask_subscribed (hask : (c.subscribed h).2.ask = some (g, b)) : g = h := by
  simp only [subscribed] at hask
  split at hask
  · cases hask
    rfl
  · obtain ⟨-, heq⟩ := Option.ite_none_right_eq_some.mp hask
    cases heq
    rfl

theorem ask_deliver (s : Signal ι) (c : Consumer ι η φ) : (c.deliver s).2.ask = none := by
  cases s with
  | next item =>
    simp only [deliver, next]
    split <;> rfl
  | complete | error =>
    simp only [deliver, terminate]
    split <;> rfl

end Consumer

/-- A consumer asks the subscription that it has, or the one that it is offered. -/
theorem Receiver.subscription_of_ask {u : Receiver.Use} {r : Receiver} {g : Handle} {b : Ask}
    (h : (r.after u).2.ask = some (g, b)) :
    r.reception.subscription = some g ∨ u = .offered g := by
  cases u with
  | offered h' =>
    refine Or.inr (congrArg _ ?_)
    cases r with
    | payloads c | units c => exact (Consumer.eq_of_ask_subscribed h).symm
  | heard s =>
    cases r with
    | payloads c =>
      have hnone : (c.deliver s).2.ask = some (g, b) := h
      rw [Consumer.ask_deliver] at hnone
      cases hnone
    | units c =>
      have hnone : (c.deliver (unitSignal s)).2.ask = some (g, b) := h
      rw [Consumer.ask_deliver] at hnone
      cases hnone
  | demanded a =>
    refine Or.inl ?_
    cases r with
    | payloads c | units c => exact Consumer.subscription_of_ask_demand h

theorem Exchange.ask_of_mem_effectTasks {τ : Type} {i : Nat} {effect : Receiver.Effect} {g : Handle}
    {b : Ask} (h : Task.tell (τ := τ) (.asked g b) ∈ effectTasks i effect) :
    effect.ask = some (g, b) := by
  rw [effectTasks, List.mem_append] at h
  rcases h with h | h
  · split at h
    · rename_i hask
      cases List.mem_singleton.mp h
      exact hask
    · cases h
  · split at h
    · cases List.mem_singleton.mp h
    · cases h
    · cases List.mem_singleton.mp h
    · cases h

/-- A subscription is asked by a consumer that has it or is offered it. -/
theorem Exchange.subscription_of_asked {σ τ : Type} {env : Environment σ τ} {e : Exchange σ}
    {t : Task τ} {g : Handle} {b : Ask} (h : .tell (.asked g b) ∈ (e.perform env t).2) :
    ∃ i u x, t.use? = some (i, u) ∧ e.reception? i = some x ∧
      (x.subscription = some g ∨ u = .offered g) := by
  obtain ⟨i, u, x, hu, hx⟩ := exists_use_of_asked h
  refine ⟨i, u, x, hu, hx, ?_⟩
  obtain ⟨y, hy, rfl⟩ := Option.map_eq_some_iff.mp hx
  rw [perform_eq_of_use? env hu, atReceiver, hy] at h
  exact Receiver.subscription_of_ask (ask_of_mem_effectTasks h)

namespace Client

/-- How often the step `s` is about to be taken by a task. -/
def taking (s : Step) : Task Step → Nat
  | .call (.resume s') | .tell (.resumed s') => if s' = s then 1 else 0
  | _ => 0

namespace Chronicle

open Crew (Move Turns weight)
open Exchange (Origin)

variable {ι : Type} [DecidableEq ι] {c d : Crew ι Chronicle Step} {t : Task Step}

/-- **A subscription that is asked is that of a stream object.** -/
theorem lt_length_of_asked (h : Crew.Reach environment (newRules ι) start c) {g : Handle} {a : Ask}
    (hdue : c.Due (.tell (.asked g a))) : g.stream < c.exchange.far.connection.labels.length := by
  refine reach_induction (P := fun c => c.Due (.tell (.asked g a)) →
    g.stream < c.exchange.far.connection.labels.length) .refl h
    (fun hdue => absurd hdue (not_due_start _))
    (fun {c d k old new} hreach ih hmove hturns hdue => ?_) hdue
  suffices hlabel : ∃ l, c.exchange.far.connection.labels[g.stream]? = some l by
    obtain ⟨l, hl⟩ := hlabel
    exact (List.getElem?_eq_some_iff.mp (keeps_move hmove _ l hl)).1
  rcases hturns.due hdue with hdue | hnew
  · exact ⟨_, List.getElem?_eq_getElem (ih hdue)⟩
  rcases new_cases hmove hnew with ⟨t, rfl, hnew, -⟩ | ⟨-, hbegins⟩
  · obtain ⟨i, u, x, hu, hx, hsub | rfl⟩ := Exchange.subscription_of_asked hnew
    · obtain ⟨l, hl, -⟩ := label_of_subscription hreach hx hsub
      exact ⟨l, hl⟩
    · obtain rfl := eq_subscribed_of_use? hu
      obtain ⟨l, hl, -⟩ :=
        knows_of_due hreach _ (Or.inr ⟨k, hturns.mem_old (List.mem_singleton_self _)⟩)
      exact ⟨l, hl⟩
  · cases hbegins

/-! ## Keeping up -/

/-- Traffic has come as far as some threads: the same has happened to the connection, and no thread
has a step in hand that is not left to be done. -/
structure Covers (t : Traffic) (c : Crew ι Chronicle Step) : Prop where
  far : t.far = c.exchange.far
  todo : ∀ s, s.isFree = false → ∃ m ≤ t.todo.count s, c.Weighs (taking s) m

omit [DecidableEq ι] in
theorem covers_start : Covers {} (start : Crew ι Chronicle Step) where
  far := rfl
  todo _ _ := ⟨0, Nat.zero_le _, Crew.weighs_of_forall fun _ => rfl⟩

/-- The steps that an event leaves to be done. -/
theorem weight_taking_calls (s : Step) (cls : List (Call Step)) :
    weight (taking s) (cls.map .call) = (cls.filterMap Call.step?).count s := by
  induction cls with
  | nil => rfl
  | cons cl cls ih =>
    rw [List.map_cons, Crew.weight_cons, ih]
    cases cl with
    | resume s' =>
      have hstep : (Call.resume s' :: cls).filterMap Call.step? = s' :: cls.filterMap Call.step? :=
        List.filterMap_cons_some rfl
      rw [hstep, List.count_cons, Nat.add_comm]
      simp [taking]
    | _ => exact Nat.zero_add _

/-- What is told to nobody else leaves no step to be taken but the one that it takes. -/
theorem weight_taking_perform_le {e : Exchange Chronicle} (ht : ∀ event, t ≠ .tell event)
    (s : Step) :
    weight (taking s) (e.perform environment t).2 ≤ taking s t := by
  by_cases hresume : ∃ s', t = .call (.resume s')
  · obtain ⟨s', rfl⟩ := hresume
    exact (Nat.add_zero _).le
  · rw [Crew.weight_eq_zero fun t' hmem => ?_]
    · exact Nat.zero_le _
    cases Origin.of_mem hmem with
    | call => exact absurd rfl (ht _)
    | resumed s' => exact absurd ⟨s', rfl⟩ hresume
    | _ => rfl

variable {r : Traffic} {k : ι} {old new : List (Task Step)}

/-- No thread gets a step in hand by what does not tell the connection anything. -/
theorem Covers.todo_of_weight_le (h : Covers r c) (hturns : Turns k old new c d)
    (hle : ∀ s, s.isFree = false → weight (taking s) new ≤ weight (taking s) old) :
    ∀ s, s.isFree = false → ∃ m ≤ r.todo.count s, d.Weighs (taking s) m := by
  intro s hs
  obtain ⟨m, hm, hweighs⟩ := h.todo s hs
  obtain ⟨stay, hstay, hnew⟩ := hweighs.turns hturns fun _ _ _ => Nat.le_refl _
  have hsteps := hle s hs
  exact ⟨_, by omega, hnew⟩

/-- The connection is told an event by a thread. -/
theorem Covers.tell (h : Covers r c) {event : Event Step}
    (hturns : Turns k [.tell event] ((c.exchange.far.react event).2.map .call) c d)
    (hfar : d.exchange.far = (c.exchange.far.react event).1) {rest : List Step}
    (hrest : ∀ s, s.isFree = false → r.todo.count s ≤ rest.count s + taking s (.tell event)) :
    Covers (r.tell event rest) d where
  far := by rw [hfar, ← h.far]; rfl
  todo s hs := by
    obtain ⟨m, hm, hweighs⟩ := h.todo s hs
    obtain ⟨stay, hstay, hnew⟩ := hweighs.turns hturns fun _ _ _ => Nat.le_refl _
    refine ⟨_, ?_, hnew⟩
    have hleft := hrest s hs
    rw [Crew.weight_cons, Crew.weight_nil, Nat.add_zero] at hstay
    rw [weight_taking_calls, Traffic.tell, List.count_append, h.far]
    omega

omit [DecidableEq ι] in
/-- A step that a thread has in hand is left to be done. -/
theorem Covers.mem_todo (h : Covers r c) {s : Step} (hs : s.isFree = false)
    (ht : .tell (.resumed s) ∈ c.stack k) : s ∈ r.todo := by
  obtain ⟨m, hm, hweighs⟩ := h.todo s hs
  have hone : taking s (.tell (.resumed s)) = 1 := if_pos rfl
  have hle := hweighs.le_total ht
  exact List.count_pos_iff.mp (by omega)

/-- What a thread tells a connection but that it takes a step may happen at any time. -/
theorem expects_of_pending (hreach : Crew.Reach environment (newRules ι) start c)
    {event : Event Step} (ht : .tell event ∈ c.stack k)
    (hfree : ∀ s, event = .resumed s → s.isFree = true) :
    c.exchange.far.connection.Expects event := by
  have hallows := (tidy_of_reach (reach_rules hreach)).pending k _ ht
  cases event with
  | asked g a => exact lt_length_of_asked hreach (Or.inr ⟨k, ht⟩)
  | resumed s => exact hfree s rfl
  | _ => exact hallows

/-- **Traffic keeps up with threads.** -/
theorem exists_covers_of_move (hreach : Crew.Reach environment (newRules ι) start c)
    (h : Covers r c) (hmove : Move environment (newRules ι) k c.exchange old new d.exchange)
    (hturns : Turns k old new c d) : ∃ r', Traffic.Run r r' ∧ Covers r' d := by
  have hold : ∀ t ∈ old, t ∈ c.stack k := fun t ht => hturns.mem_old ht
  -- what the connection is not told leaves the traffic where it is
  have hsame (hfar : d.exchange.far = c.exchange.far)
      (hle : ∀ s, s.isFree = false → weight (taking s) new ≤ weight (taking s) old) :
      ∃ r', Traffic.Run r r' ∧ Covers r' d :=
    ⟨r, .refl, h.far.trans hfar.symm, h.todo_of_weight_le hturns hle⟩
  have hsever (cause : String) (hfar : d.exchange.far = c.exchange.far.sever cause)
      (hle : ∀ s, s.isFree = false → weight (taking s) new ≤ weight (taking s) old) :
      ∃ r', Traffic.Run r r' ∧ Covers r' d :=
    ⟨_, .single (.severed cause), by rw [hfar, ← h.far], h.todo_of_weight_le hturns hle⟩
  have htell (event : Event Step) (hold' : old = [.tell event])
      (hnew : new = (c.exchange.far.react event).2.map .call)
      (hfar : d.exchange.far = (c.exchange.far.react event).1) :
      ∃ r', Traffic.Run r r' ∧ Covers r' d := by
    subst hold' hnew
    have ht := hold _ (List.mem_singleton_self _)
    by_cases hstep : ∃ s, event = .resumed s ∧ s.isFree = false
    · obtain ⟨s, rfl, hs⟩ := hstep
      refine ⟨_, .single (.taken (h.mem_todo hs ht)), h.tell hturns hfar fun s' _ => ?_⟩
      rw [List.count_erase]
      by_cases heq : s = s'
      · subst heq
        simp [taking]
        omega
      · simp [heq]
    · refine ⟨_, .single (.told ?_), h.tell hturns hfar fun _ _ => Nat.le_add_right _ _⟩
      rw [h.far]
      refine expects_of_pending hreach ht fun s hs => ?_
      by_contra hfree
      exact hstep ⟨s, hs, by simpa using hfree⟩
  clear hturns
  generalize d.exchange = e' at hmove hsame hsever htell
  cases hmove with
  | @perform t hcalm =>
    by_cases ht : ∃ event, t = .tell event
    · obtain ⟨event, rfl⟩ := ht
      exact htell event rfl rfl rfl
    · have hne : ∀ event, t ≠ .tell event := fun event heq => ht ⟨event, heq⟩
      refine hsame (Exchange.far_perform_of_ne environment hne _) fun s _ => ?_
      rw [Crew.weight_cons, Crew.weight_nil]
      exact weight_taking_perform_le hne s
  | start hstart =>
    cases hstart.1 with
    | sever cause => exact hsever cause rfl fun _ _ => Nat.le_refl _
    | arrive | finish =>
      refine hsame rfl fun s hs => ?_
      rw [Crew.weight_cons, Crew.weight_nil, Nat.add_zero]
      exact (if_neg (by rintro rfl; cases hs)).le
    | channel | request | own | release => exact hsame rfl fun _ _ => Nat.le_refl _
  | @emit i p emitter s hemit hp hs =>
    refine hsame (Exchange.far_atInteraction (τ := Step) ..) fun s' _ => ?_
    rw [Crew.weight_eq_zero fun t ht => ?_]
    · exact Nat.zero_le _
    · obtain ⟨r, -, rfl⟩ := Option.map_eq_some_iff.mp (Option.mem_toList.mp ht)
      rfl

/-- **What happens to a connection at which threads work happens to it in traffic**, whoever is next
at any time. -/
theorem exists_run_of_reach (h : Crew.Reach environment (newRules ι) start c) :
    ∃ r, Traffic.Run {} r ∧ r.far = c.exchange.far := by
  obtain ⟨r, hrun, hcovers⟩ := reach_induction (P := fun c => ∃ r, Traffic.Run {} r ∧ Covers r c)
    .refl h ⟨{}, .refl, covers_start⟩
    fun {c d k old new} hreach ⟨r, hrun, hcovers⟩ hmove hturns =>
      have ⟨r', hrun', hcovers'⟩ := exists_covers_of_move hreach hcovers hmove hturns
      ⟨r', hrun.trans hrun', hcovers'⟩
  exact ⟨r, hrun, hcovers.far⟩

end Chronicle
end Client
end StreamConformance
