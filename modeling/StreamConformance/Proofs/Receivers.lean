import StreamConformance.Proofs.Consumer.Runs
import StreamConformance.Proofs.Turns

/-!
# What a task changes of a consumer

The consumer of an interaction is used by three kinds of tasks: it is offered a subscription, it
hears a signal, and its owner demands something.  What it has got by all that is its `Reception`:
the items, how the stream ended, and the subscription that it holds.

* `Reception.Becomes`: what a use makes of a reception, and what is asked of a subscription.
* `Exchange.reception?_perform`: tasks that are no uses of a consumer leave its reception as it is.
* `Exchange.reception?_use`: the others do what `Reception.Becomes` says.
* `Exchange.exists_use_of_asked`: a subscription is asked by a use of some consumer.
* `Crew.Move.reception`: what a turn makes of a reception.
-/

namespace StreamConformance

variable {σ τ : Type}

/-- How a stream ends with a signal. -/
def Signal.ending? {α : Type} : Signal α → Option Terminal
  | .next _ => none
  | .complete => some .completed
  | .error message => some (.errored message)

/-- What a consumer is used for by a task. -/
inductive Receiver.Use where
  | offered (h : Handle)
  | heard (s : Signal Payload)
  | demanded (a : Ask)

/-- What a consumer has got. -/
structure Reception where
  terminal : Option Terminal
  subscription : Option Handle
  /-- The items, unless they have no payloads. -/
  items : Option (List Payload)

namespace Reception

open Receiver (Use)

/-- What becomes of a reception with a use, and what is asked of a subscription. -/
inductive Becomes (x : Reception) : Use → Reception → Option (Handle × Ask) → Prop where
  | late (s : Signal Payload) (hterm : x.terminal ≠ none) : Becomes x (.heard s) x none
  | tooLate (a : Ask) (hterm : x.terminal ≠ none) : Becomes x (.demanded a) x none
  | taken (p : Payload) (hterm : x.terminal = none) :
      Becomes x (.heard (.next p)) { x with items := x.items.map (· ++ [p]) } none
  | ended (s : Signal Payload) (hs : s.isTerminal = true) (hterm : x.terminal = none) :
      Becomes x (.heard s) { x with terminal := s.ending?, subscription := none } none
  | canceled (hterm : x.terminal = none) :
      Becomes x (.demanded .cancel) { x with terminal := some .canceled, subscription := none }
        (x.subscription.map fun h => (h, .cancel))
  | requested (n : Nat) {a : Option (Handle × Ask)} (ha : ∀ h, a ≠ some (h, .cancel)) :
      Becomes x (.demanded (.request n)) x a
  | accepted (h : Handle) {a : Option (Handle × Ask)} (ha : ∀ h, a ≠ some (h, .cancel))
      (hterm : x.terminal ≠ some .canceled) (hsub : x.subscription = none) :
      Becomes x (.offered h) { x with subscription := some h } a
  | turnedDown (h : Handle) (hbusy : x.terminal = some .canceled ∨ x.subscription ≠ none) :
      Becomes x (.offered h) x (some (h, .cancel))

variable {x y : Reception} {u : Use} {a : Option (Handle × Ask)}

/-- The end of a stream is final. -/
theorem Becomes.terminal_eq (h : Becomes x u y a) {t : Terminal} (ht : x.terminal = some t) :
    y.terminal = some t := by
  cases h with
  | ended s hs hterm =>
    rw [ht] at hterm
    cases hterm
  | canceled hterm =>
    rw [ht] at hterm
    cases hterm
  | late | tooLate | taken | requested | accepted | turnedDown => exact ht

/-- After a completion or an error the stream has ended. -/
theorem Becomes.terminal_ne_none {s : Signal Payload} (h : Becomes x (.heard s) y a)
    (hs : s.isTerminal = true) : y.terminal ≠ none := by
  cases h with
  | late _ hterm => exact hterm
  | taken p => cases hs
  | ended _ _ hterm => cases s with
    | next p => cases hs
    | complete | error => exact Option.some_ne_none _

/-- A consumer holds a subscription that it held before, or that was offered. -/
theorem Becomes.subscription_eq (h : Becomes x u y a) {g : Handle}
    (hg : y.subscription = some g) : x.subscription = some g ∨ u = .offered g := by
  cases h with
  | ended | canceled => cases hg
  | accepted h' =>
    obtain rfl := Option.some.inj hg
    exact Or.inr rfl
  | late | tooLate | taken | requested | turnedDown => exact Or.inl hg

/-- A subscription is canceled if the consumer has canceled, or if it holds another one. -/
theorem Becomes.of_cancel {g : Handle} (h : Becomes x u y (some (g, .cancel))) :
    (x.subscription = some g ∧ y.terminal = some .canceled) ∨
      (u = .offered g ∧ (y.terminal = some .canceled ∨ x.subscription ≠ none)) := by
  generalize ha : some (g, Ask.cancel) = a at h
  cases h with
  | late | tooLate | taken | ended => cases ha
  | canceled hterm =>
    obtain ⟨g', hsub, heq⟩ := Option.map_eq_some_iff.mp ha.symm
    cases heq
    exact Or.inl ⟨hsub, rfl⟩
  | requested n hne => exact absurd ha.symm (hne g)
  | accepted h' hne => exact absurd ha.symm (hne g)
  | turnedDown h' hbusy =>
    cases ha
    exact Or.inr ⟨rfl, hbusy⟩

end Reception

namespace Receiver

/-- What a consumer has got. -/
def reception : Receiver → Reception
  | .payloads c => ⟨c.terminal, c.subscription, some c.values⟩
  | .units c => ⟨c.terminal, c.subscription, none⟩

/-- The section of a consumer for which it is used. -/
def after : Use → Receiver → Receiver × Effect
  | .offered h => fun r => r.atConsumer (Consumer.subscribed h)
  | .heard s => deliver s
  | .demanded a => fun r => r.atConsumer (Consumer.demand a)

/-- The demand that comes with an offer is not a cancellation. -/
theorem ne_cancel_of_request {n : Nat} {h : Handle} {P : Prop} [Decidable P] (g : Handle) :
    (if P then some (h, Ask.request n) else none) ≠ some (g, .cancel) := by
  split <;> simp

theorem becomes_offered (h : Handle) (r : Receiver) :
    r.reception.Becomes (.offered h) (r.after (.offered h)).1.reception
      (r.after (.offered h)).2.ask := by
  cases r with
  | payloads c =>
    have hb := Consumer.Becomes.of_subscribed c h
    show Reception.Becomes _ _ (reception (.payloads (c.subscribed h).1)) (c.subscribed h).2.ask
    generalize (c.subscribed h).1 = c', (c.subscribed h).2.ask = a at hb
    cases hb with
    | accepted _ hterm hsub => exact .accepted h ne_cancel_of_request hterm hsub
    | turnedDown _ hbusy => exact .turnedDown h hbusy
  | units c =>
    have hb := Consumer.Becomes.of_subscribed c h
    show Reception.Becomes _ _ (reception (.units (c.subscribed h).1)) (c.subscribed h).2.ask
    generalize (c.subscribed h).1 = c', (c.subscribed h).2.ask = a at hb
    cases hb with
    | accepted _ hterm hsub => exact .accepted h ne_cancel_of_request hterm hsub
    | turnedDown _ hbusy => exact .turnedDown h hbusy

theorem becomes_heard (s : Signal Payload) (r : Receiver) :
    r.reception.Becomes (.heard s) (r.after (.heard s)).1.reception
      (r.after (.heard s)).2.ask := by
  cases r with
  | payloads c =>
    have hb := Consumer.Becomes.of_deliver c s
    show Reception.Becomes _ _ (reception (.payloads (c.deliver s).1)) (c.deliver s).2.ask
    generalize (c.deliver s).1 = c', (c.deliver s).2.ask = a at hb
    cases hb with
    | late _ hterm => exact .late s hterm
    | taken p hterm =>
      have hitems : reception (.payloads { c with
          reversed := p :: c.reversed
          received := c.received + 1
          events := c.events + 1
          outstanding := c.outstanding - 1 }) =
          { reception (.payloads c) with items := some (c.values ++ [p]) } := by
        simp [reception, Consumer.values]
      rw [hitems]
      exact .taken p hterm
    | completed hterm => exact .ended .complete rfl hterm
    | failed m hterm => exact .ended (.error m) rfl hterm
  | units c =>
    have hb := Consumer.Becomes.of_deliver c (unitSignal s)
    show Reception.Becomes _ _ (reception (.units (c.deliver (unitSignal s)).1))
      (c.deliver (unitSignal s)).2.ask
    generalize (c.deliver (unitSignal s)).1 = c', (c.deliver (unitSignal s)).2.ask = a at hb
    cases s with
    | next p =>
      cases hb with
      | late _ hterm => exact .late (.next p) hterm
      | taken _ hterm => exact .taken p hterm
    | complete =>
      cases hb with
      | late _ hterm => exact .late .complete hterm
      | completed hterm => exact .ended .complete rfl hterm
    | error m =>
      cases hb with
      | late _ hterm => exact .late (.error m) hterm
      | failed _ hterm => exact .ended (.error m) rfl hterm

theorem becomes_demanded (a : Ask) (r : Receiver) :
    r.reception.Becomes (.demanded a) (r.after (.demanded a)).1.reception
      (r.after (.demanded a)).2.ask := by
  cases r with
  | payloads c =>
    have hb := Consumer.Becomes.of_demand c a
    show Reception.Becomes _ _ (reception (.payloads (c.demand a).1)) (c.demand a).2.ask
    generalize (c.demand a).1 = c', (c.demand a).2.ask = o at hb
    cases hb with
    | tooLate _ hterm => exact .tooLate a hterm
    | canceled hterm => exact .canceled hterm
    | nothing | asked | held => exact .requested _ (by simp)
  | units c =>
    have hb := Consumer.Becomes.of_demand c a
    show Reception.Becomes _ _ (reception (.units (c.demand a).1)) (c.demand a).2.ask
    generalize (c.demand a).1 = c', (c.demand a).2.ask = o at hb
    cases hb with
    | tooLate _ hterm => exact .tooLate a hterm
    | canceled hterm => exact .canceled hterm
    | nothing | asked | held => exact .requested _ (by simp)

/-- **What a use does to a consumer.** -/
theorem becomes_after (u : Use) (r : Receiver) :
    r.reception.Becomes u (r.after u).1.reception (r.after u).2.ask := by
  cases u with
  | offered h => exact becomes_offered h r
  | heard s => exact becomes_heard s r
  | demanded a => exact becomes_demanded a r

end Receiver

/-- The consumer that is used by a task, and what for. -/
def Task.use? : Task τ → Option (Nat × Receiver.Use)
  | .call (.subscribed i h) => some (i, .offered h)
  | .call (.signal i s) => some (i, .heard s)
  | .own i a => some (i, .demanded a)
  | _ => none

namespace Exchange

open Receiver (Use)

variable {i : Nat} {e : Exchange σ} {t : Task τ} {x : Reception} {u : Use}

/-- What the consumer of an interaction has got. -/
def reception? (i : Nat) (e : Exchange σ) : Option Reception :=
  (e.interactions[i]?).map (·.receiver.reception)

/-- The stream has ended for the consumer of an interaction, and how. -/
def EndedBy (t : Terminal) (i : Nat) (e : Exchange σ) : Prop :=
  ∃ x, e.reception? i = some x ∧ x.terminal = some t

theorem reception?_enter (x : Interaction) (e : Exchange σ) (i : Nat) :
    (e.enter x).reception? i =
      if i = e.interactions.size then some x.receiver.reception else e.reception? i := by
  rw [reception?, enter, Array.getElem?_push, reception?]
  split <;> rfl

theorem exists_reception?_of_lt (h : i < e.interactions.size) : ∃ x, e.reception? i = some x :=
  ⟨_, by rw [reception?, Array.getElem?_eq_getElem h]; rfl⟩

theorem reception?_atInteraction {f : Interaction → Interaction × List (Task τ)}
    (hf : ∀ x : Interaction, (f x).1.receiver.reception = x.receiver.reception) (i j : Nat)
    (e : Exchange σ) : (e.atInteraction j f).1.reception? i = e.reception? i := by
  by_cases hij : j = i
  · subst hij
    cases hx : e.interactions[j]? with
    | none => rw [atInteraction, hx]
    | some x =>
      rw [atInteraction_eq hx, reception?, getElem?_put_self hx, reception?, hx]
      exact congrArg some (hf x)
  · rw [reception?, getElem?_atInteraction_of_ne hij, reception?]

theorem reception?_atScripted (f : ScriptedProducer → ScriptedProducer × List (Task τ))
    (i j : Nat) (e : Exchange σ) : (e.atScripted j f).1.reception? i = e.reception? i := by
  refine reception?_atInteraction (fun x => ?_) i j e
  rcases x with ⟨c, _ | p | p | p⟩ <;> rfl

theorem reception?_atEcho (f : EchoProducer → EchoProducer × List (Task τ)) (i j : Nat)
    (e : Exchange σ) : (e.atEcho j f).1.reception? i = e.reception? i := by
  refine reception?_atInteraction (fun x => ?_) i j e
  rcases x with ⟨c, _ | p | p | p⟩ <;> rfl

theorem reception_setForward (target : Target) (r : Receiver) :
    (r.modify (Consumer.setForward target)).reception = r.reception := by
  cases r <;> rfl

theorem reception?_atReceiver_of_ne {j : Nat} (h : j ≠ i)
    (f : Receiver → Receiver × Receiver.Effect) (e : Exchange σ) :
    (e.atReceiver (τ := τ) j f).1.reception? i = e.reception? i := by
  unfold atReceiver
  split
  · rfl
  · rw [reception?, getElem?_put_of_ne h, reception?]

/-- **What is no use of a consumer leaves it with what it has got.** -/
theorem reception?_perform (env : Environment σ τ) (h : ∀ u, t.use? ≠ some (i, u))
    (e : Exchange σ) : (e.perform env t).1.reception? i = e.reception? i := by
  have hne : ∀ {j u}, some (j, u) = t.use? → j ≠ i := by
    rintro j u hu rfl
    exact h u hu.symm
  cases t with
  | call c =>
    cases c with
    | subscribed j g => exact reception?_atReceiver_of_ne (hne rfl) _ e
    | signal j s => exact reception?_atReceiver_of_ne (hne rfl) _ e
    | attach j r =>
      refine reception?_atInteraction (fun x => ?_) i j e
      rcases x with ⟨c, _ | p | p | p⟩
      · rfl
      · simp only [attach]
        split <;> rfl
      · simp only [attach]
        split
        · rfl
        · exact reception_setForward _ _
      · simp only [attach]
        split <;> rfl
    | ask j a =>
      refine reception?_atInteraction (fun x => ?_) i j e
      rcases x with ⟨c, _ | p | p | p⟩ <;> rfl
    | resume | raise => rfl
  | tell event => rfl
  | own j a => exact reception?_atReceiver_of_ne (hne rfl) _ e
  | settle | passOn | openGate => exact reception?_atScripted _ _ _ e
  | push | drain | drainNext => exact reception?_atEcho _ _ _ e

/-- A use is a section of the consumer. -/
theorem perform_eq_of_use? (env : Environment σ τ) (h : t.use? = some (i, u)) (e : Exchange σ) :
    e.perform env t = e.atReceiver i (Receiver.after u) := by
  unfold Task.use? at h
  split at h <;> cases h <;> rfl

/-- **A use makes of a reception what `Reception.Becomes` says**, and what it asks of a subscription
is left to be told. -/
theorem reception?_use (env : Environment σ τ) (h : t.use? = some (i, u))
    (hx : e.reception? i = some x) :
    ∃ y a, (e.perform env t).1.reception? i = some y ∧ x.Becomes u y a ∧
      ∀ g b, .tell (.asked g b) ∈ (e.perform env t).2 ↔ a = some (g, b) := by
  obtain ⟨y, hy, rfl⟩ := Option.map_eq_some_iff.mp hx
  refine ⟨_, _, ?_, Receiver.becomes_after u y.receiver, fun g b => ?_⟩
  · rw [perform_eq_of_use? env h, atReceiver, hy]
    dsimp only
    rw [reception?, getElem?_put_self hy]
    rfl
  · rw [perform_eq_of_use? env h, atReceiver, hy]
    dsimp only
    rw [effectTasks, List.mem_append]
    rcases (Receiver.after u y.receiver).2.ask with _ | ⟨g', b'⟩ <;>
      rcases (Receiver.after u y.receiver).2.copy with _ | ⟨_ | _, _ | _⟩ <;> simp [eq_comm]

theorem reception?_perform_of_none (env : Environment σ τ) (t : Task τ)
    (h : e.reception? i = none) : (e.perform env t).1.reception? i = none := by
  by_cases hu : ∃ u, t.use? = some (i, u)
  · obtain ⟨u, hu⟩ := hu
    have hnone : e.interactions[i]? = none := Option.map_eq_none_iff.mp h
    rw [perform_eq_of_use? env hu, atReceiver, hnone]
    exact h
  · rw [reception?_perform env fun u hu' => hu ⟨u, hu'⟩]
    exact h

/-- A subscription is asked by a use of some consumer. -/
theorem exists_use_of_asked {env : Environment σ τ} {g : Handle} {b : Ask}
    (h : .tell (.asked g b) ∈ (e.perform env t).2) :
    ∃ i u x, t.use? = some (i, u) ∧ e.reception? i = some x := by
  cases hu : t.use? with
  | some p =>
    obtain ⟨i, u⟩ := p
    rw [perform_eq_of_use? env hu, atReceiver] at h
    cases hx : e.interactions[i]? with
    | none =>
      rw [hx] at h
      cases h
    | some x => exact ⟨i, u, x.receiver.reception, rfl, by rw [reception?, hx]; rfl⟩
  | none =>
    have horigin := Origin.of_mem h
    cases horigin with
    | asked _ _ ht =>
      cases t with
      | call c =>
        cases c with
        | resume step => cases List.mem_singleton.mp h
        | raise p => cases h
        | subscribed | signal => cases hu
        | attach | ask => cases ht
      | tell event =>
        obtain ⟨c, -, hc⟩ := List.mem_map.mp h
        cases hc
      | own => cases hu
      | settle | passOn | openGate | push | drain | drainNext => cases ht

end Exchange

/-- What a turn of a thread makes of a reception. -/
theorem Crew.Move.reception {ι : Type} {env : Environment σ τ} {rules : Crew.Rules ι σ τ} {k : ι}
    {e e' : Exchange σ} {old new : List (Task τ)} (h : Crew.Move env rules k e old new e') {i : Nat}
    {x : Reception} (hx : e.reception? i = some x) :
    ∃ y, e'.reception? i = some y ∧
      (y = x ∨ ∃ t u a, old = [t] ∧ t.use? = some (i, u) ∧ x.Becomes u y a) := by
  cases h with
  | @perform t ht =>
    by_cases hu : ∃ u, t.use? = some (i, u)
    · obtain ⟨u, hu⟩ := hu
      obtain ⟨y, a, hy, hb, -⟩ := Exchange.reception?_use env hu hx
      exact ⟨y, hy, Or.inr ⟨t, u, a, rfl, hu, hb⟩⟩
    · exact ⟨x, (Exchange.reception?_perform env (fun u h => hu ⟨u, h⟩) e).trans hx, Or.inl rfl⟩
  | start h =>
    obtain ⟨z, hz, rfl⟩ := Option.map_eq_some_iff.mp hx
    exact ⟨_, by rw [Exchange.reception?, rules.keeps h hz]; rfl, Or.inl rfl⟩
  | emit h hp hs => exact ⟨x, (Exchange.reception?_atScripted _ _ _ _).trans hx, Or.inl rfl⟩

/-- How a stream ended for its consumer is final. -/
theorem Crew.Move.endedBy {ι : Type} {env : Environment σ τ} {rules : Crew.Rules ι σ τ} {k : ι}
    {e e' : Exchange σ} {old new : List (Task τ)} (h : Crew.Move env rules k e old new e') {i : Nat}
    {t : Terminal} (ht : e.EndedBy t i) : e'.EndedBy t i := by
  obtain ⟨x, hx, hterm⟩ := ht
  obtain ⟨y, hy, rfl | ⟨_, _, _, _, _, hb⟩⟩ := h.reception hx
  · exact ⟨y, hy, hterm⟩
  · exact ⟨y, hy, hb.terminal_eq hterm⟩

end StreamConformance
