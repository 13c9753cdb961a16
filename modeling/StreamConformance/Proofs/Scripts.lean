import StreamConformance.Proofs.Channel.Account
import StreamConformance.Proofs.Standing
import StreamConformance.Proofs.Turns

/-!
# What becomes of the producer of a script

A thread that emits the items of a script waits as long as its peer has no demand, and gives up as
soon as the emitter is closed: by the peer, who cancels, or by the script itself, which has ended.
An emitter that is closed stays closed.  So for a thread not to wait for ever it is enough that the
cancellation of its peer comes through.

* `Crew.Move.scripted`: what a turn makes of the producer of a script.
* `Crew.Move.kind_eq`: a producer stays of its kind.
* `Exchange.next_of_heard`: what tasks leave to be told to a receiver are items; it is only a script
  that ends its stream.
-/

namespace StreamConformance

variable {ι σ τ : Type}

/-- What closed an emitter goes on to close it. -/
structure Emitter.Follows (e e' : Emitter) : Prop where
  canceled : e.canceled = true → e'.canceled = true
  finished : e.finished = true → e'.finished = true

theorem Emitter.Follows.refl (e : Emitter) : e.Follows e :=
  ⟨id, id⟩

theorem Emitter.follows_ask (e : Emitter) (a : Ask) : e.Follows (e.ask a) := by
  cases a with
  | request n => exact ⟨id, id⟩
  | cancel => exact ⟨fun _ => rfl, id⟩

/-- What is sent is sent by an emitter that is not closed. -/
theorem Emitter.follows_sent {e e' : Emitter} {s : Signal Payload} (h : e.emit s = .sent e') :
    e.Follows e' := by
  obtain ⟨hcanceled, hfinished⟩ := Bool.or_eq_false_iff.mp (isClosed_of_sent h)
  exact ⟨by simp [hcanceled], by simp [hfinished]⟩

/-- What the tasks `old` make of the producer `p` of the script of the interaction `i`: an emitter
that is closed stays closed, and a peer stays.  The first peer is given a subscription by one of the
tasks `new` that are left. -/
structure ScriptedProducer.Becomes (i : Nat) (old new : List (Task τ)) (p p' : ScriptedProducer) :
    Prop where
  emitter : p.emitter.Follows p'.emitter
  remote : p'.remote = p.remote ∨ p.remote = none ∧
    ∃ r, old = [.call (.attach i r)] ∧ p'.remote = some r ∧ .tell (.attached r i) ∈ new

theorem ScriptedProducer.Becomes.refl (i : Nat) (old new : List (Task τ)) (p : ScriptedProducer) :
    p.Becomes i old new p :=
  ⟨.refl _, Or.inl rfl⟩

namespace Exchange

variable {i : Nat} {e : Exchange σ} {t : Task τ} {p : ScriptedProducer}

/-- **What a task makes of the producer of a script.** -/
theorem scripted?_perform (env : Environment σ τ) (t : Task τ) (h : e.scripted? i = some p) :
    ∃ p', (e.perform env t).1.scripted? i = some p' ∧
      p.Becomes i [t] (e.perform env t).2 p' := by
  by_cases ht : t.producer? = some i
  · cases t with
    | call c =>
      cases c with
      | attach j r =>
        obtain rfl := Option.some.inj ht
        cases hr : p.remote with
        | none =>
          obtain ⟨hp', hnew⟩ := perform_attach_of_fresh env h hr r
          refine ⟨_, hp', .refl _, Or.inr ⟨hr, r, rfl, rfl, ?_⟩⟩
          rw [hnew]
          exact List.mem_cons_self
        | some r' => exact ⟨p, (perform_attach env h hr r).1, .refl ..⟩
      | ask j a =>
        obtain rfl := Option.some.inj ht
        refine ⟨_, (perform_ask env h a).1, ?_⟩
        cases a with
        | cancel => exact ⟨.refl _, Or.inl rfl⟩
        | request n =>
          rw [askScripted_request]
          exact ⟨.refl _, Or.inl rfl⟩
      | subscribed | signal | resume | raise => cases ht
    | settle j n =>
      obtain rfl := Option.some.inj ht
      exact ⟨_, (perform_settle env h n).1, .refl _, Or.inl rfl⟩
    | passOn j a =>
      obtain rfl := Option.some.inj ht
      exact ⟨_, (perform_passOn env h a).1, p.emitter.follows_ask a, Or.inl rfl⟩
    | openGate j r =>
      obtain rfl := Option.some.inj ht
      exact ⟨_, (perform_openGate env h r).1, .refl _, Or.inl rfl⟩
    | push j item =>
      obtain rfl := Option.some.inj ht
      exact ⟨p, (atEcho_of_scripted? (τ := τ) h _).1, .refl ..⟩
    | drain j =>
      obtain rfl := Option.some.inj ht
      exact ⟨p, (atEcho_of_scripted? (τ := τ) h _).1, .refl ..⟩
    | drainNext j =>
      obtain rfl := Option.some.inj ht
      exact ⟨p, (atEcho_of_scripted? (τ := τ) h _).1, .refl ..⟩
    | tell event => cases ht
    | own j a => cases ht
  · exact ⟨p, (scripted?_congr (producer?_perform env ht e)).trans h, .refl ..⟩

/-- What tasks leave to be told to a receiver are items. -/
theorem next_of_heard {env : Environment σ τ} {r : Handle} {s : Signal Payload}
    (h : .tell (.heard r s) ∈ (e.perform env t).2) : ∃ item, s = .next item := by
  obtain ⟨i, -, ⟨a, rfl⟩ | ⟨rfl, -⟩⟩ := exists_of_heard h
  · obtain ⟨x, -, ht⟩ := mem_atInteraction h
    obtain ⟨r, item, -, heq⟩ | ⟨n, heq⟩ | ⟨b, heq⟩ | heq := mem_askProducer ht
    · cases heq
      exact ⟨item, rfl⟩
    · cases heq
    · cases heq
    · cases heq
  · obtain ⟨p, -, ht⟩ := mem_atEcho h
    obtain ⟨r, item, -, heq⟩ | heq := mem_drainNext ht
    · cases heq
      exact ⟨item, rfl⟩
    · cases heq

end Exchange

namespace Crew

open Exchange (standing?)

variable {env : Environment σ τ} {rules : Rules ι σ τ} {k : ι} {e e' : Exchange σ}
  {old new : List (Task τ)} {i : Nat}

/-- **What a turn makes of the producer of a script.** -/
theorem Move.scripted (h : Move env rules k e old new e') {p : ScriptedProducer}
    (hp : e.scripted? i = some p) :
    ∃ p', e'.scripted? i = some p' ∧ p.Becomes i old new p' := by
  cases h with
  | perform ht => exact Exchange.scripted?_perform env _ hp
  | start h =>
    obtain ⟨x, hx, hprod⟩ := Option.map_eq_some_iff.mp (Exchange.scripted?_eq_some.mp hp)
    refine ⟨p, Exchange.scripted?_eq_some.mpr ?_, .refl ..⟩
    rw [Exchange.producer?, rules.keeps h hx]
    exact congrArg some hprod
  | @emit j q emitter s h hq hs =>
    by_cases hij : j = i
    · subst hij
      obtain rfl := Option.some.inj (hq.symm.trans hp)
      exact ⟨_, (Exchange.send_of_scripted? (τ := τ) hq emitter s).1, Emitter.follows_sent hs,
        Or.inl rfl⟩
    · exact ⟨p, (Exchange.scripted?_congr
        (Exchange.producer?_send_of_ne hij q emitter s e)).trans hp, .refl ..⟩

/-- A producer stays of its kind. -/
theorem Move.kind_eq (h : Move env rules k e old new e') {s : Standing}
    (hs : e.standing? i = some s) : ∃ s', e'.standing? i = some s' ∧ s'.kind = s.kind := by
  cases h with
  | perform ht =>
    obtain ⟨s', hs', hmoves⟩ := Exchange.standing?_perform env _ hs
    exact ⟨s', hs', hmoves.kind_eq⟩
  | start h =>
    obtain ⟨x, hx, rfl⟩ := Exchange.exists_of_standing? hs
    exact ⟨_, Exchange.standing?_eq_some (rules.keeps h hx), rfl⟩
  | @emit j q emitter s' h hq hs' =>
    exact ⟨s, (Exchange.standing?_send j i q emitter s' e).trans hs, rfl⟩

/-- The producer of a script is one that was there before the turn, unless its interaction is new. -/
theorem Move.scripted_of_lt (h : Move env rules k e old new e') {p' : ScriptedProducer}
    (hp' : e'.scripted? i = some p') (hi : i < e.interactions.size) :
    ∃ p, e.scripted? i = some p ∧ p.Becomes i old new p' := by
  have hs : e.standing? i = some (e.interactions[i].producer.standing) :=
    Exchange.standing?_eq_some (Array.getElem?_eq_getElem hi)
  obtain ⟨s', hs', hkind⟩ := h.kind_eq hs
  obtain rfl := Option.some.inj (hs'.symm.trans (Exchange.standing?_eq_some_of_scripted? hp'))
  obtain ⟨p, hp, -⟩ := Exchange.exists_scripted_of_standing? hs hkind.symm
  obtain ⟨q, hq, hbecomes⟩ := h.scripted hp
  obtain rfl := Option.some.inj (hq.symm.trans hp')
  exact ⟨p, hp, hbecomes⟩

end Crew
end StreamConformance
