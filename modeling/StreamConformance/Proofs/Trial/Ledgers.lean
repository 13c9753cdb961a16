import StreamConformance.Proofs.Sections
import StreamConformance.Trial

/-!
# What is entered into ledgers

The ledger of a consumer counts the assertions that were made about it.  A section of an exchange
is never an assertion, whatever the thread and whatever the far side does; so a ledger changes
only where a trial has a job that evaluates an assertion.

* `Exchange.ledger_perform`: no task enters anything.
* `Job.assertion?`: what is asserted by a job, and whether it holds.
* `Trial.hasPassed_eq`: an interaction has passed if its ledger counts no failure.
-/

namespace StreamConformance

variable {σ τ : Type}

/-- The ledger of a receiver. -/
def Receiver.ledger (r : Receiver) : Ledger :=
  r.view fun c => c.ledger

/-- The ledger of the interaction `j` after an assertion about some interaction. -/
def Ledger.after (a : Option (Nat × Bool)) (j : Nat) (l : Ledger) : Ledger :=
  match a with
  | some (i, holds) => if i = j then l.enter holds else l
  | none => l

/-- Failures are counted. -/
theorem Ledger.failed_after (a : Option (Nat × Bool)) (j : Nat) (l : Ledger) :
    (l.after a j).failed = l.failed + if a = some (j, false) then 1 else 0 := by
  rcases a with _ | ⟨i, holds⟩
  · exact (UInt32.add_zero _).symm
  · by_cases hij : i = j
    · cases holds <;> simp [after, enter, hij]
    · simp [after, hij]

/-- Assertions about other interactions change nothing. -/
theorem Ledger.after_of_ne {a : Option (Nat × Bool)} {j : Nat} (h : ∀ holds, a ≠ some (j, holds))
    (l : Ledger) : l.after a j = l := by
  rcases a with _ | ⟨i, holds⟩
  · rfl
  · refine if_neg fun hij => h holds ?_
    rw [hij]

namespace Consumer

variable {ι η φ : Type}

@[simp] theorem ledger_request (n : Nat) (c : Consumer ι η φ) :
    (c.request n).1.ledger = c.ledger := by
  unfold request
  split
  · rfl
  · split <;> rfl

@[simp] theorem ledger_cancel (c : Consumer ι η φ) : c.cancel.1.ledger = c.ledger := by
  unfold cancel
  split <;> rfl

@[simp] theorem ledger_demand (a : Ask) (c : Consumer ι η φ) :
    (c.demand a).1.ledger = c.ledger := by
  cases a with
  | request n => exact ledger_request n c
  | cancel => exact ledger_cancel c

@[simp] theorem ledger_subscribed (h : η) (c : Consumer ι η φ) :
    (c.subscribed h).1.ledger = c.ledger := by
  unfold subscribed
  split <;> rfl

@[simp] theorem ledger_deliver (s : Signal ι) (c : Consumer ι η φ) :
    (c.deliver s).1.ledger = c.ledger := by
  cases s with
  | next item =>
    rw [deliver, next]
    split <;> rfl
  | complete =>
    rw [deliver, terminate]
    split <;> rfl
  | error message =>
    rw [deliver, terminate]
    split <;> rfl

end Consumer

namespace Receiver

@[simp] theorem ledger_deliver (s : Signal Payload) (r : Receiver) :
    (r.deliver s).1.ledger = r.ledger := by
  cases r with
  | payloads c => exact Consumer.ledger_deliver s c
  | units c => exact Consumer.ledger_deliver (unitSignal s) c

theorem ledger_atConsumer (r : Receiver)
    {f : {ι : Type} → Consumer ι Handle Target →
      Consumer ι Handle Target × Consumer.Effect ι Handle Target}
    (hf : ∀ {ι : Type} (c : Consumer ι Handle Target), (f c).1.ledger = c.ledger) :
    (r.atConsumer f).1.ledger = r.ledger := by
  cases r with
  | payloads c => exact hf c
  | units c => exact hf c

/-- An assertion is entered as it was found to be. -/
theorem ledger_check (k : Script.Check) (r : Receiver) :
    (r.check k).1.ledger = r.ledger.enter (r.check k).2 := by
  cases r with
  | payloads c => cases k <;> rfl
  | units c => rfl

end Receiver

namespace Exchange

/-- The ledger of an interaction. -/
def ledger (i : Nat) (e : Exchange σ) : Ledger :=
  ((e.interactions[i]?).map fun x => x.receiver.ledger).getD {}

theorem ledger_congr {i : Nat} {e e' : Exchange σ}
    (h : e'.interactions[i]? = e.interactions[i]?) : e'.ledger i = e.ledger i := by
  rw [ledger, h, ledger]

/-- Where an interaction was put in the place of another, the ledger is its own. -/
theorem ledger_put {i : Nat} {x y : Interaction} {e : Exchange σ}
    (h : e.interactions[i]? = some y) (j : Nat) :
    (e.put i x).ledger j = if i = j then x.receiver.ledger else e.ledger j := by
  by_cases hij : i = j
  · subst hij
    rw [if_pos rfl, ledger, getElem?_put_self h]
    rfl
  · rw [if_neg hij]
    exact ledger_congr (getElem?_put_of_ne hij x e)

theorem ledger_eq {i : Nat} {x : Interaction} {e : Exchange σ}
    (h : e.interactions[i]? = some x) : e.ledger i = x.receiver.ledger := by
  rw [ledger, h]
  rfl

theorem ledger_of_size_le {i : Nat} {e : Exchange σ} (h : e.interactions.size ≤ i) :
    e.ledger i = {} := by
  rw [ledger, Array.getElem?_eq_none h]
  rfl

/-- The near side that is opened has a fresh ledger, as if it had been there before. -/
theorem ledger_enter {x : Interaction} (hx : x.receiver.ledger = {}) (e : Exchange σ) (j : Nat) :
    (e.enter x).ledger j = e.ledger j := by
  rw [ledger, enter, Array.getElem?_push, ledger]
  split
  · rename_i hj
    rw [Option.map_some, hx]
    exact (ledger_of_size_le (Nat.le_of_eq hj.symm)).symm
  · rfl

theorem ledger_atReceiver (i j : Nat) {f : Receiver → Receiver × Receiver.Effect}
    (hf : ∀ r, (f r).1.ledger = r.ledger) (e : Exchange σ) :
    (e.atReceiver (τ := τ) i f).1.ledger j = e.ledger j := by
  unfold atReceiver
  cases h : e.interactions[i]? with
  | none => rfl
  | some x =>
    show (e.put i _).ledger j = _
    rw [ledger_put h]
    split
    · rename_i hij
      rw [← hij, ledger_eq h]
      exact hf x.receiver
    · rfl

theorem ledger_atInteraction (i j : Nat) {f : Interaction → Interaction × List (Task τ)}
    (hf : ∀ x, (f x).1.receiver.ledger = x.receiver.ledger) (e : Exchange σ) :
    (e.atInteraction i f).1.ledger j = e.ledger j := by
  unfold atInteraction
  cases h : e.interactions[i]? with
  | none => rfl
  | some x =>
    show (e.put i _).ledger j = _
    rw [ledger_put h]
    split
    · rename_i hij
      rw [← hij, ledger_eq h]
      exact hf x
    · rfl

theorem ledger_atScripted (i j : Nat) (f : ScriptedProducer → ScriptedProducer × List (Task τ))
    (e : Exchange σ) : (e.atScripted i f).1.ledger j = e.ledger j := by
  refine ledger_atInteraction i j (fun x => ?_) e
  rcases x with ⟨r, _ | p | p | p⟩ <;> rfl

theorem ledger_atEcho (i j : Nat) (f : EchoProducer → EchoProducer × List (Task τ))
    (e : Exchange σ) : (e.atEcho i f).1.ledger j = e.ledger j := by
  refine ledger_atInteraction i j (fun x => ?_) e
  rcases x with ⟨r, _ | p | p | p⟩ <;> rfl

theorem ledger_send (i j : Nat) (p : ScriptedProducer) (emitter : Emitter) (s : Signal Payload)
    (e : Exchange σ) : (e.send (τ := τ) i p emitter s).1.ledger j = e.ledger j :=
  ledger_atScripted (τ := τ) i j _ e

/-- **No task enters anything into a ledger.** -/
theorem ledger_perform (env : Environment σ τ) (t : Task τ) (e : Exchange σ) (j : Nat) :
    (e.perform env t).1.ledger j = e.ledger j := by
  cases t with
  | call c =>
    cases c with
    | subscribed i h =>
      exact ledger_atReceiver i j
        (fun r => r.ledger_atConsumer fun c => c.ledger_subscribed h) e
    | signal i s => exact ledger_atReceiver i j (Receiver.ledger_deliver s) e
    | attach i r =>
      refine ledger_atInteraction i j (fun x => ?_) e
      rcases x with ⟨c, _ | p | p | p⟩
      · rfl
      · unfold attach
        dsimp only
        split <;> rfl
      · unfold attach
        dsimp only
        split
        · rfl
        · cases c <;> rfl
      · unfold attach
        dsimp only
        split <;> rfl
    | ask i a =>
      refine ledger_atInteraction i j (fun x => ?_) e
      rcases x with ⟨r, _ | p | p | p⟩ <;> rfl
    | resume step => rfl
    | raise p => rfl
  | tell event => rfl
  | own i a =>
    exact ledger_atReceiver i j (fun r => r.ledger_atConsumer fun c => c.ledger_demand a) e
  | settle i n => exact ledger_atScripted i j _ e
  | passOn i a => exact ledger_atScripted i j _ e
  | openGate i r => exact ledger_atScripted i j _ e
  | push i item => exact ledger_atEcho i j _ e
  | drain i => exact ledger_atEcho i j _ e
  | drainNext i => exact ledger_atEcho i j _ e

end Exchange

/-! ## Assertions -/

/-- The interaction about which a job asserts something, and whether that holds. -/
def Job.assertion? (t : Trial σ τ) : Job τ → Option (Nat × Bool)
  | .check i k => (t.receiver? i).map fun r => (i, (r.check k).2)
  | .reject i => (t.receiver? i).map fun _ => (i, false)
  | .window i baseline _ =>
    (t.receiver? i).map fun r => (i, r.view fun c => c.isQuietSince baseline)
  | _ => none

namespace Trial

/-- An interaction has passed if its ledger counts no failure. -/
theorem hasPassed_eq (t : Trial σ τ) (i : Nat) :
    t.hasPassed i = ((t.exchange.ledger i).failed == 0) := by
  rw [hasPassed, receiver?, Exchange.ledger]
  rcases t.exchange.interactions[i]? with _ | ⟨c | c, p⟩ <;> rfl

/-- What the trial enters into a ledger. -/
theorem ledger_atReceiver {f : Receiver → Receiver} {holds : Receiver → Bool}
    (hf : ∀ r, (f r).ledger = r.ledger.enter (holds r)) (t : Trial σ τ) (i j : Nat) :
    (t.atReceiver i f).exchange.ledger j =
      (t.exchange.ledger j).after ((t.receiver? i).map fun r => (i, holds r)) j := by
  unfold atReceiver receiver?
  cases h : t.exchange.interactions[i]? with
  | none => rfl
  | some x =>
    show (t.exchange.put i _).ledger j = if i = j then _ else _
    rw [Exchange.ledger_put h]
    split
    · rename_i hij
      rw [← hij, Exchange.ledger_eq h]
      exact hf x.receiver
    · rfl

theorem size_atReceiver (t : Trial σ τ) (i : Nat) (f : Receiver → Receiver) :
    (t.atReceiver i f).exchange.interactions.size = t.exchange.interactions.size := by
  unfold atReceiver
  split
  · rfl
  · exact Exchange.size_put ..

end Trial
end StreamConformance
