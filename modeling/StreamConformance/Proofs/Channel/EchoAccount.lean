import Mathlib.Data.List.TakeWhile
import StreamConformance.Proofs.Channel.Credit
import StreamConformance.Proofs.Receivers

/-!
# The account of an echo

What is pushed into an echo waits in its queue until the peer has asked for it.  This file says what
each section of an echo does to what it holds, and keeps account of what was pushed, what the peer has
asked for, and what it was told.

* `Crew.pushed`: the items that were pushed before the peer canceled.
* `Echo.takeNext_of_canceled`, `Echo.takeNext_of_not_canceled`: what is taken from the queue.
* `Echo.Account`: nothing is lost, doubled or put in another order, and no unit of demand is lost
  or used twice.  There is a lemma for each section.
* `Exchange.EchoOrigin.of_mem`: where the tasks come from that put items into the queue or empty it.
* `EchoAt`: an echo with its peer, and what the tasks that are its sections leave to be done.
-/

namespace StreamConformance

open Crew (Mark)

variable {ι σ τ : Type} {env : Environment σ τ} {rules : Crew.Rules ι σ τ} {i : Nat} {r : Handle}
  {l m : List Mark} {c d : Crew ι σ τ} {k : ι}

/-! ## What is pushed -/

/-- The peer of the producer `i` cancels. -/
def Task.isCancel (i : Nat) : Task τ → Bool
  | .call (.ask j .cancel) => j == i
  | _ => false

theorem Task.isCancel_iff {t : Task τ} : t.isCancel i = true ↔ t = .call (.ask i .cancel) := by
  unfold isCancel
  split
  · simp
  · rename_i h
    refine iff_of_false Bool.false_ne_true ?_
    rintro rfl
    exact h i rfl

theorem Task.cancel_notMem_of_all {ts : List (Task τ)}
    (h : (ts.all fun t => !t.isCancel i) = true) : .call (.ask i .cancel) ∉ ts := by
  intro hmem
  simpa [isCancel] using List.all_eq_true.mp h _ hmem

/-- The item that a task puts into the queue of the echo `i`. -/
def Task.pushed? (i : Nat) : Task τ → Option Payload
  | .push j item => if j = i then some item else none
  | _ => none

theorem Task.pushed?_eq_none {t : Task τ} (h : ∀ item, t ≠ .push i item) :
    t.pushed? i = none := by
  unfold pushed?
  split
  · rename_i j item
    exact if_neg fun hj => h item (by rw [hj])
  · rfl

theorem Task.grant_eq_zero {t : Task τ} (h : ∀ n, t ≠ .call (.ask i (.request n))) :
    t.grant i = 0 := by
  unfold grant
  split
  · rename_i j n
    exact if_neg fun hj => h n (by rw [hj])
  · rfl

namespace Crew

/-- The items that were pushed into the echo `i` before its peer canceled, in order. -/
def pushed (i : Nat) (c : Crew ι σ τ) : List Payload :=
  (c.done.takeWhile fun t => !t.isCancel i).filterMap (Task.pushed? i)

variable [DecidableEq ι]

/-- What is pushed after the peer has canceled does not count. -/
theorem pushed_work_of_mem {t : Task τ} {rest : List (Task τ)}
    (h : .call (.ask i .cancel) ∈ c.done) : (c.work env k t rest).pushed i = c.pushed i := by
  have hstop : ¬ ∀ t ∈ c.done, (!t.isCancel i) = true := fun hall => by
    simpa [Task.isCancel] using hall _ h
  have hlength : (c.done.takeWhile fun t => !t.isCancel i).length ≠ c.done.length := fun heq =>
    hstop (List.takeWhile_eq_self_iff.mp ((List.takeWhile_prefix _).eq_of_length heq))
  rw [pushed, done_work, List.takeWhile_append, if_neg hlength, pushed]

theorem pushed_work_of_notMem {t : Task τ} {rest : List (Task τ)}
    (h : .call (.ask i .cancel) ∉ c.done) :
    (c.work env k t rest).pushed i = c.pushed i ++ (t.pushed? i).toList := by
  have hall : ∀ t ∈ c.done, (!t.isCancel i) = true := by
    intro t ht
    rw [Bool.not_eq_true', Bool.eq_false_iff]
    intro hcancel
    exact h (Task.isCancel_iff.mp hcancel ▸ ht)
  rw [pushed, done_work, List.takeWhile_append_of_pos hall, List.filterMap_append, pushed,
    List.takeWhile_eq_self_iff.mpr hall]
  congr 1
  by_cases ht : t.isCancel i = true
  · obtain rfl := Task.isCancel_iff.mp ht
    simp [Task.isCancel, Task.pushed?]
  · rw [Bool.not_eq_true] at ht
    cases hp : t.pushed? i <;> simp [ht, hp]

/-- A task of the history is the last one, or it was there before. -/
theorem done_split {t t' : Task τ} {rest before after : List (Task τ)}
    (h : (c.work env k t rest).done = before ++ t' :: after) :
    (after = [] ∧ t' = t ∧ before = c.done) ∨
      ∃ after', after = after' ++ [t] ∧ c.done = before ++ t' :: after' := by
  rw [done_work] at h
  obtain rfl | ⟨after', s, rfl⟩ := List.eq_nil_or_concat after
  · obtain ⟨rfl, hs⟩ := List.append_inj' h rfl
    exact Or.inl ⟨rfl, (List.singleton_inj.mp hs).symm, rfl⟩
  · rw [List.concat_eq_append, ← List.cons_append, ← List.append_assoc] at h
    obtain ⟨hbefore, hs⟩ := List.append_inj' h rfl
    obtain rfl := List.singleton_inj.mp hs
    exact Or.inr ⟨after', List.concat_eq_append, hbefore⟩

end Crew

/-! ## The account of an echo -/

/-- What was pushed before the peer canceled and what the peer has asked for, against what it was
told, the item that is on its way to it, and what the echo holds.  Demand is lost only beyond the
limit. -/
structure Echo.Account (granted : Nat) (pushed told : List Payload) (flight : Option Payload)
    (e : Echo) : Prop where
  isPrefix : told ++ flight.toList ++ e.queue.toList <+: pushed
  eq : e.canceled = false → told ++ flight.toList ++ e.queue.toList = pushed
  le : told.length + flight.toList.length + e.demand ≤ granted
  min_le : min granted Demand.limit ≤ told.length + flight.toList.length + e.demand

namespace Echo

variable {e : Echo} {granted : Nat} {pushed told : List Payload} {flight : Option Payload}

theorem push_of_canceled (h : e.canceled = true) (item : Payload) : e.push item = (e, false) :=
  if_pos h

theorem push_of_not_canceled (h : e.canceled = false) (item : Payload) :
    e.push item = ({ e with queue := e.queue.enqueue item }, true) :=
  if_neg (by rw [h]; exact Bool.false_ne_true)

theorem takeNext_of_canceled (h : e.canceled = true) :
    e.takeNext = ({ e with queue := .empty, draining := false }, none) := by
  unfold takeNext
  rw [if_pos h]
  dsimp only
  split
  · rfl
  · rfl

/-- What is taken is the first item that waits; nothing is taken if none waits, or without
demand. -/
theorem takeNext_of_not_canceled (h : e.canceled = false) :
    (∃ item queue, e.queue.toList = item :: queue.toList ∧ e.demand ≠ 0 ∧
      e.takeNext = ({ e with demand := e.demand - 1, queue := queue }, some item)) ∨
    ((e.queue.toList = [] ∨ e.demand = 0) ∧ e.takeNext = ({ e with draining := false }, none)) := by
  have hc : ¬ e.canceled = true := by rw [h]; exact Bool.false_ne_true
  unfold takeNext
  rw [if_neg hc]
  dsimp only
  by_cases hd : e.demand = 0
  · exact Or.inr ⟨Or.inr hd, by rw [if_pos (by simpa using hd)]⟩
  · rw [if_neg (by simpa using hd)]
    cases hq : e.queue.dequeue? with
    | none => exact Or.inr ⟨Or.inl (Queue.dequeue?_eq_none_iff.mp hq), rfl⟩
    | some first =>
      obtain ⟨item, queue⟩ := first
      exact Or.inl ⟨item, queue, Queue.toList_of_dequeue? hq, hd, rfl⟩

namespace Account

theorem push (h : Account granted pushed told flight e) (item : Payload) :
    Account granted (pushed ++ if e.canceled then [] else [item]) told flight
      (e.push item).1 := by
  by_cases hc : e.canceled = true
  · rw [if_pos hc, List.append_nil, push_of_canceled hc]
    exact h
  · rw [if_neg hc]
    rw [Bool.not_eq_true] at hc
    rw [push_of_not_canceled hc]
    have heq : told ++ flight.toList ++ (e.queue.enqueue item).toList = pushed ++ [item] := by
      rw [Queue.toList_enqueue, ← List.append_assoc, h.eq hc]
    exact ⟨heq ▸ List.prefix_refl _, fun _ => heq, h.le, h.min_le⟩

theorem request (h : Account granted pushed told flight e) (n : Nat) :
    Account (granted + n) pushed told flight (e.request n) where
  isPrefix := h.isPrefix
  eq := h.eq
  le := by
    have hle := h.le
    have hadd := Demand.add_le e.demand n
    show told.length + flight.toList.length + Demand.add e.demand n ≤ granted + n
    omega
  min_le := by
    have hmin := h.min_le
    show min (granted + n) Demand.limit ≤ told.length + flight.toList.length + Demand.add e.demand n
    rw [Demand.add]
    omega

theorem cancel (h : Account granted pushed told flight e) :
    Account granted pushed told flight e.cancel where
  isPrefix := by
    refine List.IsPrefix.trans ?_ h.isPrefix
    exact List.prefix_append_right_inj _ |>.mpr (List.nil_prefix)
  eq hc := by cases hc
  le := h.le
  min_le := h.min_le

theorem beginDrain (h : Account granted pushed told flight e) :
    Account granted pushed told flight e.beginDrain.1 := by
  unfold Echo.beginDrain
  split
  · exact h
  · exact ⟨h.isPrefix, h.eq, h.le, h.min_le⟩

theorem takeNext (h : Account granted pushed told none e) :
    Account granted pushed told e.takeNext.2 e.takeNext.1 := by
  by_cases hc : e.canceled = true
  · rw [takeNext_of_canceled hc]
    refine ⟨?_, fun h => ?_, h.le, h.min_le⟩
    · refine List.IsPrefix.trans ?_ h.isPrefix
      exact List.prefix_append_right_inj _ |>.mpr (List.nil_prefix)
    · exact absurd (hc.symm.trans h) (by decide)
  · rw [Bool.not_eq_true] at hc
    obtain ⟨item, queue, hqueue, hdemand, htake⟩ | ⟨-, htake⟩ := takeNext_of_not_canceled hc
    · have heq : told ++ [item] ++ queue.toList = pushed := by
        rw [← h.eq hc, hqueue]
        simp
      rw [htake]
      have hsum : told.length + (some item).toList.length + (e.demand - 1) =
          told.length + (none : Option Payload).toList.length + e.demand := by
        simp only [Option.toList_none, Option.toList_some, List.length_nil, List.length_singleton]
        omega
      exact ⟨heq ▸ List.prefix_refl _, fun _ => heq, hsum.trans_le h.le, h.min_le.trans_eq hsum.symm⟩
    · rw [htake]
      exact ⟨h.isPrefix, h.eq, h.le, h.min_le⟩

/-- The peer is told the item that is on its way. -/
theorem tell {item : Payload} (h : Account granted pushed told (some item) e) :
    Account granted pushed (told ++ [item]) none e := by
  have hsum : (told ++ [item]).length + (none : Option Payload).toList.length + e.demand =
      told.length + (some item).toList.length + e.demand := by
    simp
  exact ⟨by simpa using h.isPrefix, by simpa using h.eq, hsum.trans_le h.le,
    h.min_le.trans_eq hsum.symm⟩

theorem told_prefix (h : Account granted pushed told flight e) : told <+: pushed :=
  List.IsPrefix.trans (List.append_assoc told _ _ ▸ List.prefix_append ..) h.isPrefix

theorem length_le (h : Account granted pushed told flight e) : told.length ≤ granted := by
  have hle := h.le
  omega

/-- Where nothing can be delivered, all has been delivered that could be. -/
theorem told_eq (h : Account granted pushed told none e) (hc : e.canceled = false)
    (hlimit : min granted pushed.length ≤ Demand.limit)
    (hdrained : e.queue.toList = [] ∨ e.demand = 0) : told = pushed.take granted := by
  have heq := h.eq hc
  have hle := h.le
  have hmin := h.min_le
  rw [Option.toList_none, List.append_nil] at heq
  rw [Option.toList_none, List.length_nil, Nat.add_zero] at hle hmin
  rcases hdrained with hqueue | hdemand
  · rw [hqueue, List.append_nil] at heq
    rw [← heq, List.take_of_length_le (by omega)]
  · have hlength : pushed.length = told.length + e.queue.toList.length := by
      rw [← heq, List.length_append]
    by_cases hall : granted ≤ told.length
    · rw [← heq, List.take_append_of_le_length hall, List.take_of_length_le (by omega)]
    · -- The demand has been used up, so the limit has been reached, and nothing waits.
      have hempty : e.queue.toList = [] := List.eq_nil_of_length_eq_zero (by omega)
      rw [hempty, List.append_nil] at heq
      rw [← heq, List.take_of_length_le (by omega)]

end Account
end Echo

/-! ## The sections of an echo -/

/-- The echo of whose queue a task is a part. -/
def Task.echo? : Task τ → Option Nat
  | .push i _ => some i
  | .drain i => some i
  | .drainNext i => some i
  | _ => none

namespace Consumer

variable {α η φ : Type}

theorem copy_subscribed (h : η) (c : Consumer α η φ) : (c.subscribed h).2.copy = none := by
  unfold subscribed
  split <;> rfl

theorem copy_demand (a : Ask) (c : Consumer α η φ) : (c.demand a).2.copy = none := by
  cases a with
  | cancel =>
    unfold demand cancel
    dsimp only
    split <;> rfl
  | request n =>
    unfold demand request
    dsimp only
    split
    · rfl
    · split <;> rfl

theorem copy_deliver (s : Signal α) (c : Consumer α η φ) :
    (c.deliver s).2.copy =
      if c.isTerminated then none
      else s.item?.bind fun item => c.forward.map fun target => (target, item) := by
  cases s <;> dsimp only [deliver, next, terminate] <;> split <;> rfl

/-- A consumer hands on a copy of each item that it accepts, and of nothing else. -/
theorem copy_perform (c : Consumer α η φ) (op : Operation α η φ) :
    (c.perform op).2.copy =
      if c.isTerminated then none
      else op.item?.bind fun item => c.forward.map fun target => (target, item) := by
  cases op with
  | subscribed h => exact (copy_subscribed h c).trans (ite_self _).symm
  | demand a => exact (copy_demand a c).trans (ite_self _).symm
  | record | setForward => exact (ite_self _).symm
  | deliver s =>
    rw [perform, copy_deliver]
    cases s <;> rfl

end Consumer

namespace Receiver

/-- A use, as an operation of a consumer. -/
def Use.operation : Use → Consumer.Operation Payload Handle Target
  | .offered h => .subscribed h
  | .heard s => .deliver s
  | .demanded a => .demand a

/-- What a use makes of a consumer of payloads. -/
theorem after_payloads (u : Use) (c : Consumer Payload Handle Target) :
    (Receiver.payloads c).after u =
      (.payloads (c.perform u.operation).1, .ofPayloads (c.perform u.operation).2) := by
  cases u <;> rfl

/-- A copy of a payload is handed on when an item is heard. -/
theorem of_copy_after {u : Use} {receiver : Receiver} {target : Target} {item : Payload}
    (h : (receiver.after u).2.copy = some (target, some item)) : u = .heard (.next item) := by
  cases receiver with
  | units c =>
    -- A copy of a unit carries no payload.
    cases u <;> obtain ⟨_, -, heq⟩ := Option.map_eq_some_iff.mp h <;> cases heq
  | payloads c =>
    rw [after_payloads] at h
    obtain ⟨⟨_, item'⟩, hcopy, heq⟩ := Option.map_eq_some_iff.mp h
    cases heq
    rw [Consumer.copy_perform] at hcopy
    split at hcopy
    · cases hcopy
    · obtain ⟨item', hitem, hforward⟩ := Option.bind_eq_some_iff.mp hcopy
      obtain ⟨_, -, heq⟩ := Option.map_eq_some_iff.mp hforward
      cases heq
      cases u with
      | heard s =>
        cases s with
        | next item'' =>
          cases hitem
          rfl
        | complete | error => cases hitem
      | offered | demanded => cases hitem

end Receiver

namespace Exchange

/-- What a task of the echo `i` was left by. -/
inductive EchoOrigin (i : Nat) : Task τ → Task τ → Prop where
  | copied (item : Payload) : EchoOrigin i (.call (.signal i (.next item))) (.push i item)
  | initial (r : Handle) (item : Payload) : EchoOrigin i (.call (.attach i r)) (.push i item)
  | asked (n : Nat) : EchoOrigin i (.call (.ask i (.request n))) (.drain i)
  | pushed (item : Payload) : EchoOrigin i (.push i item) (.drain i)
  | begun : EchoOrigin i (.drain i) (.drainNext i)
  | taken : EchoOrigin i (.drainNext i) (.drainNext i)

theorem of_mem_effectTasks {j : Nat} {effect : Receiver.Effect} {t : Task τ}
    (h : t ∈ effectTasks j effect) (ht : t.echo? = some i) :
    j = i ∧ ∃ item, t = .push i item ∧ effect.copy = some (.echo, some item) := by
  rw [effectTasks, List.mem_append] at h
  rcases h with h | h
  · split at h
    · cases List.mem_singleton.mp h
      cases ht
    · cases h
  · split at h
    · rename_i item hcopy
      cases List.mem_singleton.mp h
      cases ht
      exact ⟨rfl, item, rfl, hcopy⟩
    · cases h
    · cases List.mem_singleton.mp h
      cases ht
    · cases h

theorem EchoOrigin.of_atReceiver {j : Nat} {u : Receiver.Use} {e : Exchange σ} {t t' : Task τ}
    (hu : t.use? = some (j, u)) (h : t' ∈ (e.atReceiver j (Receiver.after u)).2)
    (ht' : t'.echo? = some i) : EchoOrigin i t t' := by
  unfold atReceiver at h
  split at h
  · cases h
  · obtain ⟨rfl, item, rfl, hcopy⟩ := of_mem_effectTasks h ht'
    obtain rfl := Receiver.of_copy_after hcopy
    unfold Task.use? at hu
    split at hu <;> cases hu
    exact .copied item

/-- **Where the tasks of an echo come from.** -/
theorem EchoOrigin.of_mem {e : Exchange σ} {t t' : Task τ} (h : t' ∈ (e.perform env t).2)
    (ht' : t'.echo? = some i) : EchoOrigin i t t' := by
  cases t with
  | call cl =>
    cases cl with
    | subscribed j g => exact .of_atReceiver (u := .offered g) rfl h ht'
    | signal j s => exact .of_atReceiver (u := .heard s) rfl h ht'
    | attach j r =>
      obtain ⟨x, -, ht⟩ := mem_atInteraction h
      obtain ⟨-, rfl | rfl | ⟨item, rfl⟩⟩ := mem_attach ht <;> cases ht'
      exact .initial r item
    | ask j a =>
      obtain ⟨⟨receiver, producer⟩, -, ht⟩ := mem_atInteraction h
      obtain ⟨_, _, -, rfl⟩ | ⟨_, rfl⟩ | ⟨_, rfl⟩ | rfl := mem_askProducer ht <;> cases ht'
      cases a with
      | request n => exact .asked n
      | cancel => cases producer <;> simp [askProducer, askScripted, askEcho] at ht
    | resume step =>
      cases List.mem_singleton.mp h
      cases ht'
    | raise p => cases h
  | tell event =>
    obtain ⟨cl, -, rfl⟩ := List.mem_map.mp h
    cases ht'
  | own j a => exact .of_atReceiver (u := .demanded a) rfl h ht'
  | settle j n =>
    obtain ⟨m, rfl⟩ := mem_perform_settle h
    cases ht'
  | passOn j a => exact absurd h notMem_perform_passOn
  | openGate j r => exact absurd h notMem_perform_openGate
  | push j item =>
    obtain rfl := mem_perform_push h
    cases ht'
    exact .pushed item
  | drain j =>
    obtain rfl := mem_perform_drain h
    cases ht'
    exact .begun
  | drainNext j =>
    obtain ⟨p, -, ht⟩ := mem_atEcho h
    obtain ⟨_, _, -, rfl⟩ | rfl := mem_drainNext ht
    · cases ht'
    · cases ht'
      exact .taken

variable {p : EchoProducer} {e : Exchange σ}

/-- A section of an echo, by what it does to it. -/
theorem atEcho_eq (h : e.producer? i = some (.echo p))
    (f : EchoProducer → EchoProducer × List (Task τ)) :
    (e.atEcho i f).1.producer? i = some (.echo (f p).1) ∧ (e.atEcho i f).2 = (f p).2 := by
  obtain ⟨⟨receiver, producer⟩, hx, rfl⟩ := Option.map_eq_some_iff.mp h
  rw [atEcho, atInteraction_eq hx]
  exact ⟨by rw [producer?, getElem?_put_self hx]; rfl, rfl⟩

/-- A section of a scripted producer leaves an echo as it is. -/
theorem atScripted_of_echo (h : e.producer? i = some (.echo p))
    (f : ScriptedProducer → ScriptedProducer × List (Task τ)) :
    (e.atScripted i f).1.producer? i = some (.echo p) ∧ (e.atScripted i f).2 = [] := by
  obtain ⟨⟨receiver, producer⟩, hx, rfl⟩ := Option.map_eq_some_iff.mp h
  rw [atScripted, atInteraction_eq hx]
  exact ⟨by rw [producer?, getElem?_put_self hx]; rfl, rfl⟩

theorem perform_ask_echo (env : Environment σ τ) (h : e.producer? i = some (.echo p)) (a : Ask) :
    (e.perform env (.call (.ask i a))).1.producer? i =
        some (.echo (askEcho (τ := τ) i a p).1) ∧
      (e.perform env (.call (.ask i a))).2 = (askEcho i a p).2 := by
  obtain ⟨⟨receiver, producer⟩, hx, rfl⟩ := Option.map_eq_some_iff.mp h
  show (e.atInteraction i (askProducer i a)).1.producer? i = _ ∧
    (e.atInteraction i (askProducer i a)).2 = _
  rw [atInteraction_eq hx]
  exact ⟨by rw [producer?, getElem?_put_self hx]; rfl, rfl⟩

/-- An echo with a peer does not take another. -/
theorem perform_attach_echo (env : Environment σ τ) (h : e.producer? i = some (.echo p))
    (hr : p.remote = some r) (r' : Handle) :
    (e.perform env (.call (.attach i r'))).1.producer? i = some (.echo p) ∧
      (e.perform env (.call (.attach i r'))).2 = [] := by
  obtain ⟨⟨receiver, producer⟩, hx, rfl⟩ := Option.map_eq_some_iff.mp h
  have hx' := remote_attach (τ := τ) (x := ⟨receiver, .echo p⟩) i r' hr
  show (e.atInteraction i (attach i r')).1.producer? i = _ ∧
    (e.atInteraction i (attach i r')).2 = _
  rw [atInteraction_eq hx]
  exact ⟨by rw [producer?, getElem?_put_self hx, hx'.1]; rfl, hx'.2⟩

end Exchange

/-- The echo `i` with its peer `r`. -/
def EchoAt (i : Nat) (r : Handle) (e : Echo) (x : Exchange σ) : Prop :=
  ∃ initial, x.producer? i = some (.echo ⟨initial, e, some r⟩)

namespace EchoAt

variable {e : Echo} {x : Exchange σ}

theorem congr {x' : Exchange σ} (h : EchoAt i r e x) (hx : x'.producer? i = x.producer? i) :
    EchoAt i r e x' := by
  obtain ⟨initial, hp⟩ := h
  exact ⟨initial, hx.trans hp⟩

theorem remote? (h : EchoAt i r e x) : x.remote? i = some r := by
  obtain ⟨initial, hp⟩ := h
  rw [Exchange.remote?, hp]
  rfl

variable (env : Environment σ τ) (h : EchoAt i r e x)
include h

theorem request (n : Nat) :
    EchoAt i r (e.request n) (x.perform env (.call (.ask i (.request n)))).1 ∧
      (x.perform env (.call (.ask i (.request n)))).2 = [.drain i] := by
  obtain ⟨initial, hp⟩ := h
  have hask := Exchange.perform_ask_echo env hp (.request n)
  exact ⟨⟨initial, hask.1⟩, hask.2⟩

theorem cancel : EchoAt i r e.cancel (x.perform env (.call (.ask i .cancel))).1 ∧
    (x.perform env (.call (.ask i .cancel))).2 = [] := by
  obtain ⟨initial, hp⟩ := h
  have hask := Exchange.perform_ask_echo env hp .cancel
  exact ⟨⟨initial, hask.1⟩, hask.2⟩

theorem push (item : Payload) : EchoAt i r (e.push item).1 (x.perform env (.push i item)).1 ∧
    (x.perform env (.push i item)).2 = if (e.push item).2 then [.drain i] else [] := by
  obtain ⟨initial, hp⟩ := h
  have hpush := Exchange.atEcho_eq (τ := τ) hp fun p =>
    ({ p with echo := (p.echo.push item).1 }, if (p.echo.push item).2 then [.drain i] else [])
  exact ⟨⟨initial, hpush.1⟩, hpush.2⟩

theorem drain : EchoAt i r e.beginDrain.1 (x.perform env (.drain i)).1 ∧
    (x.perform env (.drain i)).2 = if e.beginDrain.2 then [.drainNext i] else [] := by
  obtain ⟨initial, hp⟩ := h
  have hdrain := Exchange.atEcho_eq (τ := τ) hp fun p =>
    ({ p with echo := p.echo.beginDrain.1 }, if p.echo.beginDrain.2 then [.drainNext i] else [])
  exact ⟨⟨initial, hdrain.1⟩, hdrain.2⟩

/-- An item that is taken is told the peer, and then the next one is taken. -/
theorem drainNext : EchoAt i r e.takeNext.1 (x.perform env (.drainNext i)).1 ∧
    (x.perform env (.drainNext i)).2 =
      match e.takeNext.2 with
      | some item => [.tell (.heard r (.next item)), .drainNext i]
      | none => [] := by
  obtain ⟨initial, hp⟩ := h
  have hnext := Exchange.atEcho_eq (τ := τ) hp (Exchange.drainNext i)
  have hdrain : Exchange.drainNext (τ := τ) i ⟨initial, e, some r⟩ =
      (⟨initial, e.takeNext.1, some r⟩,
        match e.takeNext.2 with
        | some item => [.tell (.heard r (.next item)), .drainNext i]
        | none => []) := by
    unfold Exchange.drainNext
    rcases e.takeNext with ⟨e', _ | item⟩
    · rfl
    · rfl
  rw [hdrain] at hnext
  exact ⟨⟨initial, hnext.1⟩, hnext.2⟩

/-- No other section does anything to an echo. -/
theorem other {t : Task τ} (hi : t.producer? = some i) (hask : ∀ a, t ≠ .call (.ask i a))
    (hpush : ∀ item, t ≠ .push i item) (hdrain : t ≠ .drain i) (hnext : t ≠ .drainNext i) :
    EchoAt i r e (x.perform env t).1 ∧ (x.perform env t).2 = [] := by
  obtain ⟨initial, hp⟩ := h
  have hscripted : ∀ f : ScriptedProducer → ScriptedProducer × List (Task τ),
      x.perform env t = x.atScripted i f →
      EchoAt i r e (x.perform env t).1 ∧ (x.perform env t).2 = [] := by
    intro f hf
    have hsame := Exchange.atScripted_of_echo hp f
    rw [hf]
    exact ⟨⟨initial, hsame.1⟩, hsame.2⟩
  cases t with
  | call cl =>
    cases cl with
    | attach j r' =>
      obtain rfl := Option.some.inj hi
      have hattach := Exchange.perform_attach_echo env hp rfl r'
      exact ⟨⟨initial, hattach.1⟩, hattach.2⟩
    | ask j a =>
      obtain rfl := Option.some.inj hi
      exact absurd rfl (hask a)
    | subscribed | signal | resume | raise => cases hi
  | settle j n =>
    obtain rfl := Option.some.inj hi
    exact hscripted _ rfl
  | passOn j a =>
    obtain rfl := Option.some.inj hi
    exact hscripted _ rfl
  | openGate j r' =>
    obtain rfl := Option.some.inj hi
    exact hscripted _ rfl
  | push j item =>
    obtain rfl := Option.some.inj hi
    exact absurd rfl (hpush item)
  | drain j =>
    obtain rfl := Option.some.inj hi
    exact absurd rfl hdrain
  | drainNext j =>
    obtain rfl := Option.some.inj hi
    exact absurd rfl hnext
  | tell | own => cases hi

end EchoAt

end StreamConformance
