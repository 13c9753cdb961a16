import StreamConformance.Proofs.Channel.EchoQueue
import StreamConformance.Proofs.Consumer.Accounting

/-!
# What an echo channel sends back

When a peer subscribes to the producer of an echo channel, the consumer is told to hand on a copy of
each item to the echo, and the initial payload is put into the queue.  So the peer is told the initial
payload, and then the items that the consumer has accepted since the peer subscribed.  Items that the
consumer had accepted before are never sent back: `mirrors_iff` says that all items are mirrored
exactly if there are none of these.

Copies are put into the queue in the order of the items only if they come one after another: a thread
that has delivered an item may be overtaken by another one before it hands on the copy, and so may the
initial payload.  `Crew.InTurn` says that at most one copy is on its way; where there is one thread
only, this is always so.

* `Exchange.receiver?_perform`: what changes a consumer and where its copies go.
* `Copies.perform`: an item that is accepted is handed on at once.
* `Mirroring`, `Mirroring.step`: what was put into the queue, and the copy that is on its way, are the
  initial payload and the items accepted since.
* `Crew.Along`: a run all of whose states have a property.
-/

namespace StreamConformance

open Crew (Mark)
open Receiver (Use)

variable {ι σ τ : Type} {env : Environment σ τ} {rules : Crew.Rules ι σ τ} {i : Nat} {r : Handle}
  {p0 : Payload} {l m : List Mark} {c d : Crew ι σ τ} {k : ι}

/-! ## What changes a consumer -/

namespace Exchange

/-- The consumer of an interaction. -/
def receiver? (i : Nat) (e : Exchange σ) : Option Receiver :=
  (e.interactions[i]?).map (·.receiver)

/-- The items that the consumer of an interaction has accepted, in order. -/
def values (i : Nat) (e : Exchange σ) : List Payload :=
  match e.receiver? i with
  | some (.payloads consumer) => consumer.values
  | _ => []

theorem receiver?_atInteraction {f : Interaction → Interaction × List (Task τ)}
    (hf : ∀ x : Interaction, (f x).1.receiver = x.receiver) (j : Nat) (e : Exchange σ) :
    (e.atInteraction j f).1.receiver? i = e.receiver? i := by
  by_cases hij : j = i
  · subst hij
    cases hx : e.interactions[j]? with
    | none => rw [atInteraction, hx]
    | some x =>
      rw [atInteraction_eq hx, receiver?, getElem?_put_self hx, receiver?, hx]
      exact congrArg some (hf x)
  · rw [receiver?, getElem?_atInteraction_of_ne hij, receiver?]

theorem receiver?_atScripted (f : ScriptedProducer → ScriptedProducer × List (Task τ)) (j : Nat)
    (e : Exchange σ) : (e.atScripted j f).1.receiver? i = e.receiver? i := by
  refine receiver?_atInteraction (fun x => ?_) j e
  rcases x with ⟨c, _ | p | p | p⟩ <;> rfl

theorem receiver?_atEcho (f : EchoProducer → EchoProducer × List (Task τ)) (j : Nat)
    (e : Exchange σ) : (e.atEcho j f).1.receiver? i = e.receiver? i := by
  refine receiver?_atInteraction (fun x => ?_) j e
  rcases x with ⟨c, _ | p | p | p⟩ <;> rfl

theorem receiver?_atReceiver_of_ne {j : Nat} (h : j ≠ i)
    (f : Receiver → Receiver × Receiver.Effect) (e : Exchange σ) :
    (e.atReceiver (τ := τ) j f).1.receiver? i = e.receiver? i := by
  unfold atReceiver
  split
  · rfl
  · rw [receiver?, getElem?_put_of_ne h, receiver?]

/-- A section of a consumer that is there. -/
theorem atReceiver_eq {e : Exchange σ} {receiver : Receiver} (h : e.receiver? i = some receiver)
    (f : Receiver → Receiver × Receiver.Effect) :
    (e.atReceiver (τ := τ) i f).1.receiver? i = some (f receiver).1 ∧
      (e.atReceiver (τ := τ) i f).2 = effectTasks i (f receiver).2 := by
  obtain ⟨x, hx, rfl⟩ := Option.map_eq_some_iff.mp h
  rw [atReceiver, hx]
  exact ⟨by rw [receiver?, getElem?_put_self hx]; rfl, rfl⟩

/-- **What is no use of a consumer leaves it as it is**, except that the peer's subscription may have
it hand on copies. -/
theorem receiver?_perform (env : Environment σ τ) {t : Task τ} (h : ∀ u, t.use? ≠ some (i, u))
    (hattach : ∀ r, t ≠ .call (.attach i r)) (e : Exchange σ) :
    (e.perform env t).1.receiver? i = e.receiver? i := by
  have hne : ∀ {j u}, some (j, u) = t.use? → j ≠ i := by
    rintro j u hu rfl
    exact h u hu.symm
  cases t with
  | call cl =>
    cases cl with
    | subscribed j g => exact receiver?_atReceiver_of_ne (hne rfl) _ e
    | signal j s => exact receiver?_atReceiver_of_ne (hne rfl) _ e
    | attach j r =>
      have hj : j ≠ i := fun hj => hattach r (by rw [hj])
      rw [receiver?, receiver?]
      exact congrArg (Option.map _) (getElem?_atInteraction_of_ne hj ..)
    | ask j a =>
      refine receiver?_atInteraction (fun x => ?_) j e
      rcases x with ⟨c, _ | p | p | p⟩ <;> rfl
    | resume | raise => rfl
  | tell event => rfl
  | own j a => exact receiver?_atReceiver_of_ne (hne rfl) _ e
  | settle | passOn | openGate => exact receiver?_atScripted _ _ _
  | push | drain | drainNext => exact receiver?_atEcho _ _ _

/-- A producer with a peer does not take another, and its consumer stays as it is. -/
theorem receiver?_perform_attach (env : Environment σ τ) {e : Exchange σ}
    (h : e.remote? i = some r) (r' : Handle) :
    (e.perform env (.call (.attach i r'))).1.receiver? i = e.receiver? i ∧
      (e.perform env (.call (.attach i r'))).2 = [] := by
  obtain ⟨producer, hp, hr⟩ := Option.bind_eq_some_iff.mp h
  obtain ⟨x, hx, rfl⟩ := Option.map_eq_some_iff.mp hp
  obtain ⟨hx', hnew⟩ := remote_attach (τ := τ) i r' hr
  show (e.atInteraction i (attach i r')).1.receiver? i = _ ∧
    (e.atInteraction i (attach i r')).2 = _
  rw [atInteraction_eq hx]
  exact ⟨by rw [receiver?, getElem?_put_self hx, hx', receiver?, hx], hnew⟩

/-- The peer subscribes to the producer of an echo channel. -/
theorem perform_attach_echo_of_fresh (env : Environment σ τ) {e : Exchange σ} {receiver : Receiver}
    (hreceiver : e.receiver? i = some receiver)
    (hproducer : e.producer? i = some (.echo { initial := p0 })) (r : Handle) :
    (e.perform env (.call (.attach i r))).1.receiver? i =
        some (receiver.modify (Consumer.setForward .echo)) ∧
      EchoAt i r {} (e.perform env (.call (.attach i r))).1 ∧
      (e.perform env (.call (.attach i r))).2 = [.push i p0, .tell (.attached r i)] := by
  obtain ⟨⟨receiver, producer⟩, hx, rfl⟩ := Option.map_eq_some_iff.mp hreceiver
  obtain rfl : producer = .echo { initial := p0 } := by
    rw [producer?, hx] at hproducer
    exact Option.some.inj hproducer
  show (e.atInteraction i (attach i r)).1.receiver? i = _ ∧
    EchoAt i r {} (e.atInteraction i (attach i r)).1 ∧ (e.atInteraction i (attach i r)).2 = _
  rw [atInteraction_eq hx]
  exact ⟨by rw [receiver?, getElem?_put_self hx]; rfl,
    ⟨p0, by rw [producer?, getElem?_put_self hx]; rfl⟩, rfl⟩

end Exchange

/-! ## Copies -/

theorem Consumer.Becomes.forward_eq {α η φ : Type} {c c' : Consumer α η φ} {op : Operation α η φ}
    {a : Option (η × Ask)} (h : Becomes c op c' a) (hop : ∀ target, op ≠ .setForward target) :
    c'.forward = c.forward := by
  cases h with
  | forwarded target => exact absurd rfl (hop target)
  | late | tooLate | taken | completed | failed | canceled | nothing | asked | held | accepted
  | turnedDown | recorded => rfl

theorem Consumer.Becomes.ask_eq_none {α η φ : Type} {c c' : Consumer α η φ} {op : Operation α η φ}
    {a : Option (η × Ask)} {item : α} (h : Becomes c op c' a) (hop : op.item? = some item) :
    a = none := by
  cases h with
  | late | taken | completed | failed => rfl
  | tooLate | canceled | nothing | asked | held | accepted | turnedDown | recorded | forwarded =>
    cases hop

/-- A consumer that hands on copies to the echo hands on each item that it accepts, at once. -/
theorem Receiver.after_of_forward {consumer : Consumer Payload Handle Target}
    (hf : consumer.forward = some .echo) (u : Use) :
    ∃ consumer' : Consumer Payload Handle Target, ∃ more : Option Payload,
      ((Receiver.payloads consumer).after u).1 = .payloads consumer' ∧
      consumer'.forward = some .echo ∧ consumer'.values = consumer.values ++ more.toList ∧
      (∀ item, more = some item →
        Exchange.effectTasks (τ := τ) i ((Receiver.payloads consumer).after u).2 =
          [.push i item]) ∧
      ∀ item, .push i item ∈
        Exchange.effectTasks (τ := τ) i ((Receiver.payloads consumer).after u).2 →
          more = some item := by
  have hb := Consumer.becomes_perform consumer u.operation
  have hforward := (hb.forward_eq fun target => by cases u <;> simp [Use.operation]).trans hf
  have hcopy := Consumer.copy_perform consumer u.operation
  rw [after_payloads]
  by_cases hterm : consumer.terminal = none
  · rw [Consumer.isTerminated_eq_false.mpr hterm, if_neg Bool.false_ne_true, hf] at hcopy
    refine ⟨_, u.operation.item?, rfl, hforward, hb.values_eq hterm, fun item hitem => ?_,
      fun item hmem => ?_⟩
    · rw [hitem] at hcopy
      simp only [Effect.ofPayloads, Exchange.effectTasks, hb.ask_eq_none hitem, hcopy]
      rfl
    · obtain ⟨-, _, heq, hcopied⟩ := Exchange.of_mem_effectTasks hmem rfl
      cases heq
      rw [Effect.ofPayloads, hcopy] at hcopied
      cases hitem : u.operation.item? with
      | none =>
        rw [hitem] at hcopied
        cases hcopied
      | some item' =>
        rw [hitem] at hcopied
        cases hcopied
        rfl
  · rw [Consumer.isTerminated_eq_true.mpr hterm, if_pos rfl] at hcopy
    refine ⟨_, none, rfl, hforward, ?_, fun _ h => (by cases h), fun item hmem => ?_⟩
    · rw [(hb.frozen hterm).2.1]
      exact (List.append_nil _).symm
    · obtain ⟨-, _, -, hcopied⟩ := Exchange.of_mem_effectTasks hmem rfl
      rw [Effect.ofPayloads, hcopy] at hcopied
      cases hcopied

/-- The consumer of the interaction `i` hands on copies to the echo, and these are the items that it
has accepted. -/
def Copies (i : Nat) (values : List Payload) (e : Exchange σ) : Prop :=
  ∃ consumer : Consumer Payload Handle Target, e.receiver? i = some (.payloads consumer) ∧
    consumer.forward = some .echo ∧ consumer.values = values

namespace Copies

variable {values : List Payload} {e : Exchange σ}

theorem values_eq (h : Copies i values e) : e.values i = values := by
  obtain ⟨consumer, hreceiver, -, rfl⟩ := h
  rw [Exchange.values, hreceiver]

theorem congr {e' : Exchange σ} (h : Copies i values e) (he : e'.receiver? i = e.receiver? i) :
    Copies i values e' := by
  obtain ⟨consumer, hreceiver, hrest⟩ := h
  exact ⟨consumer, he.trans hreceiver, hrest⟩

/-- **An item that is accepted is handed on at once**, and nothing else is. -/
theorem perform (env : Environment σ τ) (h : Copies i values e) (hr : e.remote? i = some r)
    (t : Task τ) :
    ∃ more : Option Payload, Copies i (values ++ more.toList) (e.perform env t).1 ∧
      (∀ item, more = some item → (e.perform env t).2 = [.push i item]) ∧
      ∀ item, .push i item ∈ (e.perform env t).2 → more = some item := by
  by_cases hu : ∃ u, t.use? = some (i, u)
  · obtain ⟨u, hu⟩ := hu
    obtain ⟨consumer, hreceiver, hf, rfl⟩ := h
    obtain ⟨consumer', more, hafter, hf', hvalues, hpush, hmore⟩ :=
      Receiver.after_of_forward (τ := τ) (i := i) hf u
    obtain ⟨hreceiver', hnew⟩ := Exchange.atReceiver_eq (τ := τ) hreceiver (Receiver.after u)
    rw [Exchange.perform_eq_of_use? env hu, hnew]
    exact ⟨more, ⟨consumer', hreceiver'.trans (congrArg some hafter), hf', hvalues⟩, hpush, hmore⟩
  · refine ⟨none, ?_, fun _ h => (by cases h), fun item hmem => ?_⟩
    · rw [Option.toList_none, List.append_nil]
      by_cases hattach : ∃ r', t = .call (.attach i r')
      · obtain ⟨r', rfl⟩ := hattach
        exact h.congr (Exchange.receiver?_perform_attach env hr r').1
      · exact h.congr (Exchange.receiver?_perform env (fun u h => hu ⟨u, h⟩)
          (fun r' h => hattach ⟨r', h⟩) e)
    · have horigin := Exchange.EchoOrigin.of_mem hmem rfl
      cases horigin with
      | copied => exact absurd ⟨_, rfl⟩ hu
      | initial r' =>
        rw [(Exchange.receiver?_perform_attach env hr r').2] at hmem
        cases hmem

end Copies

/-! ## Copies in turn -/

namespace Crew

/-- At most one thread is about to put an item into the queue of the echo `i`. -/
def InTurn (i : Nat) (c : Crew ι σ τ) : Prop :=
  ∀ ⦃k k' item item'⦄, .push i item ∈ c.stack k → .push i item' ∈ c.stack k' → k' = k

/-- Where there is one thread only, copies come in turn. -/
theorem inTurn_of_subsingleton [Subsingleton ι] (i : Nat) (c : Crew ι σ τ) : c.InTurn i :=
  fun _ _ _ _ _ _ => Subsingleton.elim _ _

variable [DecidableEq ι]

/-- A run all of whose states have the property `P`, and the record about the interaction `i`. -/
inductive Along (P : Crew ι σ τ → Prop) (env : Environment σ τ) (rules : Rules ι σ τ) (i : Nat)
    (c : Crew ι σ τ) : List Mark → Crew ι σ τ → Prop where
  | refl (hc : P c) : Along P env rules i c [] c
  | tail {l m : List Mark} {d e : Crew ι σ τ} (h : Along P env rules i c l d)
      (hstep : Leaves env rules i d m e) (he : P e) : Along P env rules i c (l ++ m) e

variable {P : Crew ι σ τ → Prop}

theorem Along.holds (h : Along P env rules i c l d) : P d := by
  cases h with
  | refl hc => exact hc
  | tail _ _ he => exact he

theorem Along.recorded (h : Along P env rules i c l d) : Recorded env rules i c l d := by
  induction h with
  | refl => exact .refl
  | tail _ hstep _ ih => exact ih.tail hstep

theorem Recorded.along (h : Recorded env rules i c l d) (hP : ∀ c, P c) :
    Along P env rules i c l d := by
  induction h with
  | refl => exact .refl (hP c)
  | tail _ hstep ih => exact ih.tail hstep (hP _)

end Crew

/-- Where a run is in which copies come in turn: `since` was accepted since the peer subscribed, and
the copy `way` is on its way into the queue. -/
structure Mirroring (i : Nat) (p0 : Payload) (before since : List Payload) (way : Option Payload)
    (c : Crew ι σ τ) : Prop where
  copies : Copies i (before ++ since) c.exchange
  pushed : c.pushed i ++ way.toList = p0 :: since
  pending : ∀ item, c.Pending (.push i item) ↔ way = some item
  /-- A copy is what its thread does next. -/
  front : ∀ {k front rest item}, c.stack k = front ++ .push i item :: rest → front = []

/-- An entry that is not in the tail of a list is its head. -/
theorem eq_nil_of_notMem_tail {α : Type} {a x : α} {tail front behind : List α}
    (h : a :: tail = front ++ x :: behind) (hx : x ∉ tail) : front = [] := by
  cases front with
  | nil => rfl
  | cons b front =>
    have htail : tail = front ++ x :: behind := (List.cons.inj h).2
    exact absurd (htail ▸ List.mem_append_right _ List.mem_cons_self) hx

namespace Mirroring

variable {before since : List Payload} {way : Option Payload} {t : Task τ} {rest ts : List (Task τ)}

theorem notMem_rest (h : Mirroring i p0 before since way c) (hk : c.stack k = t :: rest)
    (item : Payload) : .push i item ∉ rest := by
  intro hmem
  obtain ⟨front, behind, rfl⟩ := List.append_of_mem hmem
  rw [← List.cons_append] at hk
  cases h.front hk

variable [DecidableEq ι]

/-- A thread without a copy goes on with other tasks. -/
theorem turn (h : Mirroring i p0 before since way c) {x : Exchange σ}
    (hk : ∀ item, .push i item ∉ c.stack k) (hts : ∀ item, .push i item ∉ ts)
    (hx : Copies i (before ++ since) x) : Mirroring i p0 before since way (c.turn k ts x) where
  copies := hx
  pushed := h.pushed
  pending item := by
    rw [← h.pending item]
    constructor
    · rintro ⟨k', hmem⟩
      by_cases hkk : k' = k
      · subst hkk
        rw [Crew.stack_turn_self] at hmem
        exact absurd hmem (hts item)
      · rw [Crew.stack_turn_of_ne _ _ _ hkk] at hmem
        exact ⟨k', hmem⟩
    · rintro ⟨k', hmem⟩
      have hkk : k' ≠ k := by
        rintro rfl
        exact hk item hmem
      exact ⟨k', by rwa [Crew.stack_turn_of_ne _ _ _ hkk]⟩
  front {k' front rest item} hstack := by
    by_cases hkk : k' = k
    · subst hkk
      rw [Crew.stack_turn_self] at hstack
      exact absurd (hstack ▸ List.mem_append_right _ List.mem_cons_self) (hts item)
    · rw [Crew.stack_turn_of_ne _ _ _ hkk] at hstack
      exact h.front hstack

/-- Copies that are on their way after a task are new, or of another thread. -/
theorem pending_work (h : Mirroring i p0 before since way c) (hk : c.stack k = t :: rest)
    (item : Payload) :
    (c.work env k t rest).Pending (.push i item) ↔
      .push i item ∈ (c.exchange.perform env t).2 ∨
        ∃ k', k' ≠ k ∧ .push i item ∈ c.stack k' := by
  constructor
  · rintro ⟨k', hmem⟩
    by_cases hkk : k' = k
    · subst hkk
      rw [Crew.stack_work_self, List.mem_append] at hmem
      exact Or.inl (hmem.resolve_right (h.notMem_rest hk item))
    · rw [Crew.stack_work_of_ne _ _ _ _ hkk] at hmem
      exact Or.inr ⟨k', hkk, hmem⟩
  · rintro (hmem | ⟨k', hkk, hmem⟩)
    · exact ⟨k, by rw [Crew.stack_work_self]; exact List.mem_append_left _ hmem⟩
    · exact ⟨k', by rwa [Crew.stack_work_of_ne _ _ _ _ hkk]⟩

theorem front_work (h : Mirroring i p0 before since way c) (hk : c.stack k = t :: rest)
    (hnew : ∀ item, .push i item ∈ (c.exchange.perform env t).2 →
      (c.exchange.perform env t).2 = [.push i item]) {k' : ι} {front behind : List (Task τ)}
    {item : Payload} (hstack : (c.work env k t rest).stack k' = front ++ .push i item :: behind) :
    front = [] := by
  by_cases hkk : k' = k
  · subst hkk
    rw [Crew.stack_work_self] at hstack
    have hmem : .push i item ∈ (c.exchange.perform env t).2 ++ rest := by
      rw [hstack]
      exact List.mem_append_right _ List.mem_cons_self
    have hmem := (List.mem_append.mp hmem).resolve_right (h.notMem_rest hk item)
    rw [hnew item hmem] at hstack
    exact eq_nil_of_notMem_tail hstack (h.notMem_rest hk item)
  · rw [Crew.stack_work_of_ne _ _ _ _ hkk] at hstack
    exact h.front hstack

/-- A copy is put into the queue, and it was the only one on its way. -/
theorem work_push (h : Mirroring i p0 before since way c) (hr : c.exchange.remote? i = some r)
    {item : Payload} (hk : c.stack k = .push i item :: rest) (hc : c.InTurn i)
    (hcancel : .call (.ask i .cancel) ∉ c.done) :
    Mirroring i p0 before since none (c.work env k (.push i item) rest) := by
  have hnone (item' : Payload) : .push i item' ∉ (c.exchange.perform env (.push i item)).2 :=
    fun hmem => by cases Exchange.mem_perform_push hmem
  have hmem : .push i item ∈ c.stack k := by simp [hk]
  obtain rfl := (h.pending item).mp ⟨k, hmem⟩
  obtain ⟨more, hcopies, hpush, -⟩ := h.copies.perform env hr (.push i item)
  obtain rfl : more = none := by
    cases more with
    | none => rfl
    | some item' => exact absurd (by simp [hpush item' rfl]) (hnone item')
  have hpushed : (c.work env k (.push i item) rest).pushed i = c.pushed i ++ [item] := by
    rw [Crew.pushed_work_of_notMem hcancel]
    simp [Task.pushed?]
  refine ⟨by simpa using hcopies, ?_, fun item' => iff_of_false ?_ (by simp),
    h.front_work hk fun item' hmem' => absurd hmem' (hnone item')⟩
  · rw [hpushed, Option.toList_none, List.append_nil, ← h.pushed, Option.toList_some]
  · rw [h.pending_work hk]
    rintro (hnew | ⟨k', hkk, hmem'⟩)
    · exact hnone item' hnew
    · exact hkk (hc hmem hmem')

/-- A task of a thread without a copy: a copy that it makes is the only one. -/
theorem work_of_ne (h : Mirroring i p0 before since way c) (hr : c.exchange.remote? i = some r)
    (hk : c.stack k = t :: rest) (ht : ∀ item, t ≠ .push i item)
    (hd : (c.work env k t rest).InTurn i) (hcancel : .call (.ask i .cancel) ∉ c.done) :
    ∃ since' way', Mirroring i p0 before since' way' (c.work env k t rest) := by
  have hstack (item : Payload) : .push i item ∉ c.stack k := by
    rw [hk, List.mem_cons, not_or]
    exact ⟨fun heq => ht item heq.symm, h.notMem_rest hk item⟩
  have hothers (item : Payload) :
      (∃ k', k' ≠ k ∧ .push i item ∈ c.stack k') ↔ way = some item := by
    rw [← h.pending item]
    constructor
    · rintro ⟨k', -, hmem⟩
      exact ⟨k', hmem⟩
    · rintro ⟨k', hmem⟩
      refine ⟨k', ?_, hmem⟩
      rintro rfl
      exact hstack item hmem
  have hpushed : (c.work env k t rest).pushed i = c.pushed i := by
    rw [Crew.pushed_work_of_notMem hcancel, Task.pushed?_eq_none ht, Option.toList_none,
      List.append_nil]
  obtain ⟨more, hcopies, hpush, hmore⟩ := h.copies.perform env hr t
  have hfront {k' : ι} {front behind : List (Task τ)} {item : Payload}
      (hstack : (c.work env k t rest).stack k' = front ++ .push i item :: behind) : front = [] :=
    h.front_work hk (fun item hmem => hpush item (hmore item hmem)) hstack
  cases more with
  | none =>
    refine ⟨since, way, by simpa using hcopies, hpushed ▸ h.pushed, fun item => ?_, hfront⟩
    rw [h.pending_work hk, hothers]
    exact or_iff_right fun hmem => by cases hmore item hmem
  | some item =>
    have hnew := hpush item rfl
    obtain rfl : way = none := by
      by_contra hway
      obtain ⟨item', hway⟩ := Option.ne_none_iff_exists'.mp hway
      obtain ⟨k', hkk, hmem⟩ := (hothers item').mpr hway
      have hmem' : .push i item ∈ (c.work env k t rest).stack k := by simp [hnew]
      rw [← Crew.stack_work_of_ne env t rest c hkk] at hmem
      exact hkk (hd hmem' hmem)
    refine ⟨since ++ [item], some item, ?_, ?_, fun item' => ?_, hfront⟩
    · rw [← List.append_assoc]
      exact hcopies
    · have hsame := h.pushed
      rw [Option.toList_none, List.append_nil] at hsame
      rw [hpushed, hsame]
      rfl
    · rw [h.pending_work hk, hothers, hnew]
      simp [eq_comm]

/-- A task is performed. -/
theorem work (h : Mirroring i p0 before since way c) (hr : c.exchange.remote? i = some r)
    (hk : c.stack k = t :: rest) (hc : c.InTurn i) (hd : (c.work env k t rest).InTurn i)
    (hcancel : .call (.ask i .cancel) ∉ c.done) :
    ∃ since' way', Mirroring i p0 before since' way' (c.work env k t rest) := by
  by_cases ht : ∃ item, t = .push i item
  · obtain ⟨item, rfl⟩ := ht
    exact ⟨since, none, h.work_push hr hk hc hcancel⟩
  · exact h.work_of_ne hr hk (fun item hitem => ht ⟨item, hitem⟩) hd hcancel

/-- **Every step keeps what was put into the queue in the order of the items**, if copies come in
turn. -/
theorem step (h : Mirroring i p0 before since way c) (hr : c.exchange.remote? i = some r)
    (hstep : Crew.Leaves env rules i c m d) (hc : c.InTurn i) (hd : d.InTurn i)
    (hcancel : .call (.ask i .cancel) ∉ c.done) :
    ∃ since' way', Mirroring i p0 before since' way' d := by
  cases hstep with
  | work hk ht => exact h.work hr hk hc hd hcancel
  | @panic k p rest hk =>
    refine ⟨since, way, h.turn (fun item hmem => ?_) (by simp) h.copies⟩
    rw [hk, List.mem_cons] at hmem
    obtain hmem | hmem := hmem
    · cases hmem
    · exact h.notMem_rest hk item hmem
  | @start k e ts hk hstart =>
    have hx : Copies i (before ++ since) e := by
      obtain ⟨consumer, hreceiver, hrest⟩ := h.copies
      obtain ⟨x, hx, heq⟩ := Option.map_eq_some_iff.mp hreceiver
      exact ⟨consumer, by rw [Exchange.receiver?, rules.keeps hstart hx, ← heq]; rfl, hrest⟩
    refine ⟨since, way, h.turn (by simp [hk]) (fun item hmem => ?_) hx⟩
    cases rules.outer hstart _ hmem
  | emit hk hemit hp hs =>
    refine ⟨since, way, h.turn (by simp [hk]) (fun item hmem => ?_)
      (h.copies.congr (Exchange.receiver?_atScripted _ _ _))⟩
    simp [Exchange.send] at hmem

theorem of_along (hrun : Crew.Along (Crew.InTurn i) env rules i c l d)
    (hr : c.exchange.remote? i = some r) (hcancel : .call (.ask i .cancel) ∉ d.done)
    (h : Mirroring i p0 before since way c) :
    d.exchange.remote? i = some r ∧ ∃ since' way', Mirroring i p0 before since' way' d := by
  induction hrun with
  | refl => exact ⟨hr, since, way, h⟩
  | tail hrun hstep hd ih =>
    have hcancel' := fun hmem => hcancel ((Crew.isPrefix_done hstep.step).subset hmem)
    obtain ⟨hr', since', way', h'⟩ := ih hcancel'
    exact ⟨Crew.remote?_step hstep.step hr', h'.step hr' hstep hrun.holds hd hcancel'⟩

end Mirroring

/-! ## What is mirrored -/

/-- Nothing is on its way through the echo `i`. -/
structure Crew.Settled (i : Nat) (c : Crew ι σ τ) : Prop where
  push : ∀ item, ¬ c.Pending (.push i item)
  drain : ¬ c.Pending (.drain i)
  drainNext : ¬ c.Pending (.drainNext i)

/-- The peer `r` is told the initial payload and all items that the consumer has accepted, in order,
as far as its demand goes. -/
structure Mirrors (i : Nat) (r : Handle) (p0 : Payload) (c : Crew ι σ τ) : Prop where
  isPrefix : c.items r <+: p0 :: c.exchange.values i
  complete : c.Settled i → (p0 :: c.exchange.values i).length ≤ c.granted i →
    (p0 :: c.exchange.values i).length ≤ Demand.limit → c.items r = p0 :: c.exchange.values i

/-- A peer is about to subscribe with the receiver `r` to the producer of the echo channel `i`, which
nobody has used so far. -/
structure Subscribing (i : Nat) (r : Handle) (p0 : Payload) (k : ι) (rest : List (Task τ))
    (c : Crew ι σ τ) : Prop where
  receiver : ∃ consumer, c.exchange.receiver? i = some (.payloads consumer)
  producer : c.exchange.producer? i = some (.echo { initial := p0 })
  head : c.stack k = .call (.attach i r) :: rest
  stack : ∀ k, ∀ t ∈ c.stack k, Apart i r t ∧ ∀ item, t ≠ .push i item
  done : ∀ t ∈ c.done, (∀ s, t ≠ .tell (.heard r s)) ∧ (∀ a, t ≠ .call (.ask i a)) ∧
    ∀ item, t ≠ .push i item

variable [DecidableEq ι] {rest : List (Task τ)}

namespace Subscribing

theorem justEchoing (h : Subscribing i r p0 k rest c) :
    JustEchoing i r (c.work env k (.call (.attach i r)) rest) := by
  obtain ⟨consumer, hreceiver⟩ := h.receiver
  obtain ⟨-, hproducer, hnew⟩ :=
    Exchange.perform_attach_echo_of_fresh env hreceiver h.producer r
  refine ⟨hproducer, fun k' t ht => ?_, fun t ht => ?_⟩
  · by_cases hkk : k' = k
    · subst hkk
      rw [Crew.stack_work_self, hnew] at ht
      simp only [List.cons_append, List.nil_append, List.mem_cons] at ht
      obtain rfl | rfl | ht := ht
      · exact ⟨by simp, by simp⟩
      · exact ⟨by simp, by simp⟩
      · exact (h.stack k' t (h.head ▸ List.mem_cons_of_mem _ ht)).1
    · rw [Crew.stack_work_of_ne _ _ _ _ hkk] at ht
      exact (h.stack k' t ht).1
  · rw [Crew.done_work, List.mem_append, List.mem_singleton] at ht
    obtain ht | rfl := ht
    · exact h.done t ht
    · exact ⟨by simp, by simp, by simp⟩

theorem mirroring (h : Subscribing i r p0 k rest c) :
    Mirroring i p0 (c.exchange.values i) [] (some p0)
      (c.work env k (.call (.attach i r)) rest) := by
  obtain ⟨consumer, hreceiver⟩ := h.receiver
  obtain ⟨hreceiver', -, hnew⟩ :=
    Exchange.perform_attach_echo_of_fresh env hreceiver h.producer r
  have hothers (k' : ι) (item : Payload) : .push i item ∉ c.stack k' := fun hmem =>
    (h.stack k' _ hmem).2 item rfl
  have hrest (item : Payload) : .push i item ∉ rest := fun hmem =>
    hothers k item (h.head ▸ List.mem_cons_of_mem _ hmem)
  refine ⟨?_, ?_, fun item => ?_, ?_⟩
  · rw [List.append_nil]
    refine ⟨consumer.setForward .echo, hreceiver', rfl, ?_⟩
    rw [Exchange.values, hreceiver]
    rfl
  · have hpushed : c.pushed i = [] := List.filterMap_eq_nil_iff.mpr fun t ht =>
      Task.pushed?_eq_none (h.done t ((List.takeWhile_prefix _).subset ht)).2.2
    have hcancel : .call (.ask i .cancel) ∉ c.done := fun hmem => (h.done _ hmem).2.1 _ rfl
    rw [Crew.pushed_work_of_notMem hcancel, hpushed]
    rfl
  · constructor
    · rintro ⟨k', hmem⟩
      by_cases hkk : k' = k
      · subst hkk
        rw [Crew.stack_work_self, hnew] at hmem
        simp only [List.cons_append, List.nil_append, List.mem_cons] at hmem
        obtain hmem | hmem | hmem := hmem
        · cases hmem
          rfl
        · cases hmem
        · exact absurd hmem (hrest item)
      · rw [Crew.stack_work_of_ne _ _ _ _ hkk] at hmem
        exact absurd hmem (hothers k' item)
    · rintro hitem
      cases hitem
      exact ⟨k, by rw [Crew.stack_work_self, hnew]; exact List.mem_cons_self⟩
  · intro k' front behind item hstack
    by_cases hkk : k' = k
    · subst hkk
      rw [Crew.stack_work_self, hnew] at hstack
      refine eq_nil_of_notMem_tail hstack fun hmem => ?_
      exact hrest item ((List.mem_cons.mp hmem).resolve_left (by simp))
    · rw [Crew.stack_work_of_ne _ _ _ _ hkk] at hstack
      exact absurd (hstack ▸ List.mem_append_right _ List.mem_cons_self) (hothers k' item)

end Subscribing

/-- **What an echo channel mirrors**, for every interleaving and every nesting of the peer's calls in
which copies come in turn, as long as the peer does not cancel.  The peer is told the initial payload
and then the items that the consumer has accepted since the peer subscribed, in order, and all of them
once its demand covers them and nothing is on its way.  So all items are mirrored if the consumer had
accepted none before; and if its demand covers all items, only then. -/
theorem mirrors_iff (hstart : Subscribing i r p0 k rest c)
    (hrun : Crew.Along (Crew.InTurn i) env rules i (c.work env k (.call (.attach i r)) rest) l d)
    (hsole : d.exchange.SoleReceiver r i) (hcancel : .call (.ask i .cancel) ∉ d.done) :
    (∃ since, d.exchange.values i = c.exchange.values i ++ since ∧ d.items r <+: p0 :: since ∧
      (.panicked ∉ l → d.Settled i → (p0 :: since).length ≤ d.granted i →
        (p0 :: since).length ≤ Demand.limit → d.items r = p0 :: since)) ∧
    (c.exchange.values i = [] → .panicked ∉ l → Mirrors i r p0 d) ∧
    (.panicked ∉ l → d.Settled i → (p0 :: d.exchange.values i).length ≤ d.granted i →
      (p0 :: d.exchange.values i).length ≤ Demand.limit →
      (Mirrors i r p0 d ↔ c.exchange.values i = [])) := by
  obtain ⟨_, _, hecho⟩ := Echoing.of_recorded hrun.recorded hsole hstart.justEchoing.echoing
  obtain ⟨-, since, way, hmirror⟩ := Mirroring.of_along hrun (hstart.justEchoing.producer.remote?)
    hcancel hstart.mirroring
  have hvalues : d.exchange.values i = c.exchange.values i ++ since := hmirror.copies.values_eq
  have hitems : d.items r <+: p0 :: since := by
    rw [← hmirror.pushed]
    exact hecho.account.told_prefix.trans (List.prefix_append ..)
  have hall (hcalm : .panicked ∉ l) (hsettled : d.Settled i)
      (hcovers : (p0 :: since).length ≤ d.granted i)
      (hlimit : (p0 :: since).length ≤ Demand.limit) : d.items r = p0 :: since := by
    obtain rfl : way = none := by
      by_contra hway
      obtain ⟨item, hitem⟩ := Option.ne_none_iff_exists'.mp hway
      exact hsettled.push item ((hmirror.pending item).mpr hitem)
    have hpushed : d.pushed i = p0 :: since := by
      rw [← hmirror.pushed, Option.toList_none, List.append_nil]
    have hmin : min (d.granted i) (d.pushed i).length ≤ Demand.limit :=
      (Nat.min_le_right ..).trans (hpushed ▸ hlimit)
    rw [hecho.items_eq hcancel hcalm hmin hsettled.drain hsettled.drainNext, hpushed,
      List.take_of_length_le hcovers]
  have hmirrors (hnone : c.exchange.values i = []) (hcalm : .panicked ∉ l) : Mirrors i r p0 d := by
    rw [hnone, List.nil_append] at hvalues
    exact ⟨hvalues ▸ hitems, fun hsettled hcovers hlimit => by
      rw [hvalues] at hcovers hlimit ⊢
      exact hall hcalm hsettled hcovers hlimit⟩
  refine ⟨⟨since, hvalues, hitems, hall⟩, hmirrors, fun hcalm hsettled hcovers hlimit =>
    ⟨fun h => ?_, fun hnone => hmirrors hnone hcalm⟩⟩
  -- What is told is too short if anything was accepted before.
  have hlength : since.length ≤ (d.exchange.values i).length := by
    rw [hvalues, List.length_append]
    omega
  have hsince := hall hcalm hsettled
    (by rw [List.length_cons] at hcovers ⊢; omega) (by rw [List.length_cons] at hlimit ⊢; omega)
  rw [h.complete hsettled hcovers hlimit, hvalues, List.cons.injEq] at hsince
  simpa using hsince.2

/-! ## Items before and after the subscription -/

namespace Greedy

/-- The handle of the peer. -/
def peer : Handle := ⟨0, 1⟩

/-- A far side that asks for 16 items once it has its subscription. -/
def environment : Environment Unit Unit where
  dial _ := none
  react
    | .attached _ i, far => (far, [.ask i (.request 16)])
    | _, far => (far, [])
  idle _ := none

/-- Nothing is begun. -/
def moves : Crew.Rules Unit Unit Unit where
  starts _ _ _ _ := False
  keeps h := h.elim
  outer h := h.elim
  emits _ _ _ := False

/-- One echo channel and one thread, which makes some calls of the peer. -/
def channel (calls : List (Call Unit)) : Crew Unit Unit Unit where
  exchange := {
    far := ()
    interactions := #[{
      receiver := .payloads { label := "", initialDemand := 1 }
      producer := .echo { initial := ⟨"i", "j"⟩ } }] }
  stack _ := calls.map .call

theorem not_raise (event : Event Unit) (far : Unit) (p : Panic) :
    Call.raise p ∉ (environment.react event far).2 := by
  intro hmem
  unfold environment at hmem
  dsimp only at hmem
  split at hmem <;> simp at hmem

/-- The peer sends an item, and then it subscribes. -/
def early : Crew Unit Unit Unit :=
  channel [.signal 0 (.next ⟨"a", "b"⟩), .attach 0 peer]

/-- The peer subscribes, and then it sends an item. -/
def late : Crew Unit Unit Unit :=
  channel [.attach 0 peer, .signal 0 (.next ⟨"a", "b"⟩)]

/-- The peer has subscribed. -/
def subscribed : Crew Unit Unit Unit :=
  late.work environment () (.call (.attach 0 peer)) [.call (.signal 0 (.next ⟨"a", "b"⟩))]

theorem recorded_early :
    Crew.Recorded environment moves 0 early [] (early.play environment (.replicate 16 ())) := by
  refine (Crew.recorded_play not_raise _ ?_).1
  rintro p ⟨_, hmem⟩
  simp [early, channel] at hmem

theorem recorded_subscribed :
    Crew.Recorded environment moves 0 subscribed []
      (subscribed.play environment (.replicate 16 ())) := by
  refine (Crew.recorded_play not_raise _ ?_).1
  rintro p ⟨_, hmem⟩
  have hstack : subscribed.stack () =
      [.push 0 ⟨"i", "j"⟩, .tell (.attached peer 0), .call (.signal 0 (.next ⟨"a", "b"⟩))] := rfl
  simp [hstack] at hmem

theorem subscribing :
    Subscribing 0 peer ⟨"i", "j"⟩ () [.call (.signal 0 (.next ⟨"a", "b"⟩))] late where
  receiver := ⟨_, rfl⟩
  producer := rfl
  head := rfl
  stack k t ht := by
    simp only [late, channel, List.map_cons, List.map_nil, List.mem_cons, List.not_mem_nil,
      or_false] at ht
    obtain rfl | rfl := ht <;> exact ⟨⟨by simp, by simp⟩, by simp⟩
  done := by simp [late, channel]

theorem settled {c : Crew Unit Unit Unit} (h : c.stack () = []) : c.Settled 0 where
  push := fun item ⟨_, hmem⟩ => by simp [h] at hmem
  drain := fun ⟨_, hmem⟩ => by simp [h] at hmem
  drainNext := fun ⟨_, hmem⟩ => by simp [h] at hmem

end Greedy

/-- A peer that subscribes first and then sends an item is told the initial payload and that item. -/
theorem mirrors_of_late_item :
    Subscribing 0 Greedy.peer ⟨"i", "j"⟩ () [.call (.signal 0 (.next ⟨"a", "b"⟩))] Greedy.late ∧
      Mirrors 0 Greedy.peer ⟨"i", "j"⟩
        (Greedy.subscribed.play Greedy.environment (.replicate 16 ())) ∧
      (Greedy.subscribed.play Greedy.environment (.replicate 16 ())).items Greedy.peer =
        [⟨"i", "j"⟩, ⟨"a", "b"⟩] := by
  have hrun := Greedy.recorded_subscribed.along (Crew.inTurn_of_subsingleton 0)
  obtain ⟨-, hmirrors, -⟩ := mirrors_iff Greedy.subscribing hrun
    (Exchange.soleReceiver_of_size rfl Greedy.peer) (Task.cancel_notMem_of_all rfl)
  exact ⟨Greedy.subscribing, hmirrors rfl (by simp), rfl⟩

/-- **An item that comes before the peer has subscribed is not mirrored**, although the peer asks for
more than there is. -/
theorem not_mirrors_of_early_item :
    ¬ ∀ d, Crew.Recorded Greedy.environment Greedy.moves 0 Greedy.early [] d →
      .call (.ask 0 .cancel) ∉ d.done → Mirrors 0 Greedy.peer ⟨"i", "j"⟩ d := by
  intro h
  have hmirrors := h _ Greedy.recorded_early (Task.cancel_notMem_of_all rfl)
  have hitems : [⟨"i", "j"⟩] = [(⟨"i", "j"⟩ : Payload), ⟨"a", "b"⟩] :=
    hmirrors.complete (Greedy.settled rfl) (by decide) (by decide)
  cases hitems

end StreamConformance
