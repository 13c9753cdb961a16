import StreamConformance.Proofs.Channel.Emissions
import StreamConformance.Proofs.Turns

/-!
# Demand on its way to an emitter

What the peer of a scripted producer asks for reaches the emitter by tasks: the delivery of the
initial payload is settled, and demand is passed on.  This file keeps account of it.

* `Crew.granted`: what the peer has asked for; `Crew.Owes`: what is still to be passed on, by all
  threads together.
* `Balance`: nothing is used that was not granted, and nothing is lost unless the sum is too large
  or some thread has panicked.
* `Silent`, `Plain`: a task that neither settles the delivery of the initial payload nor delivers an
  item to the peer; and one that does not pass on demand either.
* `Neutral`, `Neutral.of_work`, `Neutral.of_start`, `Neutral.of_emit`: most steps have nothing to do
  with all this.
-/

namespace StreamConformance

variable {ι σ τ : Type} {env : Environment σ τ} {rules : Crew.Rules ι σ τ} {i : Nat} {r : Handle}

/-! ## Amounts -/

/-- What the peer of the producer `i` asks for by a task. -/
def Task.grant (i : Nat) : Task τ → Nat
  | .call (.ask j (.request n)) => if j = i then n else 0
  | _ => 0

/-- What a task passes on to the emitter of the producer `i`. -/
def Task.owed (i : Nat) : Task τ → Nat
  | .passOn j (.request n) => if j = i then n else 0
  | _ => 0

/-- What some tasks pass on to the emitter of the producer `i`. -/
def owed (i : Nat) (ts : List (Task τ)) : Nat :=
  (ts.map (Task.owed i)).sum

theorem owed_append (ts us : List (Task τ)) : owed i (ts ++ us) = owed i ts + owed i us :=
  Crew.weight_append (Task.owed i) ts us

theorem owed_cons (t : Task τ) (ts : List (Task τ)) : owed i (t :: ts) = t.owed i + owed i ts :=
  Crew.weight_cons (Task.owed i) t ts

theorem owed_passOn (n : Nat) : owed i [(.passOn i (.request n) : Task τ)] = n := by
  simp [owed, Task.owed]

namespace Crew

/-- All that the peer of the producer `i` has asked for. -/
def granted (i : Nat) (c : Crew ι σ τ) : Nat :=
  (c.done.map (Task.grant i)).sum

/-- What all threads together have still to pass on to the emitter of the producer `i`. -/
def Owes (i : Nat) (total : Nat) (c : Crew ι σ τ) : Prop :=
  ∃ threads : Finset ι, (∀ k, k ∉ threads → owed i (c.stack k) = 0) ∧
    threads.sum (fun k => owed i (c.stack k)) = total

theorem owes_of_forall {c : Crew ι σ τ} (h : ∀ k, owed i (c.stack k) = 0) : c.Owes i 0 :=
  ⟨∅, fun k _ => h k, rfl⟩

theorem Owes.eq_zero {c : Crew ι σ τ} {total : Nat} (h : c.Owes i total)
    (hzero : ∀ k, owed i (c.stack k) = 0) : total = 0 := by
  obtain ⟨threads, -, rfl⟩ := h
  exact Finset.sum_eq_zero fun k _ => hzero k

variable [DecidableEq ι] {c d : Crew ι σ τ}

theorem granted_work (env : Environment σ τ) (k : ι) (t : Task τ) (rest : List (Task τ))
    (c : Crew ι σ τ) : (c.work env k t rest).granted i = c.granted i + t.grant i := by
  rw [granted, done_work, List.map_append, List.sum_append, granted]
  exact congrArg _ List.sum_singleton

/-- When one thread goes on with other tasks, only what it has to pass on is different. -/
theorem Owes.update {total : Nat} (h : c.Owes i total) {k : ι} {ts : List (Task τ)}
    (hs : d.stack = Function.update c.stack k ts) :
    ∃ others, total = others + owed i (c.stack k) ∧ d.Owes i (others + owed i ts) :=
  Weighs.update (w := Task.owed i) h hs

end Crew

/-- All that is granted is used or on its way, unless the sum is too large or some thread has
panicked; in any case nothing is used that was not granted. -/
structure Balance (l : List Crew.Mark) (granted used : Nat) : Prop where
  le : used ≤ granted
  eq : .panicked ∉ l → granted ≤ Demand.limit → used = granted

namespace Balance

variable {l : List Crew.Mark} {granted used : Nat}

theorem grant (h : Balance l granted used) (n : Nat) : Balance l (granted + n) (used + n) where
  le := Nat.add_le_add_right h.le n
  eq hcalm hlimit := by rw [h.eq hcalm (Nat.le_trans (Nat.le_add_right _ _) hlimit)]

/-- Sums that stop at the limit lose nothing as long as it is not reached. -/
theorem add {front x y : Nat} (h : Balance l granted (front + (x + y))) :
    Balance l granted (front + Demand.add x y) where
  le := Nat.le_trans (Nat.add_le_add_left (Demand.add_le x y) front) h.le
  eq hcalm hlimit := by
    have hsum := h.eq hcalm hlimit
    rw [Demand.add_eq (by omega), hsum]

/-- Demand that comes while some is set aside is added to it. -/
theorem setAside {n deferred : Nat} (h : Balance l granted (n + deferred)) (more : Nat) :
    Balance l (granted + more) (n + Demand.add deferred more) :=
  .add (by rw [← Nat.add_assoc]; exact h.grant more)

theorem mark (h : Balance l granted used) (m : List Crew.Mark) : Balance (l ++ m) granted used where
  le := h.le
  eq hcalm hlimit := h.eq (fun hmem => hcalm (List.mem_append_left m hmem)) hlimit

/-- With a panic, something may be lost. -/
theorem panic (h : Balance l granted used) {used' : Nat} (hle : used' ≤ used) :
    Balance (l ++ [.panicked]) granted used' where
  le := Nat.le_trans hle h.le
  eq hcalm := absurd (List.mem_append_right l (List.mem_singleton_self _)) hcalm

end Balance

/-! ## Plain tasks -/

/-- A task that neither settles the delivery of the initial payload nor delivers an item to the
peer. -/
structure Silent (i : Nat) (r : Handle) (t : Task τ) : Prop where
  settle : ∀ n, t ≠ .settle i n
  heard : ∀ item, t ≠ .tell (.heard r (.next item))

/-- A task that does not pass on demand either. -/
structure Plain (i : Nat) (r : Handle) (t : Task τ) : Prop extends Silent i r t where
  passOn : ∀ n, t ≠ .passOn i (.request n)

theorem Silent.passOn (j : Nat) (a : Ask) : Silent i r (.passOn j a : Task τ) :=
  ⟨fun _ h => (by cases h), fun _ h => (by cases h)⟩

namespace Plain

theorem call (cl : Call τ) : Plain i r (.call cl) :=
  ⟨⟨fun _ h => (by cases h), fun _ h => (by cases h)⟩, fun _ h => (by cases h)⟩

theorem of_isOuter {t : Task τ} (ht : t.isOuter = true) : Plain i r t := by
  refine ⟨⟨?_, ?_⟩, ?_⟩ <;> rintro _ rfl <;> cases ht

/-- The tasks that are not plain. -/
theorem cases_of_not {t : Task τ} (ht : ¬ Plain i r t) :
    (∃ n, t = .settle i n) ∨ (∃ item, t = .tell (.heard r (.next item))) ∨
      ∃ n, t = .passOn i (.request n) := by
  by_contra h
  obtain ⟨hsettle, hrest⟩ := not_or.mp h
  obtain ⟨hheard, hpassOn⟩ := not_or.mp hrest
  exact ht ⟨⟨fun n hn => hsettle ⟨n, hn⟩, fun item hi => hheard ⟨item, hi⟩⟩,
    fun n hn => hpassOn ⟨n, hn⟩⟩

theorem owed_eq {t : Task τ} (ht : Plain i r t) : t.owed i = 0 := by
  unfold Task.owed
  split
  · rename_i j n
    exact if_neg fun hj => ht.passOn n (by rw [hj])
  · rfl

theorem owed_eq_zero {ts : List (Task τ)} (h : ∀ t ∈ ts, Plain i r t) : owed i ts = 0 :=
  List.sum_eq_zero fun _ hn =>
    have ⟨t, ht, heq⟩ := List.mem_map.mp hn
    heq ▸ (h t ht).owed_eq

theorem item?_eq {t : Task τ} (ht : Plain i r t) : (Crew.signal? r t).bind Signal.item? = none := by
  unfold Crew.signal?
  split
  · rename_i r' s
    by_cases hr : r' = r
    · rw [if_pos hr, Option.bind_some]
      cases s with
      | next item => exact absurd (by rw [hr]) (ht.heard item)
      | complete | error => rfl
    · rw [if_neg hr]
      rfl
  · rfl

/-- What is left by tasks that are no sections of the producer is plain. -/
theorem of_mem_perform {e : Exchange σ} {t t' : Task τ} (hsole : e.SoleReceiver r i)
    (ht : t.producer? ≠ some i) (h : t' ∈ (e.perform env t).2) : Plain i r t' := by
  have horigin := Exchange.Origin.of_mem h
  refine ⟨⟨?_, ?_⟩, ?_⟩
  · rintro n rfl
    cases horigin with
    | settle n hj => exact ht hj
  · rintro item rfl
    cases horigin with
    | heard s hj hr => exact ht (hsole _ hr ▸ hj)
  · rintro n rfl
    cases horigin with
    | passOn b hj => exact ht hj

end Plain

/-! ## Steps that have nothing to do with it -/

/-- The producer `i` with its peer `r`: where the initial payload is, and the demand that the
emitter holds. -/
def ProducerAt (i : Nat) (r : Handle) (initial : InitialPayload) (demand : Nat)
    (e : Exchange σ) : Prop :=
  ∃ p, e.scripted? i = some p ∧ p.remote = some r ∧ p.initial = initial ∧
    p.emitter.demand = demand

theorem ProducerAt.congr {initial : InitialPayload} {demand : Nat} {e e' : Exchange σ}
    (h : ProducerAt i r initial demand e) (he : e'.producer? i = e.producer? i) :
    ProducerAt i r initial demand e' := by
  obtain ⟨p, hp, hrest⟩ := h
  exact ⟨p, by rw [Exchange.scripted?_congr he, hp], hrest⟩

namespace ProducerAt

variable {initial : InitialPayload} {demand : Nat} {e : Exchange σ}
  (h : ProducerAt i r initial demand e)
include h

/-- The peer asks for more. -/
theorem request (env : Environment σ τ) (n : Nat) :
    ProducerAt i r (initial.request n).1 demand (e.perform env (.call (.ask i (.request n)))).1 ∧
      (e.perform env (.call (.ask i (.request n)))).2 =
        match (initial.request n).2 with
        | .nothing => []
        | .pass n => [.passOn i (.request n)]
        | .deliver payload => [.tell (.heard r (.next payload)), .settle i n] := by
  obtain ⟨p, hp, hr, rfl, rfl⟩ := h
  obtain ⟨hp', hnew⟩ := Exchange.perform_ask env hp (.request n)
  rw [Exchange.askScripted_request] at hp' hnew
  refine ⟨⟨_, hp', hr, rfl, rfl⟩, hnew.trans ?_⟩
  rw [hr]
  rfl

/-- The delivery of the initial payload is settled. -/
theorem settle (env : Environment σ τ) (n : Nat) :
    ProducerAt i r (initial.settle n).1 demand (e.perform env (.settle i n)).1 ∧
      (e.perform env (.settle i n)).2 =
        if 0 < (initial.settle n).2 then [.passOn i (.request (initial.settle n).2)] else [] := by
  obtain ⟨p, hp, hr, rfl, rfl⟩ := h
  obtain ⟨hp', hnew⟩ := Exchange.perform_settle env hp n
  exact ⟨⟨_, hp', hr, rfl, rfl⟩, hnew⟩

/-- Demand reaches the emitter. -/
theorem passOn (env : Environment σ τ) (n : Nat) :
    ProducerAt i r initial (Demand.add demand n) (e.perform env (.passOn i (.request n))).1 ∧
      (e.perform env (.passOn i (.request n))).2 = [] := by
  obtain ⟨p, hp, hr, rfl, rfl⟩ := h
  obtain ⟨hp', hnew⟩ := Exchange.perform_passOn env hp (.request n)
  exact ⟨⟨_, hp', hr, rfl, rfl⟩, hnew⟩

end ProducerAt

variable [DecidableEq ι]

/-- Thread `k` performs a plain task, or begins with some; it goes on with plain ones and with what
it had to do besides. -/
def PlainTurn (i : Nat) (r : Handle) (k : ι) (c d : Crew ι σ τ) : Prop :=
  ∃ new rest, (∀ t ∈ new, Plain i r t) ∧ d.stack = Function.update c.stack k (new ++ rest) ∧
    ((∃ t, Plain i r t ∧ c.stack k = t :: rest) ∨ (c.stack k = [] ∧ rest = []))

theorem PlainTurn.of_work {c : Crew ι σ τ} {k : ι} {t : Task τ} {rest : List (Task τ)}
    (hk : c.stack k = t :: rest) (ht : Plain i r t)
    (hnew : ∀ t' ∈ (c.exchange.perform env t).2, Plain i r t') :
    PlainTurn i r k c (c.work env k t rest) :=
  ⟨_, rest, hnew, rfl, Or.inl ⟨t, ht, hk⟩⟩

theorem PlainTurn.of_turn {c : Crew ι σ τ} {k : ι} {ts : List (Task τ)} (e : Exchange σ)
    (hk : c.stack k = []) (hts : ∀ t ∈ ts, Plain i r t) : PlainTurn i r k c (c.turn k ts e) :=
  ⟨ts, [], hts, by rw [List.append_nil]; rfl, Or.inr ⟨hk, rfl⟩⟩

/-- A step of thread `k` that has nothing to do with the demand of the producer `i` and the items
that its peer is told. -/
structure Neutral (i : Nat) (r : Handle) (m : List Crew.Mark) (k : ι) (c d : Crew ι σ τ) :
    Prop where
  stack : PlainTurn i r k c d
  producer : ∀ {initial demand}, ProducerAt i r initial demand c.exchange →
    ProducerAt i r initial demand d.exchange
  granted : d.granted i = c.granted i
  items : d.items r = c.items r
  done : c.done <+: d.done
  mark : m.filterMap Crew.Mark.item? = []

/-- What a plain section of the producer does, if it asks for nothing: nothing that shows. -/
theorem Plain.perform_section (env : Environment σ τ) {p : ScriptedProducer} {e : Exchange σ}
    {t : Task τ}
    (hp : e.scripted? i = some p) (hr : p.remote = some r) (ht : Plain i r t)
    (hi : t.producer? = some i) (hask : ∀ a, t ≠ .call (.ask i a)) :
    (∃ p', (e.perform env t).1.scripted? i = some p' ∧ p'.remote = p.remote ∧
      p'.initial = p.initial ∧ p'.emitter.demand = p.emitter.demand) ∧
    (e.perform env t).2 = [] := by
  have hecho : ∀ f : EchoProducer → EchoProducer × List (Task τ),
      e.perform env t = e.atEcho i f → (e.perform env t).1.scripted? i = some p ∧
        (e.perform env t).2 = [] := by
    intro f hf
    rw [hf]
    exact Exchange.atEcho_of_scripted? hp f
  cases t with
  | call cl =>
    cases cl with
    | ask j a =>
      obtain rfl := Option.some.inj hi
      exact absurd rfl (hask a)
    | attach j r' =>
      obtain rfl := Option.some.inj hi
      obtain ⟨hp', hnew⟩ := Exchange.perform_attach env hp hr r'
      exact ⟨⟨p, hp', rfl, rfl, rfl⟩, hnew⟩
    | subscribed | signal | resume | raise => cases hi
  | settle j n =>
    obtain rfl := Option.some.inj hi
    exact absurd rfl (ht.settle n)
  | passOn j a =>
    obtain rfl := Option.some.inj hi
    cases a with
    | request n => exact absurd rfl (ht.passOn n)
    | cancel =>
      obtain ⟨hp', hnew⟩ := Exchange.perform_passOn env hp .cancel
      exact ⟨⟨_, hp', rfl, rfl, rfl⟩, hnew⟩
  | openGate j r' =>
    obtain rfl := Option.some.inj hi
    obtain ⟨hp', hnew⟩ := Exchange.perform_openGate env hp r'
    exact ⟨⟨_, hp', rfl, rfl, rfl⟩, hnew⟩
  | push j item =>
    obtain rfl := Option.some.inj hi
    obtain ⟨hp', hnew⟩ := hecho _ rfl
    exact ⟨⟨p, hp', rfl, rfl, rfl⟩, hnew⟩
  | drain j =>
    obtain rfl := Option.some.inj hi
    obtain ⟨hp', hnew⟩ := hecho _ rfl
    exact ⟨⟨p, hp', rfl, rfl, rfl⟩, hnew⟩
  | drainNext j =>
    obtain rfl := Option.some.inj hi
    obtain ⟨hp', hnew⟩ := hecho _ rfl
    exact ⟨⟨p, hp', rfl, rfl, rfl⟩, hnew⟩
  | tell | own => cases hi

namespace Neutral

variable {c d : Crew ι σ τ} {k : ι} {rest : List (Task τ)}

/-- A task that is plain and asks the producer for nothing is neutral. -/
theorem of_work {p : ScriptedProducer} (hp : c.exchange.scripted? i = some p)
    (hr : p.remote = some r) (hsole : c.exchange.SoleReceiver r i)
    {t : Task τ} (hk : c.stack k = t :: rest) (ht : Plain i r t)
    (hask : ∀ a, t ≠ .call (.ask i a)) : Neutral i r [] k c (c.work env k t rest) := by
  have hgrant : t.grant i = 0 := by
    unfold Task.grant
    split
    · rename_i j n
      exact if_neg fun hj => hask (.request n) (by rw [hj])
    · rfl
  have hitems : (c.work env k t rest).items r = c.items r := by
    rw [Crew.items_work, ht.item?_eq]
    exact List.append_nil _
  have hgranted : (c.work env k t rest).granted i = c.granted i := by
    rw [Crew.granted_work, hgrant, Nat.add_zero]
  suffices hsection : (∀ t' ∈ (c.exchange.perform env t).2, Plain i r t') ∧
      ∀ {initial demand}, ProducerAt i r initial demand c.exchange →
        ProducerAt i r initial demand (c.exchange.perform env t).1 from
    ⟨.of_work hk ht hsection.1, hsection.2, hgranted, hitems, List.prefix_append .., rfl⟩
  by_cases hi : t.producer? = some i
  · obtain ⟨⟨p', hp', hr', hinitial, hdemand⟩, hnew⟩ := ht.perform_section env hp hr hi hask
    refine ⟨by simp [hnew], ?_⟩
    rintro _ _ ⟨q, hq, -, rfl, rfl⟩
    obtain rfl : p = q := Option.some.inj (hp.symm.trans hq)
    exact ⟨p', hp', hr'.trans hr, hinitial, hdemand⟩
  · exact ⟨fun t' => Plain.of_mem_perform hsole hi,
      fun h => h.congr (Exchange.producer?_perform env hi _)⟩

/-- Asking for nothing is neutral. -/
theorem of_request_zero {initial : InitialPayload} {demand : Nat}
    (hproducer : ProducerAt i r initial demand c.exchange)
    (hk : c.stack k = .call (.ask i (.request 0)) :: rest) :
    Neutral i r [] k c (c.work env k (.call (.ask i (.request 0))) rest) where
  stack := by
    obtain ⟨-, hnew⟩ := hproducer.request env 0
    have hnone : (c.exchange.perform env (.call (.ask i (.request 0)))).2 = [] := hnew
    exact .of_work hk (.call _) (by simp [hnone])
  producer h := (h.request env 0).1
  granted := by
    rw [Crew.granted_work]
    exact congrArg _ (ite_self 0)
  items := Crew.items_work_of_ne env k rest c (by simp)
  done := List.prefix_append ..
  mark := rfl

/-- What threads begin with is neutral. -/
theorem of_start {e : Exchange σ} {ts : List (Task τ)} (hk : c.stack k = [])
    (h : rules.starts k c.exchange e ts) : Neutral i r [] k c (c.turn k ts e) where
  stack := .of_turn e hk fun t ht => .of_isOuter (rules.outer h t ht)
  producer := by
    rintro _ _ ⟨p, hp, hrest⟩
    refine ⟨p, ?_, hrest⟩
    unfold Exchange.scripted? at hp ⊢
    split at hp
    · rename_i hx
      cases hp
      rw [Crew.exchange_turn, rules.keeps h hx]
    · cases hp
  granted := rfl
  items := rfl
  done := List.prefix_refl _
  mark := rfl

/-- What other scripts send is neutral, and so are completions and errors. -/
theorem of_emit {j : Nat} {p : ScriptedProducer} {emitter : Emitter} {s : Signal Payload}
    (hk : c.stack k = []) (hp : c.exchange.scripted? j = some p)
    (hs : p.emitter.emit s = .sent emitter) (hsole : c.exchange.SoleReceiver r i)
    (hother : j = i → s.isTerminal = true) :
    Neutral i r (if j = i then [.sent s] else []) k c
      (c.turn k (c.exchange.send j p emitter s).2 (c.exchange.send (τ := τ) j p emitter s).1) where
  stack := by
    refine .of_turn _ hk fun t ht => ?_
    simp only [Exchange.send, Option.mem_toList, Option.map_eq_some_iff] at ht
    obtain ⟨r', hr', rfl⟩ := ht
    refine ⟨⟨fun _ h => (by cases h), fun item h => ?_⟩, fun _ h => (by cases h)⟩
    cases h
    have hj := hsole j ((Exchange.remote?_of_scripted? hp).trans hr')
    exact absurd (hother hj) Bool.false_ne_true
  producer := by
    intro _ _ h
    by_cases hj : j = i
    · subst hj
      obtain ⟨q, hq, hr, rfl, rfl⟩ := h
      obtain rfl : p = q := Option.some.inj (hp.symm.trans hq)
      have hdemand := Emitter.demand_of_sent hs
      have hitem : s.item? = none := by
        cases s with
        | next item => exact absurd (hother rfl) Bool.false_ne_true
        | complete | error => rfl
      rw [hitem, Option.toList_none, List.length_nil, Nat.zero_add] at hdemand
      exact ⟨_, (Exchange.send_of_scripted? (τ := τ) hp emitter s).1, hr, rfl, hdemand.symm⟩
    · exact h.congr (Exchange.producer?_send_of_ne hj p emitter s _)
  granted := rfl
  items := rfl
  done := List.prefix_refl _
  mark := by
    split
    · rename_i hj
      cases s with
      | next item => exact absurd (hother hj) Bool.false_ne_true
      | complete | error => rfl
    · rfl

end Neutral

end StreamConformance
