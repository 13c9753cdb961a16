import Mathlib.Algebra.GroupWithZero.Nat
import Mathlib.Data.List.Infix
import StreamConformance.Proofs.Consumer.Runs

/-!
# What a consumer keeps account of

A consumer counts what it receives, remembers the first end of its stream, enters assertions and
keeps account of the demand that it has signalled.  `run_accounts` says what these accounts amount
to after any run, whatever is nested in what.

* `Sound`: the counts fit the items and the end of the stream.
* `terminal_afterAll`, `values_afterAll`: the end is the first one, and the items are those that
  came before it.
* `toNat_failed_afterAll`: failed assertions are counted, in 32 bits.
* `Waiting`, `Served`: what is signalled to a subscription is all the demand there is, from before
  and after it came; and as long as no item comes unasked for, each unit of it is either
  outstanding or received.
-/

namespace StreamConformance

/-- The demand that an ask signals. -/
def Ask.amount : Ask → Nat
  | .request n => n
  | .cancel => 0

namespace Consumer

variable {ι η φ : Type} {c c' : Consumer ι η φ} {op : Operation ι η φ} {a : Option (η × Ask)}

/-! ## Counts -/

/-- The counts fit the items and the end of the stream. -/
structure Sound (c : Consumer ι η φ) : Prop where
  received : c.received = c.values.length
  events : c.events =
    c.received + if c.terminal = none ∨ c.terminal = some .canceled then 0 else 1

theorem Sound.becomes (h : Becomes c op c' a) (hs : Sound c) : Sound c' := by
  obtain ⟨hreceived, hevents⟩ := hs
  cases h with
  | taken item hterm =>
    refine ⟨?_, ?_⟩
    · simp only [values, List.reverse_cons, List.length_append, List.length_singleton]
      exact congrArg (· + 1) hreceived
    · simp only [hterm] at hevents ⊢
      exact congrArg (· + 1) hevents
  | completed hterm | failed _ hterm =>
    refine ⟨hreceived, ?_⟩
    simp only [hterm] at hevents
    simp [hevents]
  | canceled hterm =>
    refine ⟨hreceived, ?_⟩
    simp only [hterm] at hevents
    simp [hevents]
  | late | tooLate | nothing | asked | held | accepted | turnedDown | recorded | forwarded =>
    exact ⟨hreceived, hevents⟩

theorem Sound.afterAll {r : Run ι η φ} (hs : Sound r.consumer) (ops : List (Operation ι η φ)) :
    Sound (r.afterAll ops).consumer := by
  induction ops generalizing r with
  | nil => exact hs
  | cons op ops ih => exact ih (hs.becomes (becomes_perform r.consumer op))

/-- There is one event more than there are items exactly if the producer has ended the stream. -/
theorem Sound.events_eq_iff (hs : Sound c) :
    c.events = c.received + 1 ↔
      c.terminal = some .completed ∨ ∃ message, c.terminal = some (.errored message) := by
  rw [hs.events, Nat.add_left_cancel_iff]
  rcases c.terminal with _ | _ | message | _ <;> simp

/-! ## Items and the end -/

theorem Becomes.terminal_eq (h : Becomes c op c' a) : c'.terminal = c.terminal.or op.terminal? := by
  cases h with
  | late _ hterm | tooLate _ hterm =>
    obtain ⟨t, ht⟩ := Option.ne_none_iff_exists'.mp hterm
    rw [ht, Option.some_or]
  | taken _ hterm | completed hterm | failed _ hterm | canceled hterm | nothing hterm
  | asked _ hterm | held _ hterm =>
    rw [hterm]
    rfl
  | accepted | turnedDown | recorded | forwarded => exact (Option.or_none).symm

/-- Before the end, items are taken. -/
theorem Becomes.values_eq (h : Becomes c op c' a) (hterm : c.terminal = none) :
    c'.values = c.values ++ op.item?.toList := by
  cases h with
  | late _ hlate | tooLate _ hlate => exact absurd hterm hlate
  | taken item => exact List.reverse_cons
  | completed | failed | canceled | nothing | asked | held | accepted | turnedDown | recorded
  | forwarded => exact (List.append_nil _).symm

/-- After the end, items and counts stay as they are. -/
theorem Becomes.frozen (h : Becomes c op c' a) (hterm : c.terminal ≠ none) :
    c'.terminal = c.terminal ∧ c'.values = c.values ∧ c'.received = c.received ∧
      c'.events = c.events := by
  cases h with
  | late | tooLate | accepted | turnedDown | recorded | forwarded => exact ⟨rfl, rfl, rfl, rfl⟩
  | taken _ hactive | completed hactive | failed _ hactive | canceled hactive | nothing hactive
  | asked _ hactive | held _ hactive => exact absurd hactive hterm

/-- The items that are delivered before the first end. -/
def items (ops : List (Operation ι η φ)) : List ι :=
  (ops.takeWhile fun op => op.terminal?.isNone).filterMap Operation.item?

/-- **The end is the first one.** -/
theorem terminal_afterAll (r : Run ι η φ) (ops : List (Operation ι η φ)) :
    (r.afterAll ops).consumer.terminal =
      r.consumer.terminal.or (ops.findSome? Operation.terminal?) := by
  induction ops generalizing r with
  | nil => exact (Option.or_none).symm
  | cons op ops ih =>
    have hstep : (r.after op).consumer.terminal = r.consumer.terminal.or op.terminal? :=
      (becomes_perform r.consumer op).terminal_eq
    rw [Run.afterAll_cons, ih, hstep, Option.or_assoc, List.findSome?_cons]
    cases op.terminal? <;> rfl

/-- After the end, nothing changes that counts. -/
theorem frozen_afterAll {r : Run ι η φ} (hterm : r.consumer.terminal ≠ none)
    (ops : List (Operation ι η φ)) :
    (r.afterAll ops).consumer.terminal = r.consumer.terminal ∧
      (r.afterAll ops).consumer.values = r.consumer.values ∧
      (r.afterAll ops).consumer.received = r.consumer.received ∧
      (r.afterAll ops).consumer.events = r.consumer.events := by
  induction ops generalizing r with
  | nil => exact ⟨rfl, rfl, rfl, rfl⟩
  | cons op ops ih =>
    obtain ⟨hterminal, hvalues, hreceived, hevents⟩ :=
      (becomes_perform r.consumer op).frozen hterm
    have hrest := ih (r := r.after op) fun h => hterm (hterminal ▸ h)
    exact ⟨hrest.1.trans hterminal, hrest.2.1.trans hvalues, hrest.2.2.1.trans hreceived,
      hrest.2.2.2.trans hevents⟩

/-- **The items are those delivered before the end**, in order. -/
theorem values_afterAll {r : Run ι η φ} (hterm : r.consumer.terminal = none)
    (ops : List (Operation ι η φ)) :
    (r.afterAll ops).consumer.values = r.consumer.values ++ items ops := by
  induction ops generalizing r with
  | nil => exact (List.append_nil _).symm
  | cons op ops ih =>
    have hbecomes := becomes_perform r.consumer op
    have hvalues : (r.after op).consumer.values = r.consumer.values ++ op.item?.toList :=
      hbecomes.values_eq hterm
    have hterminal : (r.after op).consumer.terminal = op.terminal? := by
      rw [← Option.none_or (o := op.terminal?), ← hterm]
      exact hbecomes.terminal_eq
    rw [Run.afterAll_cons]
    cases hend : op.terminal? with
    | none =>
      rw [ih (hterminal.trans hend), hvalues, items, items,
        List.takeWhile_cons_of_pos (by rw [hend]; rfl), List.filterMap_cons, List.append_assoc]
      cases op.item? <;> rfl
    | some t =>
      have hitem : op.item? = none := by
        cases op with
        | deliver s => cases s <;> simp_all [Operation.terminal?, Operation.item?]
        | subscribed | demand | record | setForward => rfl
      have hdone : (r.after op).consumer.terminal ≠ none := by
        rw [hterminal, hend]
        exact Option.some_ne_none t
      rw [(frozen_afterAll hdone ops).2.1, hvalues, hitem, items,
        List.takeWhile_cons_of_neg (by rw [hend]; simp)]
      rfl

/-! ## Assertions -/

theorem Becomes.failed_eq (h : Becomes c op c' a) :
    c'.ledger.failed = c.ledger.failed + if op.outcome? = some false then 1 else 0 := by
  cases h with
  | recorded holds => cases holds <;> simp [Operation.outcome?, Ledger.enter]
  | late | tooLate | taken | completed | failed | canceled | nothing | asked | held | accepted
  | turnedDown | forwarded => exact (UInt32.add_zero _).symm

/-- Failures are counted in 32 bits. -/
theorem toNat_failed_afterAll (r : Run ι η φ) (ops : List (Operation ι η φ)) :
    (r.afterAll ops).consumer.ledger.failed.toNat =
      (r.consumer.ledger.failed.toNat + ops.countP fun op => op.outcome? = some false) %
        0x100000000 := by
  induction ops generalizing r with
  | nil => exact (Nat.mod_eq_of_lt (UInt32.toNat_lt _)).symm
  | cons op ops ih =>
    have hstep : (r.after op).consumer.ledger.failed.toNat =
        (r.consumer.ledger.failed.toNat + if op.outcome? = some false then 1 else 0) %
          0x100000000 := by
      have hfailed := (becomes_perform r.consumer op).failed_eq
      rw [Run.after, hfailed, UInt32.toNat_add]
      split <;> rfl
    rw [Run.afterAll_cons, ih, hstep, List.countP_cons]
    simp only [decide_eq_true_eq]
    omega

theorem hasPassed_eq_false : c.hasPassed = false ↔ c.ledger.failed.toNat ≠ 0 := by
  rw [hasPassed, beq_eq_false_iff_ne, ne_eq, ne_eq, ← UInt32.toNat_inj]
  rfl

/-! ## Demand -/

/-- All the demand that is granted by some operations. -/
def granted (ops : List (Operation ι η φ)) : Nat :=
  (ops.map Operation.granted).sum

theorem granted_cons (op : Operation ι η φ) (ops : List (Operation ι η φ)) :
    granted (op :: ops) = op.granted + granted ops :=
  List.sum_cons

/-- No producer has come yet, and demand is held. -/
structure Unserved (initialDemand held : Nat) (r : Run ι η φ) : Prop where
  terminal : r.consumer.terminal = none
  subscription : r.consumer.subscription = none
  initialDemand : r.consumer.initialDemand = initialDemand
  pending : r.consumer.pending = held
  outstanding : r.consumer.outstanding = 0
  asked : r.asked = []

theorem Unserved.after {initialDemand held : Nat} {r : Run ι η φ}
    (hr : Unserved initialDemand held r) (hoffer : op.isOffer = false) (hend : op.terminal? = none)
    (hlimit : held + op.granted ≤ Demand.limit) :
    Unserved initialDemand (held + op.granted) (r.after op) := by
  obtain ⟨hterm, hsub, hinitial, hpending, hout, hasked⟩ := hr
  obtain ⟨c, a, h, hafter⟩ := r.after_eq op
  rw [hafter]
  cases h with
  | taken item =>
    refine ⟨hterm, hsub, hinitial, hpending, ?_, by rw [hasked]; rfl⟩
    show r.consumer.outstanding - 1 = 0
    rw [hout]
  | held =>
    refine ⟨hterm, hsub, hinitial, ?_, hout, by rw [hasked]; rfl⟩
    show Demand.add r.consumer.pending _ = _
    rw [hpending]
    exact Demand.add_eq hlimit
  | late | nothing | recorded | forwarded =>
    exact ⟨hterm, hsub, hinitial, hpending, hout, by rw [hasked]; rfl⟩
  | tooLate _ hlate => exact absurd hterm hlate
  | asked _ _ hserved =>
    rw [hsub] at hserved
    cases hserved
  | completed | failed | canceled => cases hend
  | accepted | turnedDown => cases hoffer

theorem Unserved.afterAll {initialDemand held : Nat} {r : Run ι η φ}
    (hr : Unserved initialDemand held r) {ops : List (Operation ι η φ)}
    (hoffer : ∀ op ∈ ops, op.isOffer = false) (hend : ∀ op ∈ ops, op.terminal? = none)
    (hlimit : held + granted ops ≤ Demand.limit) :
    Unserved initialDemand (held + granted ops) (r.afterAll ops) := by
  induction ops generalizing held r with
  | nil => exact hr
  | cons op ops ih =>
    rw [List.forall_mem_cons] at hoffer hend
    rw [granted_cons, ← Nat.add_assoc] at hlimit ⊢
    exact ih (hr.after hoffer.1 hend.1 (Nat.le_trans (Nat.le_add_right _ _) hlimit)) hoffer.2
      hend.2 hlimit

/-- A producer has come, and its subscription is kept. -/
structure Served (h : η) (r : Run ι η φ) : Prop where
  terminal : r.consumer.terminal = none
  subscription : r.consumer.subscription = some h

theorem Served.after {h : η} {r : Run ι η φ} (hr : Served h r) (hend : op.terminal? = none) :
    Served h (r.after op) := by
  obtain ⟨hterm, hsub⟩ := hr
  obtain ⟨c, a, hbecomes, hafter⟩ := r.after_eq op
  rw [hafter]
  cases hbecomes with
  | late | tooLate | taken | nothing | asked | turnedDown | recorded | forwarded =>
    exact ⟨hterm, hsub⟩
  | completed | failed | canceled => cases hend
  | held _ _ hfree | accepted _ _ hfree =>
    rw [hsub] at hfree
    cases hfree

section Signalled

variable [DecidableEq η] {h : η}

/-- All the demand that is signalled to a subscription by some asks. -/
def amountTo (h : η) (asked : List (η × Ask)) : Nat :=
  (asked.map fun ask => if ask.1 = h then ask.2.amount else 0).sum

theorem amountTo_append (asked later : List (η × Ask)) :
    amountTo h (asked ++ later) = amountTo h asked + amountTo h later := by
  simp only [amountTo, List.map_append, List.sum_append]

theorem amountTo_singleton (h' : η) (a : Ask) :
    amountTo h [(h', a)] = if h' = h then a.amount else 0 :=
  List.sum_singleton

/-- Each unit of demand that was signalled to a subscription is outstanding or received. -/
def Run.IsBalanced (h : η) (r : Run ι η φ) : Prop :=
  r.consumer.outstanding + r.consumer.received = amountTo h r.asked

/-- The producer comes, and is asked for all the demand that there is. -/
theorem Unserved.subscribed {initialDemand held : Nat} {r : Run ι η φ}
    (hr : Unserved initialDemand held r) (hlimit : initialDemand + held ≤ Demand.limit) :
    Served h (r.after (.subscribed h)) ∧
      amountTo h (r.after (.subscribed h)).asked = initialDemand + held ∧
      (r.consumer.received = 0 → (r.after (.subscribed h)).IsBalanced h) := by
  obtain ⟨hterm, hsub, hinitial, hpending, hout, hasked⟩ := hr
  obtain ⟨c, a, hbecomes, hafter⟩ := r.after_eq (.subscribed h)
  rw [hafter]
  cases hbecomes with
  | turnedDown _ hbusy => simp [hterm, hsub] at hbusy
  | accepted =>
    have hn : Demand.add r.consumer.initialDemand r.consumer.pending = initialDemand + held := by
      rw [hinitial, hpending]
      exact Demand.add_eq hlimit
    have hamount : amountTo h (r.asked ++ (if 0 < initialDemand + held then
        some (h, Ask.request (initialDemand + held)) else none).toList) =
        initialDemand + held := by
      rw [hasked, List.nil_append]
      by_cases hpos : 0 < initialDemand + held
      · rw [if_pos hpos, Option.toList_some, amountTo_singleton, if_pos rfl, Ask.amount]
      · rw [if_neg hpos, Nat.eq_zero_of_not_pos hpos]
        rfl
    rw [hn]
    refine ⟨⟨hterm, rfl⟩, hamount, fun hreceived => ?_⟩
    show Demand.add r.consumer.outstanding _ + r.consumer.received = _
    rw [hamount, hreceived, hout, Nat.add_zero, Demand.add_eq (by omega), Nat.zero_add]

/-- What is granted is signalled at once. -/
theorem Served.amountTo_after {r : Run ι η φ} (hr : Served h r) (op : Operation ι η φ) :
    amountTo h (r.after op).asked = amountTo h r.asked + op.granted := by
  obtain ⟨hterm, hsub⟩ := hr
  obtain ⟨c, a, hbecomes, hafter⟩ := r.after_eq op
  rw [hafter, amountTo_append]
  congr 1
  cases hbecomes with
  | late | taken | completed | failed | nothing | recorded | forwarded => rfl
  | tooLate _ hlate => exact absurd hterm hlate
  | canceled =>
    rw [hsub, Option.map_some, Option.toList_some, amountTo_singleton, if_pos rfl]
    rfl
  | turnedDown h' =>
    rw [Option.toList_some, amountTo_singleton]
    split <;> rfl
  | asked _ _ hserved =>
    obtain rfl := Option.some.inj (hsub.symm.trans hserved)
    rw [Option.toList_some, amountTo_singleton, if_pos rfl]
    rfl
  | held _ _ hfree | accepted _ _ hfree =>
    rw [hsub] at hfree
    cases hfree

/-- An item that was asked for uses what is outstanding. -/
theorem Run.IsBalanced.after {r : Run ι η φ} (hbalance : r.IsBalanced h) (hr : Served h r)
    (hlimit : amountTo h r.asked + op.granted ≤ Demand.limit)
    (hreceived : (r.after op).consumer.received ≤ amountTo h (r.after op).asked) :
    (r.after op).IsBalanced h := by
  have hamount := hr.amountTo_after op
  rw [IsBalanced] at hbalance ⊢
  rw [hamount] at hreceived ⊢
  obtain ⟨hterm, hsub⟩ := hr
  obtain ⟨c, a, hbecomes, hafter⟩ := r.after_eq op
  rw [hafter] at hreceived ⊢
  cases hbecomes with
  | taken item =>
    simp only [Operation.granted] at hreceived ⊢
    omega
  | asked =>
    simp only [Operation.granted] at hlimit ⊢
    rw [Demand.add_eq (by omega)]
    omega
  | tooLate _ hlate => exact absurd hterm hlate
  | late | completed | failed | canceled | nothing | turnedDown | recorded | forwarded =>
    exact hbalance
  | held _ _ hfree | accepted _ _ hfree =>
    rw [hsub] at hfree
    cases hfree

/-- What is signalled from then on is what is granted; and if no item comes unasked for, the
balance is kept. -/
theorem Served.afterAll {r : Run ι η φ} (hr : Served h r) {ops : List (Operation ι η φ)}
    (hend : ∀ op ∈ ops.dropLast, op.terminal? = none)
    (hlimit : amountTo h r.asked + granted ops ≤ Demand.limit) :
    amountTo h (r.afterAll ops).asked = amountTo h r.asked + granted ops ∧
      (r.IsBalanced h → (∀ front, front <+: ops →
        (r.afterAll front).consumer.received ≤ amountTo h (r.afterAll front).asked) →
        (r.afterAll ops).IsBalanced h) := by
  induction ops generalizing r with
  | nil => exact ⟨rfl, fun hbalance _ => hbalance⟩
  | cons op ops ih =>
    have hamount := hr.amountTo_after op
    rw [granted_cons] at hlimit ⊢
    have hnext : r.IsBalanced h → (∀ front, front <+: op :: ops →
        (r.afterAll front).consumer.received ≤ amountTo h (r.afterAll front).asked) →
        (r.after op).IsBalanced h := fun hbalance hfront =>
      hbalance.after hr (by omega) (hfront [op] (List.prefix_append [op] ops))
    cases ops with
    | nil => exact ⟨by rw [Run.afterAll_cons, Run.afterAll_nil, hamount]; rfl, hnext⟩
    | cons op' ops =>
      rw [List.dropLast_cons_cons, List.forall_mem_cons] at hend
      obtain ⟨htotal, hrest⟩ := ih (hr.after hend.1) hend.2 (by rw [hamount]; omega)
      refine ⟨?_, fun hbalance hfront => hrest (hnext hbalance hfront) fun front hprefix => ?_⟩
      · rw [Run.afterAll_cons, htotal, hamount, Nat.add_assoc]
      · exact hfront (op :: front) ((List.prefix_cons_inj op).mpr hprefix)

end Signalled

/-! ## Runs -/

/-- Operations one after another, from the beginning. -/
def run (label : String) (initialDemand : Nat) (ops : List (Operation ι η φ)) : Run ι η φ :=
  (Run.start label initialDemand).afterAll ops

theorem sound_start (label : String) (initialDemand : Nat) :
    Sound (Run.start label initialDemand : Run ι η φ).consumer :=
  ⟨rfl, rfl⟩

theorem unserved_start (label : String) (initialDemand : Nat) :
    Unserved initialDemand 0 (Run.start label initialDemand : Run ι η φ) :=
  ⟨rfl, rfl, rfl, rfl, rfl, rfl⟩

/-- Once an assertion has failed, the consumer has not passed, if fewer than 2³² are made. -/
theorem hasPassed_run_append {label : String} {initialDemand : Nat}
    {ops later : List (Operation ι η φ)}
    (hcount : ((ops ++ later).countP fun op => op.outcome?.isSome) < 0x100000000)
    (hfailed : (run label initialDemand ops).consumer.hasPassed = false) :
    (run label initialDemand (ops ++ later)).consumer.hasPassed = false := by
  have hfew : ((ops ++ later).countP fun op => op.outcome? = some false) < 0x100000000 := by
    refine Nat.lt_of_le_of_lt (List.countP_mono_left fun op _ hop => ?_) hcount
    rw [of_decide_eq_true hop]
    rfl
  have hstart : (Run.start label initialDemand : Run ι η φ).consumer.ledger.failed.toNat = 0 := rfl
  rw [hasPassed_eq_false, run, toNat_failed_afterAll, hstart] at hfailed ⊢
  rw [List.countP_append] at hfew ⊢
  omega

/-- What is signalled in a run in which the producer comes, up to the first end. -/
theorem amountTo_run [DecidableEq η] (label : String) {initialDemand : Nat} {h : η}
    {before after : List (Operation ι η φ)} (hoffer : ∀ op ∈ before, op.isOffer = false)
    (hend : ∀ op ∈ before ++ after.dropLast, op.terminal? = none)
    (hlimit : initialDemand + granted (before ++ .subscribed h :: after) ≤ Demand.limit) :
    amountTo h (run label initialDemand (before ++ .subscribed h :: after)).asked =
        initialDemand + granted (before ++ .subscribed h :: after) ∧
      ((∀ front, front <+: before ++ .subscribed h :: after →
          (run label initialDemand front).consumer.received ≤
            amountTo h (run label initialDemand front).asked) →
        (run label initialDemand (before ++ .subscribed h :: after)).IsBalanced h) := by
  rw [List.forall_mem_append] at hend
  have hgranted : granted (before ++ .subscribed h :: after) = granted before + granted after := by
    simp only [granted, List.map_append, List.sum_append, List.map_cons, List.sum_cons]
    exact congrArg _ (Nat.zero_add _)
  rw [hgranted] at hlimit ⊢
  have hwaiting := (unserved_start (ι := ι) (η := η) (φ := φ) label initialDemand).afterAll hoffer
    hend.1 (by omega)
  obtain ⟨hserved, hamount, hbalance⟩ := hwaiting.subscribed (h := h) (by omega)
  obtain ⟨htotal, hkept⟩ := hserved.afterAll hend.2 (by omega)
  rw [hamount, ← Run.afterAll_cons, ← Run.afterAll_append] at htotal
  rw [← Run.afterAll_cons, ← Run.afterAll_append] at hkept
  refine ⟨by rw [run, htotal]; omega, fun hfront => hkept (hbalance ?_) fun front hprefix => ?_⟩
  · have hreceived := hfront before (List.prefix_append _ _)
    rw [run, hwaiting.asked] at hreceived
    exact Nat.eq_zero_of_le_zero hreceived
  · rw [← Run.afterAll_cons, ← Run.afterAll_append]
    exact hfront _ ((List.prefix_append_right_inj before).mpr
      ((List.prefix_cons_inj _).mpr hprefix))

/-- **The accounts of a consumer**, for every run, whatever is nested in what. -/
theorem run_accounts [DecidableEq η] (label : String) (initialDemand : Nat) :
    (∀ calls : List (Invocation ι η φ),
      (Run.start label initialDemand).calls calls =
        run label initialDemand (operationsOf calls)) ∧
    ∀ ops : List (Operation ι η φ),
      let r := run label initialDemand ops
      r.consumer.received = r.consumer.values.length ∧
      (r.consumer.events = r.consumer.received + 1 ↔
        r.consumer.terminal = some .completed ∨
          ∃ message, r.consumer.terminal = some (.errored message)) ∧
      r.consumer.values = items ops ∧
      (∀ later : List (Operation ι η φ),
        let r' := run label initialDemand (ops ++ later)
        (r.consumer.terminal ≠ none →
          r'.consumer.terminal = r.consumer.terminal ∧ r'.consumer.values = r.consumer.values ∧
            r'.consumer.received = r.consumer.received ∧
            r'.consumer.events = r.consumer.events) ∧
        (((ops ++ later).countP fun op => op.outcome?.isSome) < 0x100000000 →
          r.consumer.hasPassed = false → r'.consumer.hasPassed = false)) ∧
      ∀ (before : List (Operation ι η φ)) (h : η) (after : List (Operation ι η φ)),
        ops = before ++ .subscribed h :: after →
        (∀ op ∈ before, op.isOffer = false) →
        (∀ op ∈ before ++ after.dropLast, op.terminal? = none) →
        initialDemand + granted ops ≤ Demand.limit →
        amountTo h r.asked = initialDemand + granted ops ∧
          ((∀ front, front <+: ops → (run label initialDemand front).consumer.received ≤
              amountTo h (run label initialDemand front).asked) →
            r.consumer.outstanding + r.consumer.received = initialDemand + granted ops) := by
  refine ⟨fun calls => Run.calls_eq _ calls, fun ops => ?_⟩
  have hsound : Sound (run label initialDemand ops).consumer :=
    (sound_start label initialDemand).afterAll ops
  refine ⟨hsound.received, hsound.events_eq_iff, values_afterAll rfl ops,
    fun later => ⟨fun hterm => ?_, ?_⟩, ?_⟩
  · have hfrozen := frozen_afterAll hterm later
    rwa [run, ← Run.afterAll_append] at hfrozen
  · exact hasPassed_run_append
  · rintro before h after rfl hoffer hend hlimit
    obtain ⟨htotal, hbalance⟩ := amountTo_run label hoffer hend hlimit
    exact ⟨htotal, fun hfront => (hbalance hfront).trans htotal⟩

/-- Demand from before the producer came, an item that it delivers when it is asked, and an item
that is asked for when that one is handed on. -/
def nestedCalls : List (Invocation Nat Nat Unit) :=
  [.of (.demand (.request 2)) [],
    .of (.subscribed 7)
      [.of (.deliver (.next 10)) [.of (.demand (.request 1)) [.of (.deliver (.next 11)) []]]],
    .of (.record false) [], .of (.deliver .complete) []]

theorem run_accounts_nested :
    let r := (Run.start "consumer" 1).calls nestedCalls
    r.consumer.values = [10, 11] ∧ r.consumer.events = r.consumer.received + 1 ∧
      amountTo 7 r.asked = 4 ∧ r.consumer.outstanding + r.consumer.received = 4 ∧
      (run "consumer" 1 (operationsOf nestedCalls ++ [.record true])).consumer.hasPassed =
        false := by
  obtain ⟨hcalls, hops⟩ := run_accounts (ι := Nat) (η := Nat) (φ := Unit) "consumer" 1
  obtain ⟨-, hevents, hvalues, hlater, hdemand⟩ := hops (operationsOf nestedCalls)
  rw [hcalls nestedCalls]
  obtain ⟨hamount, hbalance⟩ := hdemand [.demand (.request 2)] 7
    [.deliver (.next 10), .demand (.request 1), .deliver (.next 11), .record false,
      .deliver .complete] rfl (by simp [Operation.isOffer]) (by simp [Operation.terminal?])
    (by decide)
  refine ⟨hvalues, hevents.mpr (Or.inl rfl), hamount, hbalance fun front hfront => ?_,
    (hlater [.record true]).2 (by decide) rfl⟩
  rw [← List.mem_inits] at hfront
  have hall : ∀ front ∈ (operationsOf nestedCalls).inits,
      (run "consumer" 1 front).consumer.received ≤
        amountTo 7 (run "consumer" 1 front).asked := by
    decide
  exact hall front hfront

end Consumer
end StreamConformance
