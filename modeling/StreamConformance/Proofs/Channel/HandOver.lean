import StreamConformance.Proofs.Channel.Credit
import StreamConformance.Proofs.Channel.SignalOrder

/-!
# The initial payload and the demand behind it

The first demand of the peer of a scripted producer brings out the initial payload.  One unit of
it is used up by that; what is left, and what the peer asks for while the initial payload is being
delivered, is handed over to the emitter when the delivery is settled, and what the peer asks for
later is passed on at once.  `demand_handOver` says that no unit of demand is lost or used twice by
this, for every interleaving of the peer's calls with each other and with the script, and for every
nesting of calls.

A run goes through the phases of `HandOver`.  `HandOver.step` says that each step leads from a
phase to the same or to the next one; most steps have nothing to do with it (`HandOver.neutral`),
and each of the others has a lemma of its own.
-/

namespace StreamConformance

open Crew (Mark)

variable {ι σ τ : Type} {env : Environment σ τ} {rules : Crew.Rules ι σ τ}
  {script : ι} {i : Nat} {r : Handle} {p0 : Payload} {l m : List Mark} {c d : Crew ι σ τ} {k : ι}

/-- The items that a script has sent, by the record of a run. -/
def sentItems (l : List Mark) : List Payload :=
  l.filterMap Mark.item?

theorem sentItems_append (l m : List Mark) : sentItems (l ++ m) = sentItems l ++ sentItems m :=
  List.filterMap_append

/-! ## Stacks -/

/-- What is true of the tasks of some threads stays true if one thread goes on with other tasks. -/
theorem forall_mem_stack_update [DecidableEq ι] {P : Task τ → Prop} {threads : ι → Prop}
    {ts : List (Task τ)} (h : ∀ k', threads k' → ∀ t ∈ c.stack k', P t)
    (hs : d.stack = Function.update c.stack k ts) (hts : threads k → ∀ t ∈ ts, P t) :
    ∀ k', threads k' → ∀ t ∈ d.stack k', P t := by
  intro k' hk'
  rw [hs]
  by_cases hkk : k' = k
  · subst hkk
    rw [Function.update_self]
    exact hts hk'
  · rw [Function.update_of_ne hkk]
    exact h k' hk'

theorem forall_stack_update [DecidableEq ι] {P : Task τ → Prop} {ts : List (Task τ)}
    (h : ∀ k', ∀ t ∈ c.stack k', P t) (hs : d.stack = Function.update c.stack k ts)
    (hts : ∀ t ∈ ts, P t) : ∀ k', ∀ t ∈ d.stack k', P t := fun k' =>
  forall_mem_stack_update (fun k' (_ : True) => h k') hs (fun _ => hts) k' trivial

/-- Once the script goes on, at most one item is on its way to the peer; it is what the script
does next.  No delivery is to be settled any more. -/
structure Flight (script : ι) (i : Nat) (r : Handle) (flight : Option Payload)
    (c : Crew ι σ τ) : Prop where
  front : ∃ rest, c.stack script =
      (flight.map fun item => .tell (.heard r (.next item))).toList ++ rest ∧
    ∀ t ∈ rest, Silent i r t
  others : ∀ k, k ≠ script → ∀ t ∈ c.stack k, Silent i r t

namespace Flight

variable {flight : Option Payload} {item : Payload} {ts rest : List (Task τ)}

/-- Nothing is on its way. -/
theorem of_forall (h : ∀ k, ∀ t ∈ c.stack k, Silent i r t) : Flight script i r none c :=
  ⟨⟨c.stack script, rfl, h script⟩, fun k _ => h k⟩

/-- A task that is not silent is what delivers the item that is on its way. -/
theorem eq_of_not_silent (h : Flight script i r flight c) {t : Task τ} (ht : ¬ Silent i r t)
    (hmem : t ∈ c.stack k) :
    k = script ∧ ∃ item rest, flight = some item ∧ t = .tell (.heard r (.next item)) ∧
      c.stack k = t :: rest ∧ ∀ t ∈ rest, Silent i r t := by
  by_cases hk : k = script
  · subst hk
    obtain ⟨rest, hs, hrest⟩ := h.front
    rw [hs, List.mem_append] at hmem
    rcases hmem with hmem | hmem
    · obtain ⟨item, hitem, rfl⟩ := Option.map_eq_some_iff.mp (Option.mem_toList.mp hmem)
      exact ⟨rfl, item, rest, hitem, rfl, by rw [hs, hitem]; rfl, hrest⟩
    · exact absurd (hrest t hmem) ht
  · exact absurd (h.others k hk t hmem) ht

/-- A thread whose next task is silent has nothing on its way. -/
theorem silent_of_head (h : Flight script i r flight c) {t : Task τ} (hk : c.stack k = t :: rest)
    (ht : Silent i r t) : ∀ t ∈ c.stack k, Silent i r t := by
  intro t' ht'
  by_contra hnot
  obtain ⟨-, item, rest', -, -, hk', -⟩ := h.eq_of_not_silent hnot ht'
  obtain ⟨rfl, -⟩ := List.cons.inj (hk.symm.trans hk')
  exact hnot ht

variable [DecidableEq ι]

/-- A thread with nothing on its way goes on. -/
theorem update (h : Flight script i r flight c) (hs : d.stack = Function.update c.stack k ts)
    (hk : ∀ t ∈ c.stack k, Silent i r t) (hts : ∀ t ∈ ts, Silent i r t) :
    Flight script i r flight d := by
  refine ⟨?_, forall_mem_stack_update h.others hs fun _ => hts⟩
  by_cases hkk : k = script
  · subst hkk
    obtain ⟨rest, hrest, -⟩ := h.front
    cases flight with
    | none => exact ⟨ts, by rw [hs, Function.update_self]; rfl, hts⟩
    | some item =>
      have hmem : .tell (.heard r (.next item)) ∈ c.stack k := hrest ▸ List.mem_cons_self
      exact absurd rfl ((hk _ hmem).heard item)
  · rw [hs, Function.update_of_ne (Ne.symm hkk)]
    exact h.front

/-- The script sends an item. -/
theorem launch (h : Flight script i r flight c)
    (hs : d.stack = Function.update c.stack script [.tell (.heard r (.next item))]) :
    Flight script i r (some item) d :=
  ⟨⟨[], by rw [hs, Function.update_self]; rfl, by simp⟩,
    forall_mem_stack_update h.others hs fun hne => absurd rfl hne⟩

/-- The peer is told the item. -/
theorem land (h : Flight script i r flight c) (hs : d.stack = Function.update c.stack script ts)
    (hts : ∀ t ∈ ts, Silent i r t) : Flight script i r none d :=
  ⟨⟨ts, by rw [hs, Function.update_self]; rfl, hts⟩,
    forall_mem_stack_update h.others hs fun hne => absurd rfl hne⟩

end Flight

/-! ## The phases of a run -/

/-- Where a run is, whose record is `l`. -/
inductive HandOver (script : ι) (i : Nat) (r : Handle) (p0 : Payload) (l : List Mark)
    (c : Crew ι σ τ) : Prop where
  /-- The peer has not asked for anything. -/
  | waiting (hproducer : ProducerAt i r (.pending p0) 0 c.exchange) (hgranted : c.granted i = 0)
      (hsent : sentItems l = []) (hitems : c.items r = [])
      (hplain : ∀ k, ∀ t ∈ c.stack k, Plain i r t)
  /-- Thread `k` is about to deliver the initial payload, for a demand of `n`. -/
  | delivering {k : ι} {n deferred : Nat} {rest : List (Task τ)}
      (hproducer : ProducerAt i r (.emitting deferred) 0 c.exchange) (hn : n ≠ 0)
      (hbalance : Balance l (c.granted i) (n + deferred)) (hsent : sentItems l = [])
      (hitems : c.items r = [])
      (hstack : c.stack k = .tell (.heard r (.next p0)) :: .settle i n :: rest)
      (hrest : ∀ t ∈ rest, Plain i r t)
      (hothers : ∀ k', k' ≠ k → ∀ t ∈ c.stack k', Plain i r t)
  /-- The peer has been told the initial payload, and the call has not returned to thread `k`. -/
  | settling {k : ι} {n deferred : Nat} {front rest : List (Task τ)}
      (hproducer : ProducerAt i r (.emitting deferred) 0 c.exchange) (hn : n ≠ 0)
      (hbalance : Balance l (c.granted i) (n + deferred)) (hsent : sentItems l = [])
      (hitems : c.items r = [p0]) (hstack : c.stack k = front ++ .settle i n :: rest)
      (hfront : ∀ t ∈ front, Plain i r t) (hrest : ∀ t ∈ rest, Plain i r t)
      (hothers : ∀ k', k' ≠ k → ∀ t ∈ c.stack k', Plain i r t)
  /-- The call never returned. -/
  | stuck {deferred : Nat} (hproducer : ProducerAt i r (.emitting deferred) 0 c.exchange)
      (hgranted : 0 < c.granted i) (hsent : sentItems l = []) (hitems : c.items r = [p0])
      (hpanicked : .panicked ∈ l) (hplain : ∀ k, ∀ t ∈ c.stack k, Plain i r t)
  /-- The initial payload has been delivered, and demand goes to the emitter. -/
  | flowing {demand total : Nat} {flight : Option Payload}
      (hproducer : ProducerAt i r .sent demand c.exchange)
      (hbalance : Balance l (c.granted i) (1 + (sentItems l).length + demand + total))
      (howes : c.Owes i total) (hitems : c.items r ++ flight.toList = p0 :: sentItems l)
      (hsettled : ∃ n, .settle i n ∈ c.done) (hflight : Flight script i r flight c)

namespace HandOver

theorem producer (h : HandOver script i r p0 l c) :
    ∃ initial demand, ProducerAt i r initial demand c.exchange := by
  cases h with
  | waiting hproducer | delivering hproducer | settling hproducer | stuck hproducer
  | flowing hproducer => exact ⟨_, _, hproducer⟩

end HandOver

/-! ### Steps that have nothing to do with it -/

variable [DecidableEq ι]

namespace PlainTurn

variable (h : PlainTurn i r k c d)
include h

theorem stack_eq : ∃ ts, d.stack = Function.update c.stack k ts ∧
    ∀ t ∈ ts, t ∈ c.stack k ∨ Plain i r t := by
  obtain ⟨new, rest, hnew, hs, hold⟩ := h
  refine ⟨new ++ rest, hs, fun t ht => ?_⟩
  rcases List.mem_append.mp ht with ht | ht
  · exact Or.inr (hnew t ht)
  · rcases hold with ⟨t', -, hk⟩ | ⟨-, rfl⟩
    · exact Or.inl (hk ▸ List.mem_cons_of_mem _ ht)
    · cases ht

/-- Threads with plain tasks keep plain tasks. -/
theorem plain {threads : ι → Prop} (hplain : ∀ k', threads k' → ∀ t ∈ c.stack k', Plain i r t) :
    ∀ k', threads k' → ∀ t ∈ d.stack k', Plain i r t := by
  obtain ⟨ts, hs, hts⟩ := h.stack_eq
  exact forall_mem_stack_update hplain hs fun hk t ht => (hts t ht).elim (hplain k hk t) id

theorem forall_plain (hplain : ∀ k', ∀ t ∈ c.stack k', Plain i r t) :
    ∀ k', ∀ t ∈ d.stack k', Plain i r t := fun k' =>
  h.plain (fun k' (_ : True) => hplain k') k' trivial

/-- A thread whose next task is not plain does not move. -/
theorem head {k' : ι} {t : Task τ} {rest : List (Task τ)} (hk' : c.stack k' = t :: rest)
    (ht : ¬ Plain i r t) : k' ≠ k ∧ d.stack k' = c.stack k' := by
  obtain ⟨new, rest', -, hs, hold⟩ := h
  have hne : k' ≠ k := by
    rintro rfl
    rcases hold with ⟨t', ht', hk⟩ | ⟨hk, -⟩
    · rw [hk'] at hk
      obtain ⟨rfl, -⟩ := List.cons.inj hk
      exact ht ht'
    · rw [hk'] at hk
      cases hk
  exact ⟨hne, by rw [hs, Function.update_of_ne hne]⟩

/-- What stands behind plain tasks stays where it is. -/
theorem behind {k' : ι} {t : Task τ} {front rest : List (Task τ)} (ht : ¬ Plain i r t)
    (hk' : c.stack k' = front ++ t :: rest) (hfront : ∀ t ∈ front, Plain i r t) :
    ∃ front', d.stack k' = front' ++ t :: rest ∧ ∀ t ∈ front', Plain i r t := by
  cases front with
  | nil =>
    obtain ⟨-, hd⟩ := h.head hk' ht
    exact ⟨[], hd.trans hk', by simp⟩
  | cons t' front =>
    obtain ⟨new, rest', hnew, hs, hold⟩ := h
    by_cases hkk : k' = k
    · subst hkk
      rw [hk', List.cons_append] at hold
      rcases hold with ⟨t'', -, hk⟩ | ⟨hk, -⟩
      · obtain ⟨rfl, rfl⟩ := List.cons.inj hk
        refine ⟨new ++ front, by rw [hs, Function.update_self, List.append_assoc], fun s hs => ?_⟩
        rcases List.mem_append.mp hs with hs | hs
        · exact hnew s hs
        · exact hfront s (List.mem_cons_of_mem _ hs)
      · cases hk
    · exact ⟨t' :: front, by rw [hs, Function.update_of_ne hkk, hk'], hfront⟩

theorem owes {total : Nat} (howes : c.Owes i total) : d.Owes i total := by
  obtain ⟨new, rest, hnew, hs, hold⟩ := h
  obtain ⟨others, rfl, hd⟩ := howes.update hs
  have hkeep : owed i (new ++ rest) = owed i (c.stack k) := by
    rw [owed_append, Plain.owed_eq_zero hnew, Nat.zero_add]
    rcases hold with ⟨t, ht, hk⟩ | ⟨hk, rfl⟩
    · rw [hk, owed_cons, ht.owed_eq, Nat.zero_add]
    · rw [hk]
  rwa [hkeep] at hd

theorem flight {flight : Option Payload} (hflight : Flight script i r flight c) :
    Flight script i r flight d := by
  obtain ⟨ts, hs, hts⟩ := h.stack_eq
  have hold : ∀ t ∈ c.stack k, Silent i r t := by
    intro t ht
    by_contra hnot
    obtain ⟨-, item, rest, -, -, hk, -⟩ := hflight.eq_of_not_silent hnot ht
    exact (h.head hk fun hp => hnot hp.toSilent).1 rfl
  exact hflight.update hs hold fun t ht => (hts t ht).elim (hold t) Plain.toSilent

end PlainTurn

theorem Neutral.sentItems_eq (h : Neutral i r m k c d) : sentItems (l ++ m) = sentItems l := by
  rw [sentItems_append, sentItems, sentItems, h.mark, List.append_nil]

theorem not_silent_settle (n : Nat) : ¬ Silent i r (.settle i n : Task τ) :=
  fun h => h.settle n rfl

theorem not_silent_heard (item : Payload) :
    ¬ Silent i r (.tell (.heard r (.next item)) : Task τ) :=
  fun h => h.heard item rfl

theorem not_plain_settle (n : Nat) : ¬ Plain i r (.settle i n : Task τ) :=
  mt Plain.toSilent (not_silent_settle n)

theorem not_plain_heard (item : Payload) :
    ¬ Plain i r (.tell (.heard r (.next item)) : Task τ) :=
  mt Plain.toSilent (not_silent_heard item)

theorem HandOver.neutral (h : HandOver script i r p0 l c) (hn : Neutral i r m k c d) :
    HandOver script i r p0 (l ++ m) d := by
  cases h with
  | waiting hproducer hgranted hsent hitems hplain =>
    exact .waiting (hn.producer hproducer) (hn.granted.trans hgranted)
      (hn.sentItems_eq.trans hsent) (hn.items.trans hitems) (hn.stack.forall_plain hplain)
  | delivering hproducer hne hbalance hsent hitems hstack hrest hothers =>
    refine .delivering (hn.producer hproducer) hne (hn.granted ▸ hbalance.mark m)
      (hn.sentItems_eq.trans hsent) (hn.items.trans hitems) ?_ hrest (hn.stack.plain hothers)
    rw [(hn.stack.head hstack (not_plain_heard p0)).2, hstack]
  | settling hproducer hne hbalance hsent hitems hstack hfront hrest hothers =>
    obtain ⟨front', hstack', hfront'⟩ := hn.stack.behind (not_plain_settle _) hstack hfront
    exact .settling (hn.producer hproducer) hne (hn.granted ▸ hbalance.mark m)
      (hn.sentItems_eq.trans hsent) (hn.items.trans hitems) hstack' hfront' hrest
      (hn.stack.plain hothers)
  | stuck hproducer hgranted hsent hitems hpanicked hplain =>
    exact .stuck (hn.producer hproducer) (hn.granted ▸ hgranted) (hn.sentItems_eq.trans hsent)
      (hn.items.trans hitems) (List.mem_append_left m hpanicked) (hn.stack.forall_plain hplain)
  | flowing hproducer hbalance howes hitems hsettled hflight =>
    obtain ⟨n, hdone⟩ := hsettled
    refine .flowing (hn.producer hproducer) ?_ (hn.stack.owes howes) ?_ ⟨n, hn.done.subset hdone⟩
      (hn.stack.flight hflight)
    · rw [hn.sentItems_eq, hn.granted]
      exact hbalance.mark m
    · rw [hn.sentItems_eq, hn.items]
      exact hitems

/-! ### The other steps -/

namespace HandOver

variable {rest : List (Task τ)}

theorem panic (h : HandOver script i r p0 l c) {p : Panic}
    (hk : c.stack k = .call (.raise p) :: rest) :
    HandOver script i r p0 (l ++ [.panicked]) (c.turn k [] c.exchange) := by
  have hsentItems : sentItems (l ++ [.panicked]) = sentItems l := by
    rw [sentItems_append]
    exact List.append_nil _
  have hstack : (c.turn k [] c.exchange).stack = Function.update c.stack k [] := rfl
  have hpanicked : Mark.panicked ∈ l ++ [.panicked] :=
    List.mem_append_right l (List.mem_singleton_self _)
  have hall : (∀ k', ∀ t ∈ c.stack k', Plain i r t) →
      ∀ k', ∀ t ∈ (c.turn k [] c.exchange).stack k', Plain i r t := fun hplain =>
    forall_stack_update hplain hstack (by simp)
  cases h with
  | waiting hproducer hgranted hsent hitems hplain =>
    exact .waiting hproducer hgranted (hsentItems.trans hsent) hitems (hall hplain)
  | @delivering k' n _ _ hproducer hne hbalance hsent hitems hstack' hrest hothers =>
    have hkk : k' ≠ k := by
      rintro rfl
      rw [hk] at hstack'
      cases hstack'
    refine .delivering hproducer hne (hbalance.mark _) (hsentItems.trans hsent) hitems ?_ hrest
      (forall_mem_stack_update hothers hstack (by simp))
    rw [hstack, Function.update_of_ne hkk, hstack']
  | @settling k' n _ _ _ hproducer hne hbalance hsent hitems hstack' hfront hrest hothers =>
    by_cases hkk : k' = k
    · subst hkk
      -- The call that the panic ends is the one that was to settle the delivery.
      refine .stuck hproducer (Nat.lt_of_lt_of_le (by omega) hbalance.le) (hsentItems.trans hsent)
        hitems hpanicked fun k => ?_
      by_cases hkk : k = k'
      · subst hkk
        rw [hstack, Function.update_self]
        simp
      · rw [hstack, Function.update_of_ne hkk]
        exact hothers k hkk
    · refine .settling hproducer hne (hbalance.mark _) (hsentItems.trans hsent) hitems ?_ hfront
        hrest (forall_mem_stack_update hothers hstack (by simp))
      rw [hstack, Function.update_of_ne hkk, hstack']
  | stuck hproducer hgranted hsent hitems _ hplain =>
    exact .stuck hproducer hgranted (hsentItems.trans hsent) hitems hpanicked (hall hplain)
  | flowing hproducer hbalance howes hitems hsettled hflight =>
    obtain ⟨others, rfl, howes'⟩ := howes.update hstack
    refine .flowing hproducer ?_ howes' ?_ hsettled
      (hflight.update hstack (hflight.silent_of_head hk (Plain.call _).toSilent) (by simp))
    · rw [hsentItems]
      exact hbalance.panic (by simp [owed])
    · rw [hsentItems]
      exact hitems

theorem stack_work (env : Environment σ τ) (k : ι) {t : Task τ} (rest : List (Task τ))
    {new : List (Task τ)} (hnew : (c.exchange.perform env t).2 = new) :
    (c.work env k t rest).stack = Function.update c.stack k (new ++ rest) := by
  rw [← hnew]
  rfl

/-- The peer asks for more. -/
theorem request (h : HandOver script i r p0 l c) {n : Nat} (hn : n ≠ 0)
    (hk : c.stack k = .call (.ask i (.request n)) :: rest) :
    HandOver script i r p0 l (c.work env k (.call (.ask i (.request n))) rest) := by
  have hgranted : (c.work env k (.call (.ask i (.request n))) rest).granted i =
      c.granted i + n := by
    rw [Crew.granted_work]
    exact congrArg _ (if_pos rfl)
  have hitems' : (c.work env k (.call (.ask i (.request n))) rest).items r = c.items r :=
    Crew.items_work_of_ne env k rest c (by simp)
  have hmem : ∀ t ∈ rest, t ∈ c.stack k := fun t ht => hk ▸ List.mem_cons_of_mem _ ht
  -- While the initial payload is being delivered, demand is set aside, and nothing else happens.
  have hturn : (c.exchange.perform env (.call (.ask i (.request n)))).2 = [] →
      PlainTurn i r k c (c.work env k (.call (.ask i (.request n))) rest) := fun hnew =>
    .of_work hk (.call _) (by simp [hnew])
  cases h with
  | waiting hproducer hzero hsent hitems hplain =>
    obtain ⟨hproducer', hnew⟩ := hproducer.request env n
    rw [InitialPayload.request_pending hn] at hproducer' hnew
    refine .delivering (k := k) hproducer' hn ⟨by omega, fun _ _ => by omega⟩ hsent
      (hitems'.trans hitems) (by rw [Crew.stack_work_self, hnew]; rfl)
      (fun t ht => hplain k t (hmem t ht)) fun k' hk' => ?_
    rw [Crew.stack_work_of_ne _ _ _ _ hk']
    exact hplain k'
  | delivering hproducer hne hbalance hsent hitems hstack hrest hothers =>
    obtain ⟨hproducer', hnew⟩ := hproducer.request env n
    rw [InitialPayload.request_emitting hn] at hproducer' hnew
    have hstays := ((hturn hnew).head hstack (not_plain_heard p0)).2
    exact .delivering hproducer' hne (hgranted ▸ hbalance.setAside n) hsent
      (hitems'.trans hitems) (hstays.trans hstack) hrest ((hturn hnew).plain hothers)
  | settling hproducer hne hbalance hsent hitems hstack hfront hrest hothers =>
    obtain ⟨hproducer', hnew⟩ := hproducer.request env n
    rw [InitialPayload.request_emitting hn] at hproducer' hnew
    obtain ⟨front', hstack', hfront'⟩ :=
      (hturn hnew).behind (not_plain_settle _) hstack hfront
    exact .settling hproducer' hne (hgranted ▸ hbalance.setAside n) hsent (hitems'.trans hitems)
      hstack' hfront' hrest ((hturn hnew).plain hothers)
  | stuck hproducer hpos hsent hitems hpanicked hplain =>
    obtain ⟨hproducer', hnew⟩ := hproducer.request env n
    rw [InitialPayload.request_emitting hn] at hproducer' hnew
    exact .stuck hproducer' (by omega) hsent (hitems'.trans hitems) hpanicked
      ((hturn hnew).forall_plain hplain)
  | @flowing demand total flight hproducer hbalance howes hitems hsettled hflight =>
    obtain ⟨hproducer', hnew⟩ := hproducer.request env n
    rw [InitialPayload.request_sent hn] at hproducer' hnew
    obtain ⟨others, rfl, howes'⟩ := howes.update (stack_work env k rest hnew)
    have hmore : others + owed i ([.passOn i (.request n)] ++ rest) =
        others + owed i (c.stack k) + n := by
      have hold : owed i (.call (.ask i (.request n)) :: rest) = owed i rest := Nat.zero_add _
      rw [owed_append, owed_passOn, hk, hold]
      omega
    obtain ⟨n', hdone⟩ := hsettled
    have hsilent := hflight.silent_of_head hk (Plain.call _).toSilent
    refine .flowing hproducer' ?_ howes' (hitems' ▸ hitems) ⟨n', List.mem_append_left _ hdone⟩
      (hflight.update (stack_work env k rest hnew) hsilent fun t ht => ?_)
    · rw [hgranted, hmore, ← Nat.add_assoc]
      exact hbalance.grant n
    · rcases List.mem_cons.mp ht with rfl | ht
      · exact .passOn i _
      · exact hsilent t (hmem t ht)

section

omit [DecidableEq ι]

theorem mem_of_pending {t : Task τ} (hothers : ∀ j, j ≠ k → ∀ t ∈ c.stack j, Plain i r t)
    (ht : ¬ Plain i r t) (h : c.Pending t) : t ∈ c.stack k := by
  obtain ⟨j, hj⟩ := h
  by_cases hjk : j = k
  · exact hjk ▸ hj
  · exact absurd (hothers j hjk t hj) ht

/-- If all tasks but one are plain, a thread whose next task is not plain is about to perform that
one. -/
theorem eq_of_not_plain {k' : ι} {t t' : Task τ} {rest' : List (Task τ)}
    (front : List (Task τ)) (hk : c.stack k = t :: rest) (ht : ¬ Plain i r t)
    (hstack : c.stack k' = front ++ t' :: rest') (hfront : ∀ t ∈ front, Plain i r t)
    (hothers : ∀ j, j ≠ k' → ∀ t ∈ c.stack j, Plain i r t) :
    k = k' ∧ front = [] ∧ t = t' ∧ rest = rest' := by
  have hmem : t ∈ c.stack k := hk ▸ List.mem_cons_self
  by_cases hkk : k = k'
  · subst hkk
    rw [hk] at hstack
    cases front with
    | nil =>
      obtain ⟨rfl, rfl⟩ := List.cons.inj hstack
      exact ⟨rfl, rfl, rfl, rfl⟩
    | cons s front =>
      obtain ⟨rfl, -⟩ := List.cons.inj hstack
      exact absurd (hfront _ List.mem_cons_self) ht
  · exact absurd (hothers k hkk t hmem) ht

end

/-- The peer is told an item. -/
theorem hear (h : HandOver script i r p0 l c) {item : Payload}
    (hk : c.stack k = .tell (.heard r (.next item)) :: rest) :
    HandOver script i r p0 l (c.work env k (.tell (.heard r (.next item))) rest) := by
  have hhead : .tell (.heard r (.next item)) ∈ c.stack k := hk ▸ List.mem_cons_self
  have hgranted : (c.work env k (.tell (.heard r (.next item))) rest).granted i = c.granted i :=
    Crew.granted_work ..
  have hitems' : (c.work env k (.tell (.heard r (.next item))) rest).items r =
      c.items r ++ [item] := by
    rw [Crew.items_work, Crew.signal?_heard]
    rfl
  have hstack' := stack_work env k (c := c) rest (t := .tell (.heard r (.next item))) rfl
  -- The peer answers with calls.
  have hcalls : ∀ t ∈ (c.exchange.perform env (.tell (.heard r (.next item)))).2,
      Plain i r t := by
    intro t ht
    obtain ⟨cl, -, rfl⟩ := List.mem_map.mp ht
    exact .call cl
  cases h with
  | waiting _ _ _ _ hplain | stuck _ _ _ _ _ hplain =>
    exact absurd (hplain k _ hhead) (not_plain_heard item)
  | delivering hproducer hne hbalance hsent hitems hstack hrest hothers =>
    obtain ⟨rfl, -, hitem, rfl⟩ :=
      eq_of_not_plain [] hk (not_plain_heard item) hstack (by simp) hothers
    cases hitem
    exact .settling (hproducer.congr rfl) hne (hgranted ▸ hbalance) hsent
      (by rw [hitems', hitems]; rfl) (Crew.stack_work_self ..) hcalls hrest
      (forall_mem_stack_update hothers hstack' fun hk => absurd rfl hk)
  | settling _ _ _ _ _ hstack hfront _ hothers =>
    obtain ⟨-, -, hitem, -⟩ := eq_of_not_plain _ hk (not_plain_heard item) hstack hfront hothers
    cases hitem
  | flowing hproducer hbalance howes hitems hsettled hflight =>
    obtain ⟨rfl, item', rest', rfl, hitem, hk', hrest⟩ :=
      hflight.eq_of_not_silent (not_silent_heard item) hhead
    cases hitem
    obtain ⟨-, rfl⟩ := List.cons.inj (hk.symm.trans hk')
    obtain ⟨others, rfl, howes'⟩ := howes.update hstack'
    have hkeep : owed i ((c.exchange.perform env (.tell (.heard r (.next item)))).2 ++ rest) =
        owed i (c.stack k) := by
      rw [owed_append, Plain.owed_eq_zero hcalls, hk, owed_cons]
      rfl
    rw [hkeep] at howes'
    obtain ⟨n, hdone⟩ := hsettled
    refine .flowing (hproducer.congr rfl) (hgranted ▸ hbalance) howes' ?_
      ⟨n, List.mem_append_left _ hdone⟩ (hflight.land hstack' fun t ht => ?_)
    · rw [hitems', ← hitems]
      exact List.append_nil _
    · exact (List.mem_append.mp ht).elim (fun ht => (hcalls t ht).toSilent) (hrest t)

/-- The delivery of the initial payload is settled. -/
theorem settle (h : HandOver script i r p0 l c) {n : Nat} (hk : c.stack k = .settle i n :: rest) :
    HandOver script i r p0 l (c.work env k (.settle i n) rest) := by
  have hhead : .settle i n ∈ c.stack k := hk ▸ List.mem_cons_self
  cases h with
  | waiting _ _ _ _ hplain | stuck _ _ _ _ _ hplain =>
    exact absurd (hplain k _ hhead) (not_plain_settle n)
  | flowing _ _ _ _ _ hflight =>
    obtain ⟨-, _, _, -, hitem, -⟩ := hflight.eq_of_not_silent (not_silent_settle n) hhead
    cases hitem
  | delivering _ _ _ _ _ hstack _ hothers =>
    obtain ⟨-, -, hitem, -⟩ :=
      eq_of_not_plain [] hk (not_plain_settle n) hstack (by simp) hothers
    cases hitem
  | @settling _ _ deferred _ _ hproducer hne hbalance hsent hitems hstack hfront hrest hothers =>
    obtain ⟨rfl, rfl, hsettle, rfl⟩ :=
      eq_of_not_plain _ hk (not_plain_settle n) hstack hfront hothers
    cases hsettle
    obtain ⟨hproducer', hnew⟩ := hproducer.settle env n
    have hsettle : InitialPayload.settle n (.emitting deferred) =
        (.sent, Demand.add (n - 1) deferred) := rfl
    rw [hsettle] at hproducer' hnew
    have hstack' := stack_work env k rest hnew
    have howes : c.Owes i 0 := Crew.owes_of_forall fun k' => by
      by_cases hkk : k' = k
      · rw [hkk, hk, owed_cons, Plain.owed_eq_zero hrest]
        rfl
      · exact Plain.owed_eq_zero (hothers k' hkk)
    obtain ⟨others, hzero, howes'⟩ := howes.update hstack'
    obtain rfl : others = 0 := by omega
    have hpassed : owed i ((if 0 < Demand.add (n - 1) deferred then
        [.passOn i (.request (Demand.add (n - 1) deferred))] else []) ++ rest) =
        Demand.add (n - 1) deferred := by
      rw [owed_append, Plain.owed_eq_zero hrest, Nat.add_zero]
      split
      · exact owed_passOn _
      · exact (Nat.eq_zero_of_not_pos ‹_›).symm
    rw [Nat.zero_add] at howes'
    refine .flowing hproducer' ?_ howes' ?_
      ⟨n, List.mem_append_right _ (List.mem_singleton_self _)⟩ (.of_forall fun k' => ?_)
    · -- One unit of the first demand is used up by the initial payload.
      have hsplit : n + deferred = 1 + (n - 1 + deferred) := by omega
      rw [hsplit] at hbalance
      rw [hpassed, hsent, Crew.granted_work]
      exact hbalance.add
    · rw [Crew.items_work, hitems, hsent]
      rfl
    · rw [hstack']
      by_cases hkk : k' = k
      · subst hkk
        rw [Function.update_self]
        intro t ht
        rcases List.mem_append.mp ht with ht | ht
        · split at ht
          · exact List.mem_singleton.mp ht ▸ .passOn i _
          · cases ht
        · exact (hrest t ht).toSilent
      · rw [Function.update_of_ne hkk]
        exact fun t ht => (hothers k' hkk t ht).toSilent

/-- Demand reaches the emitter. -/
theorem passOn (h : HandOver script i r p0 l c) {n : Nat}
    (hk : c.stack k = .passOn i (.request n) :: rest) :
    HandOver script i r p0 l (c.work env k (.passOn i (.request n)) rest) := by
  have hhead : .passOn i (.request n) ∈ c.stack k := hk ▸ List.mem_cons_self
  have hnot : ¬ Plain i r (.passOn i (.request n) : Task τ) := fun h => h.passOn n rfl
  cases h with
  | waiting _ _ _ _ hplain | stuck _ _ _ _ _ hplain => exact absurd (hplain k _ hhead) hnot
  | delivering _ _ _ _ _ hstack _ hothers =>
    obtain ⟨-, -, htask, -⟩ := eq_of_not_plain [] hk hnot hstack (by simp) hothers
    cases htask
  | settling _ _ _ _ _ hstack hfront _ hothers =>
    obtain ⟨-, -, htask, -⟩ := eq_of_not_plain _ hk hnot hstack hfront hothers
    cases htask
  | @flowing demand _ flight hproducer hbalance howes hitems hsettled hflight =>
    obtain ⟨hproducer', hnew⟩ := hproducer.passOn env n
    have hstack' := stack_work env k rest hnew
    obtain ⟨others, rfl, howes'⟩ := howes.update hstack'
    have hsilent := hflight.silent_of_head hk (.passOn i _)
    obtain ⟨n', hdone⟩ := hsettled
    refine .flowing hproducer' ?_ howes' ?_ ⟨n', List.mem_append_left _ hdone⟩
      (hflight.update hstack' hsilent fun t ht => hsilent t (hk ▸ List.mem_cons_of_mem _ ht))
    · have hpassed : owed i (c.stack k) = n + owed i rest := by
        rw [hk, ← List.singleton_append, owed_append, owed_passOn]
      have hsplit : 1 + (sentItems l).length + demand + (others + owed i (c.stack k)) =
          1 + (sentItems l).length + (others + owed i rest) + (demand + n) := by
        omega
      rw [hsplit] at hbalance
      have hadd := hbalance.add
      rw [Nat.add_right_comm] at hadd
      rw [Crew.granted_work]
      exact hadd
    · rw [Crew.items_work_of_ne env k rest c (by simp), hitems]

/-- The script sends an item. -/
theorem emit (h : HandOver script i r p0 l c) {p : ScriptedProducer} {emitter : Emitter}
    {item : Payload} (hk : c.stack script = []) (hp : c.exchange.scripted? i = some p)
    (hs : p.emitter.emit (.next item) = .sent emitter) :
    HandOver script i r p0 (l ++ [.sent (.next item)])
      (c.turn script (c.exchange.send i p emitter (.next item)).2
        (c.exchange.send (τ := τ) i p emitter (.next item)).1) := by
  have hdemand : p.emitter.demand = 1 + emitter.demand := Emitter.demand_of_sent hs
  cases h with
  | waiting hproducer | delivering hproducer | settling hproducer | stuck hproducer =>
    -- Before the initial payload has been delivered, the emitter holds no demand.
    obtain ⟨q, hq, -, -, hzero⟩ := hproducer
    obtain rfl : p = q := Option.some.inj (hp.symm.trans hq)
    omega
  | @flowing demand total flight hproducer hbalance howes hitems hsettled hflight =>
    obtain ⟨q, hq, hr, hinitial, hq'⟩ := hproducer
    obtain rfl : p = q := Option.some.inj (hp.symm.trans hq)
    obtain ⟨hp', hnew⟩ := Exchange.send_of_scripted? (τ := τ) hp emitter (.next item)
    have hstack' : (c.turn script (c.exchange.send i p emitter (.next item)).2
        (c.exchange.send (τ := τ) i p emitter (.next item)).1).stack =
        Function.update c.stack script [.tell (.heard r (.next item))] := by
      rw [hnew, hr]
      rfl
    obtain ⟨others, rfl, howes'⟩ := howes.update hstack'
    have hnone : flight = none := by
      obtain ⟨rest, hrest, -⟩ := hflight.front
      rw [hk] at hrest
      cases flight with
      | none => rfl
      | some item => cases hrest
    subst hnone
    have hsent : sentItems (l ++ [.sent (.next item)]) = sentItems l ++ [item] :=
      sentItems_append ..
    refine .flowing ⟨_, hp', hr, hinitial, rfl⟩ ?_ howes' ?_ hsettled
      (hflight.launch hstack')
    · have hbefore : owed i (c.stack script) = 0 := by
        rw [hk]
        rfl
      have hafter : owed (τ := τ) i [.tell (.heard r (.next item))] = 0 := rfl
      have hsplit : 1 + (sentItems l).length + demand + (others + owed i (c.stack script)) =
          1 + (sentItems l ++ [item]).length + emitter.demand +
            (others + owed (τ := τ) i [.tell (.heard r (.next item))]) := by
        rw [hbefore, hafter, List.length_append, List.length_singleton]
        omega
      rw [hsplit] at hbalance
      rw [hsent]
      exact hbalance.mark _
    · rw [hsent, ← List.cons_append, ← hitems, Option.toList_none, List.append_nil]
      rfl

/-- **Every step leads from a phase to the same or to the next one.** -/
theorem step (h : HandOver script i r p0 l c) (hemits : ∀ k s, rules.emits k i s → k = script)
    (hstep : Crew.Leaves env rules i c m d) (hsole : c.exchange.SoleReceiver r i)
    (hcancel : .call (.ask i .cancel) ∉ d.done) : HandOver script i r p0 (l ++ m) d := by
  obtain ⟨_, _, hproducer⟩ := h.producer
  cases hstep with
  | @work k t rest hk ht =>
    by_cases hplain : Plain i r t
    · by_cases hask : ∃ a, t = .call (.ask i a)
      · obtain ⟨a, rfl⟩ := hask
        cases a with
        | cancel => exact absurd (List.mem_append_right _ (List.mem_singleton_self _)) hcancel
        | request n =>
          by_cases hn : n = 0
          · subst hn
            exact h.neutral (.of_request_zero hproducer hk)
          · rw [List.append_nil]
            exact h.request hn hk
      · obtain ⟨p, hp, hr, -⟩ := hproducer
        exact h.neutral (.of_work hp hr hsole hk hplain fun a ha => hask ⟨a, ha⟩)
    · rw [List.append_nil]
      obtain ⟨n, rfl⟩ | ⟨item, rfl⟩ | ⟨n, rfl⟩ := Plain.cases_of_not hplain
      · exact h.settle hk
      · exact h.hear hk
      · exact h.passOn hk
  | panic hk => exact h.panic hk
  | start hk hstart => exact h.neutral (.of_start hk hstart)
  | @emit k j p emitter s hk hemit hp hs =>
    by_cases hitem : j = i ∧ s.isTerminal = false
    · obtain ⟨rfl, hitem⟩ := hitem
      obtain rfl := hemits k s hemit
      cases s with
      | next item =>
        rw [if_pos rfl]
        exact h.emit hk hp hs
      | complete | error => cases hitem
    · exact h.neutral (.of_emit hk hp hs hsole fun hj => by simpa [hj] using hitem)

omit [DecidableEq ι] in
/-- A run begins where the peer has just subscribed. -/
theorem of_justSubscribed (h : JustSubscribed i r p0 c)
    (hfresh : ∀ n, .call (.ask i (.request n)) ∉ c.done) : HandOver script i r p0 [] c := by
  obtain ⟨gate, hp⟩ := h.producer
  refine .waiting ⟨_, hp, rfl, rfl, rfl⟩ ?_ rfl ?_ fun k t ht =>
    ⟨⟨(h.stack k t ht).2.1, fun item => (h.stack k t ht).1 _⟩,
      fun n => (h.stack k t ht).2.2 _⟩
  · refine List.sum_eq_zero fun n hn => ?_
    obtain ⟨t, ht, rfl⟩ := List.mem_map.mp hn
    unfold Task.grant
    split
    · exact if_neg fun hj => hfresh _ (hj ▸ ht)
    · rfl
  · have hsignals : c.signals r = [] :=
      List.filterMap_eq_nil_iff.mpr fun t ht => Crew.signal?_eq_none (h.done t ht)
    rw [Crew.items, hsignals]
    rfl

theorem of_recorded (hemits : ∀ k s, rules.emits k i s → k = script)
    (hrun : Crew.Recorded env rules i c l d) (hsole : d.exchange.SoleReceiver r i)
    (hcancel : .call (.ask i .cancel) ∉ d.done) (h : HandOver script i r p0 [] c) :
    HandOver script i r p0 l d := by
  induction hrun with
  | refl => exact h
  | tail _ hstep ih =>
    -- What holds of the whole run held before its last step.
    have hsole' := fun j hj => hsole j (Crew.remote?_step hstep.step hj)
    have hcancel' := fun hmem => hcancel ((Crew.isPrefix_done hstep.step).subset hmem)
    exact (ih hsole' hcancel').step hemits hstep hsole' hcancel

/-! ### What a phase says -/

omit [DecidableEq ι]

/-- The peer is told the initial payload and then what the script has sent, and nothing else; at
most one of it is on its way. -/
theorem exists_flight (h : HandOver script i r p0 l c) :
    ∃ flight : Option Payload,
      c.items r ++ flight.toList = (if c.granted i = 0 then [] else p0 :: sentItems l) ∧
      (∀ item, c.Pending (.tell (.heard r (.next item))) → flight = some item) ∧
      ∀ item, flight = some item → ∃ k rest, c.stack k = .tell (.heard r (.next item)) :: rest := by
  have hplain' : (∀ k, ∀ t ∈ c.stack k, Plain i r t) →
      ∀ item, c.Pending (.tell (.heard r (.next item))) → (none : Option Payload) = some item :=
    fun hplain item ⟨k, hk⟩ => absurd rfl ((hplain k _ hk).heard item)
  cases h with
  | waiting _ hgranted _ hitems hplain =>
    exact ⟨none, by rw [hitems, if_pos hgranted]; rfl, hplain' hplain, fun _ h => by cases h⟩
  | @delivering k n deferred rest _ hn hbalance hsent hitems hstack hrest hothers =>
    have hpos : c.granted i ≠ 0 := by
      have := hbalance.le
      omega
    refine ⟨some p0, by rw [hitems, if_neg hpos, hsent]; rfl, ?_, ?_⟩
    · intro item hpending
      have hmem := mem_of_pending hothers (not_plain_heard item) hpending
      rw [hstack, List.mem_cons, List.mem_cons] at hmem
      rcases hmem with heq | heq | hmem
      · cases heq
        rfl
      · cases heq
      · exact absurd (hrest _ hmem) (not_plain_heard item)
    · rintro item hitem
      cases hitem
      exact ⟨k, _, hstack⟩
  | @settling k n deferred front rest _ hn hbalance hsent hitems hstack hfront hrest hothers =>
    have hpos : c.granted i ≠ 0 := by
      have := hbalance.le
      omega
    refine ⟨none, by rw [hitems, if_neg hpos, hsent]; rfl, ?_, fun _ h => by cases h⟩
    intro item hpending
    have hmem := mem_of_pending hothers (not_plain_heard item) hpending
    rw [hstack, List.mem_append, List.mem_cons] at hmem
    rcases hmem with hmem | heq | hmem
    · exact absurd (hfront _ hmem) (not_plain_heard item)
    · cases heq
    · exact absurd (hrest _ hmem) (not_plain_heard item)
  | stuck _ hgranted hsent hitems _ hplain =>
    exact ⟨none, by rw [hitems, if_neg (Nat.ne_of_gt hgranted), hsent]; rfl, hplain' hplain,
      fun _ h => by cases h⟩
  | @flowing demand total flight hproducer hbalance howes hitems hsettled hflight =>
    have hpos : c.granted i ≠ 0 := by
      have := hbalance.le
      omega
    refine ⟨flight, by rw [hitems, if_neg hpos], ?_, ?_⟩
    · rintro item ⟨k, hk⟩
      obtain ⟨-, item', -, hflight', hitem, -⟩ :=
        hflight.eq_of_not_silent (not_silent_heard item) hk
      cases hitem
      exact hflight'
    · rintro item rfl
      obtain ⟨rest, hrest, -⟩ := hflight.front
      exact ⟨script, rest, hrest⟩

/-- The script sends nothing before the delivery of the initial payload has been settled. -/
theorem settled (h : HandOver script i r p0 l c) (hsent : sentItems l ≠ []) :
    (∃ n, .settle i n ∈ c.done) ∧ ∀ n, ¬ c.Pending (.settle i n) := by
  cases h with
  | waiting _ _ hnone | delivering _ _ _ hnone | settling _ _ _ hnone | stuck _ _ hnone =>
    exact absurd hnone hsent
  | flowing _ _ _ _ hsettled hflight =>
    refine ⟨hsettled, fun n ⟨k, hk⟩ => ?_⟩
    obtain ⟨-, _, _, -, htask, -⟩ := hflight.eq_of_not_silent (not_silent_settle n) hk
    cases htask

/-- Nothing is sent that was not asked for. -/
theorem sent_le (h : HandOver script i r p0 l c) :
    (if c.granted i = 0 then 0 else 1) + (sentItems l).length ≤ c.granted i := by
  cases h with
  | waiting _ _ hsent | delivering _ _ _ hsent | settling _ _ _ hsent | stuck _ _ hsent =>
    rw [hsent, List.length_nil]
    split <;> omega
  | flowing _ hbalance =>
    have := hbalance.le
    split <;> omega

/-- When nothing is to be settled or passed on any more, the emitter holds what is left. -/
theorem demand_eq (h : HandOver script i r p0 l c) (hcalm : .panicked ∉ l)
    (hpos : 1 ≤ c.granted i) (hlimit : c.granted i ≤ Demand.limit)
    (hsettle : ∀ n, ¬ c.Pending (.settle i n))
    (hpassOn : ∀ n, ¬ c.Pending (.passOn i (.request n))) :
    ∃ p, c.exchange.scripted? i = some p ∧
      p.emitter.demand + (sentItems l).length = c.granted i - 1 := by
  cases h with
  | waiting _ hgranted => omega
  | @delivering k n _ _ _ _ _ _ _ hstack =>
    exact absurd ⟨k, hstack ▸ List.mem_cons_of_mem _ List.mem_cons_self⟩ (hsettle n)
  | @settling k n _ _ _ _ _ _ _ _ hstack =>
    exact absurd ⟨k, hstack ▸ List.mem_append_right _ List.mem_cons_self⟩ (hsettle n)
  | stuck _ _ _ _ hpanicked => exact absurd hpanicked hcalm
  | @flowing demand total flight hproducer hbalance howes =>
    obtain ⟨p, hp, -, -, rfl⟩ := hproducer
    have hzero : total = 0 := howes.eq_zero fun k => List.sum_eq_zero fun n hn => by
      obtain ⟨t, ht, rfl⟩ := List.mem_map.mp hn
      unfold Task.owed
      split
      · exact if_neg fun hj => hpassOn _ ⟨k, hj ▸ ht⟩
      · rfl
    have heq := hbalance.eq hcalm hlimit
    exact ⟨p, hp, by omega⟩

end HandOver

/-- **The hand-over of demand**, for every interleaving of the peer's calls with each other and
with the script, and for every nesting of calls, as long as the peer does not cancel.  Once the
peer has asked for anything, it is told the initial payload, once, and then the items of the
script, of which one may still be on its way; the call by which it is told the initial payload has
returned before the script sends an item; and it is told no more than it has asked for.  If what it
has asked for is an amount of 64 bits and no thread has panicked, no unit of it is lost or used
twice. -/
theorem demand_handOver (hemits : ∀ k s, rules.emits k i s → k = script)
    (hstart : JustSubscribed i r p0 c) (hfresh : ∀ n, .call (.ask i (.request n)) ∉ c.done)
    (hrun : Crew.Recorded env rules i c l d) (hsole : d.exchange.SoleReceiver r i)
    (hcancel : .call (.ask i .cancel) ∉ d.done) :
    (∃ flight : Option Payload,
      d.items r ++ flight.toList = (if d.granted i = 0 then [] else p0 :: sentItems l) ∧
      (∀ item, d.Pending (.tell (.heard r (.next item))) → flight = some item) ∧
      ∀ item, flight = some item →
        ∃ k rest, d.stack k = .tell (.heard r (.next item)) :: rest) ∧
    (sentItems l ≠ [] → (∃ n, .settle i n ∈ d.done) ∧ ∀ n, ¬ d.Pending (.settle i n)) ∧
    (if d.granted i = 0 then 0 else 1) + (sentItems l).length ≤ d.granted i ∧
    (.panicked ∉ l → 1 ≤ d.granted i → d.granted i ≤ Demand.limit →
      (∀ n, ¬ d.Pending (.settle i n)) → (∀ n, ¬ d.Pending (.passOn i (.request n))) →
      ∃ p, d.exchange.scripted? i = some p ∧
        p.emitter.demand + (sentItems l).length = d.granted i - 1) := by
  have hphase : HandOver script i r p0 l d :=
    .of_recorded hemits hrun hsole hcancel (.of_justSubscribed hstart hfresh)
  exact ⟨hphase.exists_flight, hphase.settled, hphase.sent_le, hphase.demand_eq⟩

namespace Handshake

variable {l : List Mark} {c : Crew Bool Unit Unit} {p : ScriptedProducer}
  {rest script done : List (Task Unit)}

theorem recorded_work {env : Environment Unit Unit} {t : Task Unit}
    (hrun : Crew.Recorded env moves 0 c l (state p (t :: rest) script done))
    (p' : ScriptedProducer) (new : List (Task Unit))
    (h : (exchange p).perform env t = (exchange p', new)) (ht : ∀ q, t ≠ .call (.raise q)) :
    Crew.Recorded env moves 0 c l (state p' (new ++ rest) script (done ++ [t])) := by
  have hnext := hrun.tail (peer_works t new h ht)
  rwa [List.append_nil] at hnext

/-- A far side that asks for two more items while it is being told `⟨"a", "b"⟩`. -/
def eager : Environment Unit Unit where
  dial _ := none
  react
    | .heard _ (.next ⟨"a", "b"⟩), far => (far, [.ask 0 (.request 2)])
    | _, far => (far, [])
  idle _ := none

/-- What the peer does from there on, if it asks for one item. -/
def eagerTasks : List (Task Unit) :=
  [.call (.ask 0 (.request 1)), .tell (.heard ⟨0, 1⟩ (.next ⟨"a", "b"⟩)),
    .call (.ask 0 (.request 2)), .settle 0 1, .passOn 0 (.request 2)]

theorem recorded_eager :
    Crew.Recorded eager moves 0 (subscribed ⟨"a", "b"⟩) []
      (state (producer .sent { demand := 2 }) [] [] (opened ++ eagerTasks)) := by
  have hattached : Crew.Recorded eager moves 0 (subscribed ⟨"a", "b"⟩) [] _ :=
    recorded_work .refl { initial := .pending ⟨"a", "b"⟩, remote := some ⟨0, 1⟩ } [] rfl (by simp)
  have hopened := recorded_work hattached (producer (.pending ⟨"a", "b"⟩) {}) [] rfl (by simp)
  have hasked := recorded_work (hopened.tail (peer_asks (.request 1)))
    (producer (.emitting 0) {}) [.tell (.heard ⟨0, 1⟩ (.next ⟨"a", "b"⟩)), .settle 0 1] rfl
    (by simp)
  have hheard := recorded_work hasked (producer (.emitting 0) {}) [.call (.ask 0 (.request 2))]
    rfl (by simp)
  -- The demand that comes while the initial payload is being delivered is set aside.
  have hdeferred := recorded_work hheard (producer (.emitting 2) {}) [] rfl (by simp)
  have hsettled := recorded_work hdeferred (producer .sent {}) [.passOn 0 (.request 2)] rfl
    (by simp)
  exact recorded_work hsettled (producer .sent { demand := 2 }) [] rfl (by simp)

/-- Then the script sends an item. -/
theorem recorded_handedOver :
    Crew.Recorded eager moves 0 (subscribed ⟨"a", "b"⟩) [.sent (.next ⟨"c", "d"⟩)]
      (state (producer .sent { demand := 1 }) [] []
        (opened ++ eagerTasks ++ [.tell (.heard ⟨0, 1⟩ (.next ⟨"c", "d"⟩))])) := by
  have hsent : Crew.Leaves eager moves 0
      (state (producer .sent { demand := 2 }) [] [] (opened ++ eagerTasks))
      [.sent (.next ⟨"c", "d"⟩)]
      (state (producer .sent { demand := 1 }) [] [.tell (.heard ⟨0, 1⟩ (.next ⟨"c", "d"⟩))]
        (opened ++ eagerTasks)) :=
    script_emits rfl rfl
  exact (recorded_eager.tail hsent).tail (script_works _ [] rfl (by simp))

end Handshake

/-- A peer that asks for one item, and for two more while it is told the initial payload, is told
the initial payload and the item that the script sends; one unit of its demand is left. -/
theorem demand_handOver_nested :
    ∃ d, Crew.Recorded Handshake.eager Handshake.moves 0 (Handshake.subscribed ⟨"a", "b"⟩)
        [.sent (.next ⟨"c", "d"⟩)] d ∧
      d.items ⟨0, 1⟩ = [⟨"a", "b"⟩, ⟨"c", "d"⟩] ∧ d.granted 0 = 3 ∧
      ∃ p, d.exchange.scripted? 0 = some p ∧ p.emitter.demand + 1 = 3 - 1 := by
  have hemits : ∀ k s, Handshake.moves.emits k 0 s → k = false := fun _ _ hk => hk.1
  obtain ⟨-, -, -, hdemand⟩ := demand_handOver hemits (Handshake.justSubscribed _)
    (by simp [Handshake.subscribed, Handshake.state]) Handshake.recorded_handedOver
    (Exchange.soleReceiver_of_size rfl ⟨0, 1⟩)
    (by simp [Handshake.state, Handshake.opened, Handshake.eagerTasks])
  have hidle : ∀ t, ¬ (Handshake.state (Handshake.producer .sent { demand := 1 }) [] []
      (Handshake.opened ++ Handshake.eagerTasks ++
        [.tell (.heard ⟨0, 1⟩ (.next ⟨"c", "d"⟩))])).Pending t := by
    rintro t ⟨k, hk⟩
    cases k <;> cases hk
  exact ⟨_, Handshake.recorded_handedOver, rfl, rfl, hdemand (by simp) (by decide) (by decide)
    (fun _ => hidle _) fun _ => hidle _⟩

end StreamConformance
