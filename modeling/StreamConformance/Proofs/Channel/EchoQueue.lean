import StreamConformance.Proofs.Channel.EchoAccount

/-!
# The queue of an echo

An echo delivers what is pushed into it to its peer, as the peer's demand allows.  Pushes and
demand come from any number of threads, and from the peer while it is being told an item; each of
them leaves the queue to be drained.  One call at a time empties the queue, and it gives the queue
up only when nothing can be delivered.  `items_echo` says what the peer is told, for every
interleaving and every nesting of such calls.

* `Drains`: which call is emptying the queue.  A panic may end that call; the queue is not emptied
  any more then.
* `Deliveries`: no two items are delivered at the same time.
* `Echoing`, `Echoing.step`: the account of the echo and the call that empties its queue, along a
  run.  There is a lemma for each task that concerns the echo.
-/

namespace StreamConformance

open Crew (Mark)

variable {ι σ τ : Type} {env : Environment σ τ} {rules : Crew.Rules ι σ τ} {i : Nat} {r : Handle}
  {l m : List Mark} {c d : Crew ι σ τ} {k : ι}

/-! ## Which call empties the queue -/

/-- A list is split in one way only at an entry without a property that all others have. -/
theorem split_unique {α : Type} {P : α → Prop} {front rest front' rest' : List α} {x y : α}
    (h : front ++ x :: rest = front' ++ y :: rest') (hx : ¬ P x) (hfront' : ∀ a ∈ front', P a)
    (hrest' : ∀ a ∈ rest', P a) : front = front' ∧ x = y ∧ rest = rest' := by
  induction front generalizing front' with
  | nil =>
    cases front' with
    | nil => exact ⟨rfl, List.cons.inj h⟩
    | cons a front' =>
      obtain ⟨rfl, -⟩ := List.cons.inj h
      exact absurd (hfront' _ List.mem_cons_self) hx
  | cons a front ih =>
    cases front' with
    | nil =>
      obtain ⟨-, rfl⟩ := List.cons.inj h
      exact absurd (hrest' x (List.mem_append_right _ List.mem_cons_self)) hx
    | cons b front' =>
      obtain ⟨rfl, htail⟩ := List.cons.inj h
      obtain ⟨rfl, hrest⟩ := ih htail fun a ha => hfront' a (List.mem_cons_of_mem _ ha)
      exact ⟨rfl, hrest⟩

section Turns

variable [DecidableEq ι] {old new rest : List (Task τ)} {t : Task τ} {P : Task τ → Prop} {k' : ι}
  (h : Crew.Turns k old new c d)
include h

/-- Threads that have only tasks of some kind keep such tasks. -/
theorem Crew.Turns.forall_mem (hnew : ∀ t ∈ new, P t) (hk' : ∀ t ∈ c.stack k', P t) :
    ∀ t ∈ d.stack k', P t := fun t ht =>
  (h.mem_stack ht).elim (hk' t) fun ht => hnew t ht.2

/-- A thread whose next task is of another kind does not move. -/
theorem Crew.Turns.stack_of_head (hold : ∀ t ∈ old, P t) (hk' : c.stack k' = t :: rest)
    (ht : ¬ P t) : k' ≠ k ∧ d.stack k' = c.stack k' := by
  obtain ⟨rest', hc, hd, hnone⟩ := h.stack
  have hne : k' ≠ k := by
    rintro rfl
    cases old with
    | nil =>
      rw [hnone rfl, hk'] at hc
      cases hc
    | cons s old =>
      rw [hk'] at hc
      obtain ⟨rfl, -⟩ := List.cons.inj hc
      exact ht (hold _ List.mem_cons_self)
  exact ⟨hne, by rw [hd, Function.update_of_ne hne]⟩

/-- What stands behind tasks of some kind stays where it is. -/
theorem Crew.Turns.stack_of_behind {front : List (Task τ)} (hold : ∀ t ∈ old, P t)
    (hnew : ∀ t ∈ new, P t) (hk' : c.stack k' = front ++ t :: rest) (ht : ¬ P t)
    (hfront : ∀ t ∈ front, P t) :
    ∃ front', d.stack k' = front' ++ t :: rest ∧ ∀ t ∈ front', P t := by
  obtain ⟨rest', hc, hd, -⟩ := h.stack
  by_cases hkk : k' = k
  · subst hkk
    rw [hk', List.append_eq_append_iff] at hc
    obtain ⟨left, rfl, hrest⟩ | ⟨left, rfl, rfl⟩ := hc
    · cases left with
      | nil =>
        refine ⟨new, ?_, hnew⟩
        rw [hd, Function.update_self, ← List.nil_append rest', ← hrest]
      | cons s left =>
        obtain ⟨rfl, -⟩ := List.cons.inj hrest
        exact absurd (hold t (by simp)) ht
    · refine ⟨new ++ left, by rw [hd, Function.update_self, List.append_assoc], fun s hs => ?_⟩
      exact (List.mem_append.mp hs).elim (hnew s) fun hs => hfront s (List.mem_append_right _ hs)
  · exact ⟨front, by rw [hd, Function.update_of_ne hkk, hk'], hfront⟩

end Turns

/-- A task that neither tells the receiver `r` anything nor empties the queue of the echo `i`. -/
structure Apart (i : Nat) (r : Handle) (t : Task τ) : Prop where
  heard : ∀ s, t ≠ .tell (.heard r s)
  drainNext : t ≠ .drainNext i

theorem Apart.of_isOuter {t : Task τ} (ht : t.isOuter = true) : Apart i r t := by
  refine ⟨?_, ?_⟩
  · rintro s rfl
    cases ht
  · rintro rfl
    cases ht

theorem not_apart_heard (s : Signal Payload) : ¬ Apart i r (.tell (.heard r s) : Task τ) :=
  fun h => h.heard s rfl

theorem not_apart_drainNext : ¬ Apart i r (.drainNext i : Task τ) :=
  fun h => h.drainNext rfl

/-- What other tasks than those of the echo leave to be done. -/
theorem Apart.of_mem_perform {e : Exchange σ} {t t' : Task τ} (hsole : e.SoleReceiver r i)
    (ht : t.producer? ≠ some i) (h : t' ∈ (e.perform env t).2) : Apart i r t' := by
  refine ⟨?_, ?_⟩
  · rintro s rfl
    cases Exchange.Origin.of_mem h with
    | heard _ hj hr => exact ht (hsole _ hr ▸ hj)
  · rintro rfl
    cases Exchange.EchoOrigin.of_mem h rfl <;> exact ht rfl

/-- Which call is emptying the queue of the echo `i`, whose peer is `r`, and what it is about to
deliver.  The flag says whether there is such a call. -/
inductive Drains (i : Nat) (r : Handle) (l : List Mark) (c : Crew ι σ τ) :
    Bool → Option Payload → Prop where
  | nobody (h : ∀ k, ∀ t ∈ c.stack k, Apart i r t) : Drains i r l c false none
  /-- Thread `k` takes the next item when the tasks in front have returned. -/
  | between {k : ι} {front rest : List (Task τ)} (hstack : c.stack k = front ++ .drainNext i :: rest)
      (hfront : ∀ t ∈ front, Apart i r t) (hrest : ∀ t ∈ rest, Apart i r t)
      (hothers : ∀ k', k' ≠ k → ∀ t ∈ c.stack k', Apart i r t) : Drains i r l c true none
  | delivering {k : ι} {item : Payload} {rest : List (Task τ)}
      (hstack : c.stack k = .tell (.heard r (.next item)) :: .drainNext i :: rest)
      (hrest : ∀ t ∈ rest, Apart i r t)
      (hothers : ∀ k', k' ≠ k → ∀ t ∈ c.stack k', Apart i r t) : Drains i r l c true (some item)
  /-- The call has panicked. -/
  | abandoned (hpanicked : .panicked ∈ l) (h : ∀ k, ∀ t ∈ c.stack k, Apart i r t) :
      Drains i r l c true none

/-- No two items are delivered to `r` at the same time: one call at most empties the queue of the
echo `i`, and an item is told by that call, in front of what it does next. -/
structure Deliveries (i : Nat) (r : Handle) (c : Crew ι σ τ) : Prop where
  single : ∀ {k front rest}, c.stack k = front ++ .drainNext i :: rest →
    .drainNext i ∉ front ∧ .drainNext i ∉ rest ∧ ∀ k', k' ≠ k → .drainNext i ∉ c.stack k'
  told : ∀ {k front rest s}, c.stack k = front ++ .tell (.heard r s) :: rest →
    front = [] ∧ ∃ rest', rest = .drainNext i :: rest'

namespace Drains

variable {flag : Bool} {flight : Option Payload} {old new rest : List (Task τ)} {t : Task τ}

/-- What is on its way is told by the call that empties the queue. -/
theorem deliveries (h : Drains i r l c flag flight) : Deliveries i r c := by
  have hnone {c : Crew ι σ τ} {k : ι} (h : ∀ t ∈ c.stack k, Apart i r t) {front rest t}
      (hk : c.stack k = front ++ t :: rest) : Apart i r t :=
    h t (hk ▸ List.mem_append_right _ List.mem_cons_self)
  cases h with
  | nobody hall | abandoned _ hall =>
    exact ⟨fun hk => absurd (hnone (hall _) hk) not_apart_drainNext,
      fun hk => absurd (hnone (hall _) hk) (not_apart_heard _)⟩
  | @between k₀ front₀ rest₀ hstack hfront hrest hothers =>
    have hothers' : ∀ k', k' ≠ k₀ → .drainNext i ∉ c.stack k' := fun k' hk' hmem =>
      (hothers k' hk' _ hmem).drainNext rfl
    constructor
    · intro k front rest hk
      obtain rfl : k = k₀ := by
        by_contra hne
        exact absurd (hnone (hothers k hne) hk) not_apart_drainNext
      obtain ⟨rfl, -, rfl⟩ :=
        split_unique (hk.symm.trans hstack) not_apart_drainNext hfront hrest
      exact ⟨fun hmem => (hfront _ hmem).drainNext rfl, fun hmem => (hrest _ hmem).drainNext rfl,
        hothers'⟩
    · intro k front rest s hk
      obtain rfl : k = k₀ := by
        by_contra hne
        exact absurd (hnone (hothers k hne) hk) (not_apart_heard s)
      obtain ⟨-, h, -⟩ := split_unique (hk.symm.trans hstack) (not_apart_heard s) hfront hrest
      cases h
  | @delivering k₀ item rest₀ hstack hrest hothers =>
    have hothers' : ∀ k', k' ≠ k₀ → .drainNext i ∉ c.stack k' := fun k' hk' hmem =>
      (hothers k' hk' _ hmem).drainNext rfl
    constructor
    · intro k front rest hk
      obtain rfl : k = k₀ := by
        by_contra hne
        exact absurd (hnone (hothers k hne) hk) not_apart_drainNext
      have hsplit : front ++ .drainNext i :: rest =
          [.tell (.heard r (.next item))] ++ .drainNext i :: rest₀ := hk.symm.trans hstack
      obtain ⟨rfl, -, rfl⟩ := split_unique (P := fun t => t ≠ .drainNext i) hsplit
        (fun h => h rfl) (by simp) fun t ht => (hrest t ht).drainNext
      exact ⟨by simp, fun hmem => (hrest _ hmem).drainNext rfl, hothers'⟩
    · intro k front rest s hk
      obtain rfl : k = k₀ := by
        by_contra hne
        exact absurd (hnone (hothers k hne) hk) (not_apart_heard s)
      have hsplit : front ++ .tell (.heard r s) :: rest =
          [] ++ .tell (.heard r (.next item)) :: .drainNext i :: rest₀ := hk.symm.trans hstack
      have hrest' : ∀ t ∈ .drainNext i :: rest₀, ∀ s, t ≠ .tell (.heard r s) := by
        intro t ht
        rcases List.mem_cons.mp ht with rfl | ht
        · simp
        · exact (hrest t ht).heard
      obtain ⟨rfl, -, rfl⟩ := split_unique (P := fun t => ∀ s, t ≠ .tell (.heard r s)) hsplit
        (fun h => h s rfl) (by simp) hrest'
      exact ⟨rfl, rest₀, rfl⟩

theorem mark (h : Drains i r l c flag flight) (m : List Mark) :
    Drains i r (l ++ m) c flag flight := by
  cases h with
  | nobody hall => exact .nobody hall
  | between hstack hfront hrest hothers => exact .between hstack hfront hrest hothers
  | delivering hstack hrest hothers => exact .delivering hstack hrest hothers
  | abandoned hpanicked hall => exact .abandoned (List.mem_append_left m hpanicked) hall

/-- When no call empties the queue, and none that did has panicked, the flag is down. -/
theorem eq_of_not_pending (h : Drains i r l c flag flight) (hcalm : .panicked ∉ l)
    (hnext : ¬ c.Pending (.drainNext i)) : flag = false ∧ flight = none := by
  cases h with
  | nobody => exact ⟨rfl, rfl⟩
  | @between k front rest hstack => exact absurd ⟨k, by simp [hstack]⟩ hnext
  | @delivering k item rest hstack => exact absurd ⟨k, by simp [hstack]⟩ hnext
  | abandoned hpanicked => exact absurd hpanicked hcalm

variable [DecidableEq ι]

/-- Other tasks leave it to the call that empties the queue. -/
theorem turns (h : Drains i r l c flag flight) (hturn : Crew.Turns k old new c d)
    (hold : ∀ t ∈ old, Apart i r t) (hnew : ∀ t ∈ new, Apart i r t) :
    Drains i r l d flag flight := by
  cases h with
  | nobody hall => exact .nobody fun k' => hturn.forall_mem hnew (hall k')
  | abandoned hpanicked hall =>
    exact .abandoned hpanicked fun k' => hturn.forall_mem hnew (hall k')
  | between hstack hfront hrest hothers =>
    obtain ⟨front, hstack', hfront'⟩ :=
      hturn.stack_of_behind hold hnew hstack not_apart_drainNext hfront
    exact .between hstack' hfront' hrest fun k' hk' => hturn.forall_mem hnew (hothers k' hk')
  | delivering hstack hrest hothers =>
    obtain ⟨-, hd⟩ := hturn.stack_of_head hold hstack (not_apart_heard _)
    exact .delivering (hd.trans hstack) hrest fun k' hk' => hturn.forall_mem hnew (hothers k' hk')

/-- A panic may end the call that empties the queue, but not while it is about to deliver an
item. -/
theorem panic (h : Drains i r l c flag flight) {p : Panic}
    (hk : c.stack k = .call (.raise p) :: rest) :
    Drains i r (l ++ [.panicked]) (c.turn k [] c.exchange) flag flight := by
  have hpanicked : Mark.panicked ∈ l ++ [.panicked] :=
    List.mem_append_right l (List.mem_singleton_self _)
  have hkeep {threads : ι → Prop} (hall : ∀ k', threads k' → ∀ t ∈ c.stack k', Apart i r t) :
      ∀ k', threads k' → ∀ t ∈ (c.turn k [] c.exchange).stack k', Apart i r t := by
    intro k' hk'
    by_cases hkk : k' = k
    · subst hkk
      simp
    · rw [Crew.stack_turn_of_ne _ _ _ hkk]
      exact hall k' hk'
  cases h with
  | nobody hall => exact .nobody fun k' => hkeep (fun k' (_ : True) => hall k') k' trivial
  | abandoned _ hall =>
    exact .abandoned hpanicked fun k' => hkeep (fun k' (_ : True) => hall k') k' trivial
  | @between k₀ front₀ rest₀ hstack hfront hrest hothers =>
    by_cases hkk : k₀ = k
    · subst hkk
      refine .abandoned hpanicked fun k' => ?_
      by_cases hk' : k' = k₀
      · subst hk'
        simp
      · exact hkeep hothers k' hk'
    · refine .between ?_ hfront hrest (hkeep hothers)
      rw [Crew.stack_turn_of_ne _ _ _ hkk, hstack]
  | @delivering k₀ item rest₀ hstack hrest hothers =>
    have hkk : k₀ ≠ k := by
      rintro rfl
      rw [hk] at hstack
      cases hstack
    refine .delivering ?_ hrest (hkeep hothers)
    rw [Crew.stack_turn_of_ne _ _ _ hkk, hstack]

/-- A task of the call that empties the queue is what this call does next. -/
theorem of_head (h : Drains i r l c flag flight) (hk : c.stack k = t :: rest)
    (ht : ¬ Apart i r t) :
    (t = .drainNext i ∧ flag = true ∧ flight = none ∧
      (∀ t ∈ rest, Apart i r t) ∧ ∀ k', k' ≠ k → ∀ t ∈ c.stack k', Apart i r t) ∨
    ∃ item rest', t = .tell (.heard r (.next item)) ∧ rest = .drainNext i :: rest' ∧
      flag = true ∧ flight = some item ∧
      (∀ t ∈ rest', Apart i r t) ∧ ∀ k', k' ≠ k → ∀ t ∈ c.stack k', Apart i r t := by
  have hmem : t ∈ c.stack k := by
    rw [hk]
    exact List.mem_cons_self
  cases h with
  | nobody hall | abandoned _ hall => exact absurd (hall k t hmem) ht
  | @between k₀ front₀ rest₀ hstack hfront hrest hothers =>
    obtain rfl : k = k₀ := by
      by_contra hne
      exact ht (hothers k hne t hmem)
    have hsplit : [] ++ t :: rest = front₀ ++ .drainNext i :: rest₀ := hk.symm.trans hstack
    obtain ⟨rfl, rfl, rfl⟩ := split_unique hsplit ht hfront hrest
    exact Or.inl ⟨rfl, rfl, rfl, hrest, hothers⟩
  | @delivering k₀ item rest₀ hstack hrest hothers =>
    obtain rfl : k = k₀ := by
      by_contra hne
      exact ht (hothers k hne t hmem)
    obtain ⟨rfl, rfl⟩ := List.cons.inj (hk.symm.trans hstack)
    exact Or.inr ⟨item, rest₀, rfl, rfl, rfl, rfl, hrest, hothers⟩

end Drains

/-! ## A run of an echo -/

/-- Where a run of the echo `i` is, whose peer is `r` and whose record is `l`. -/
structure Echoing (i : Nat) (r : Handle) (l : List Mark) (e : Echo) (flight : Option Payload)
    (c : Crew ι σ τ) : Prop where
  producer : EchoAt i r e c.exchange
  drains : Drains i r l c e.draining flight
  canceled : e.canceled = true ↔ .call (.ask i .cancel) ∈ c.done
  account : e.Account (c.granted i) (c.pushed i) (c.items r) flight
  /-- No item that could be delivered is left behind. -/
  drained : e.queue.toList = [] ∨ e.demand = 0 ∨ e.draining = true ∨ c.Pending (.drain i) ∨
    .panicked ∈ l
  /-- What the peer is told after it has canceled. -/
  late : ∀ before after, c.done = before ++ .call (.ask i .cancel) :: after →
    (after.filterMap (Crew.signal? r)).length + flight.toList.length ≤ 1

namespace Echoing

variable [DecidableEq ι] {e e' : Echo} {flight flight' : Option Payload} {rest new : List (Task τ)}
  {t : Task τ}

/-- A task is performed that tells the peer nothing.  It may take an item, but not after the peer
has canceled. -/
theorem work (h : Echoing i r l e flight c) (ht : ∀ s, t ≠ .tell (.heard r s))
    (hproducer : EchoAt i r e' (c.exchange.perform env t).1)
    (hdrains : Drains i r l (c.work env k t rest) e'.draining flight')
    (hcanceled : e'.canceled = true ↔ e.canceled = true ∨ t = .call (.ask i .cancel))
    (haccount : e'.Account (c.granted i + t.grant i)
      (c.pushed i ++ if e.canceled then [] else (t.pushed? i).toList) (c.items r) flight')
    (hdrained : e'.queue.toList = [] ∨ e'.demand = 0 ∨ e'.draining = true ∨
      (c.work env k t rest).Pending (.drain i) ∨ .panicked ∈ l)
    (hflight : e.canceled = true → flight' = flight) :
    Echoing i r l e' flight' (c.work env k t rest) where
  producer := hproducer
  drains := hdrains
  canceled := by
    rw [hcanceled, h.canceled, Crew.done_work, List.mem_append, List.mem_singleton, eq_comm (a := t)]
  account := by
    have hpushed : (c.work env k t rest).pushed i =
        c.pushed i ++ if e.canceled then [] else (t.pushed? i).toList := by
      by_cases hc : e.canceled = true
      · rw [if_pos hc, List.append_nil, Crew.pushed_work_of_mem (h.canceled.mp hc)]
      · rw [if_neg hc, Crew.pushed_work_of_notMem (mt h.canceled.mpr hc)]
    rw [Crew.items_work_of_ne env k rest c ht, hpushed, Crew.granted_work]
    exact haccount
  drained := hdrained
  late := by
    intro before after hdone
    obtain ⟨rfl, -, -⟩ | ⟨after, rfl, hbefore⟩ := Crew.done_split hdone
    · simp
    · have hmem : .call (.ask i .cancel) ∈ c.done := by simp [hbefore]
      have hsignal : Crew.signal? r t = none := Crew.signal?_eq_none ht
      rw [hflight (h.canceled.mpr hmem), List.filterMap_append]
      simpa [hsignal] using h.late before after hbefore

omit env in
theorem turns (env : Environment σ τ) (hk : c.stack k = t :: rest) :
    Crew.Turns k [t] (c.exchange.perform env t).2 c (c.work env k t rest) :=
  ⟨⟨rest, hk, rfl, by rintro ⟨⟩⟩, rfl⟩

/-- A task is performed that neither tells the peer anything nor empties the queue. -/
theorem apart (h : Echoing i r l e flight c) (hk : c.stack k = t :: rest) (ht : Apart i r t)
    (hproducer : EchoAt i r e' (c.exchange.perform env t).1)
    (hnew : ∀ t' ∈ (c.exchange.perform env t).2, Apart i r t') (hflag : e'.draining = e.draining)
    (hcanceled : e'.canceled = true ↔ e.canceled = true ∨ t = .call (.ask i .cancel))
    (haccount : e'.Account (c.granted i + t.grant i)
      (c.pushed i ++ if e.canceled then [] else (t.pushed? i).toList) (c.items r) flight)
    (hdrained : e'.queue.toList = [] ∨ e'.demand = 0 ∨ e'.draining = true ∨
      (c.work env k t rest).Pending (.drain i) ∨ .panicked ∈ l) :
    Echoing i r l e' flight (c.work env k t rest) :=
  h.work ht.heard hproducer (hflag ▸ h.drains.turns (turns env hk) (by simpa using ht) hnew)
    hcanceled haccount hdrained fun _ => rfl

theorem drained_work (h : Echoing i r l e flight c) (hk : c.stack k = t :: rest)
    (ht : t ≠ .drain i) :
    e.queue.toList = [] ∨ e.demand = 0 ∨ e.draining = true ∨
      (c.work env k t rest).Pending (.drain i) ∨ .panicked ∈ l := by
  obtain hqueue | hdemand | hdraining | hpending | hpanicked := h.drained
  · exact Or.inl hqueue
  · exact Or.inr (Or.inl hdemand)
  · exact Or.inr (Or.inr (Or.inl hdraining))
  · obtain hpending | hold := (turns env hk).pending hpending
    · exact Or.inr (Or.inr (Or.inr (Or.inl hpending)))
    · exact absurd (List.mem_singleton.mp hold).symm ht
  · exact Or.inr (Or.inr (Or.inr (Or.inr hpanicked)))

omit [DecidableEq ι] in
theorem apart_drain : Apart i r (.drain i : Task τ) :=
  ⟨by simp, by simp⟩

theorem pending_drain (env : Environment σ τ)
    (hnew : (c.exchange.perform env t).2 = [.drain i]) :
    (c.work env k t rest).Pending (.drain i) :=
  ⟨k, by rw [Crew.stack_work_self, hnew]; exact List.mem_append_left _ List.mem_cons_self⟩

theorem request (h : Echoing i r l e flight c) {n : Nat}
    (hk : c.stack k = .call (.ask i (.request n)) :: rest) :
    Echoing i r l (e.request n) flight (c.work env k (.call (.ask i (.request n))) rest) := by
  obtain ⟨hproducer, hnew⟩ := h.producer.request env n
  refine h.apart hk ⟨by simp, by simp⟩ hproducer ?_ rfl (by simp [Echo.request]) ?_
    (Or.inr (Or.inr (Or.inr (Or.inl (pending_drain env hnew)))))
  · rw [hnew]
    simpa using apart_drain
  · simpa [Task.grant, Task.pushed?] using h.account.request n

theorem cancel (h : Echoing i r l e flight c) (hk : c.stack k = .call (.ask i .cancel) :: rest) :
    Echoing i r l e.cancel flight (c.work env k (.call (.ask i .cancel)) rest) := by
  obtain ⟨hproducer, hnew⟩ := h.producer.cancel env
  refine h.apart hk ⟨by simp, by simp⟩ hproducer ?_ rfl (by simp [Echo.cancel]) ?_ (Or.inl rfl)
  · rw [hnew]
    simp
  · simpa [Task.grant, Task.pushed?] using h.account.cancel

theorem push (h : Echoing i r l e flight c) {item : Payload}
    (hk : c.stack k = .push i item :: rest) :
    Echoing i r l (e.push item).1 flight (c.work env k (.push i item) rest) := by
  obtain ⟨hproducer, hnew⟩ := h.producer.push env item
  have ht : Apart i r (.push i item : Task τ) := ⟨by simp, by simp⟩
  have haccount : (e.push item).1.Account (c.granted i + Task.grant i (.push i item : Task τ))
      (c.pushed i ++ if e.canceled then [] else (Task.pushed? i (.push i item : Task τ)).toList)
      (c.items r) flight := by
    simpa [Task.grant, Task.pushed?] using h.account.push item
  by_cases hc : e.canceled = true
  · rw [Echo.push_of_canceled hc] at hproducer hnew haccount ⊢
    refine h.apart hk ht hproducer ?_ rfl (by simp) haccount (h.drained_work hk (by simp))
    rw [hnew]
    simp
  · rw [Bool.not_eq_true] at hc
    rw [Echo.push_of_not_canceled hc] at hproducer hnew haccount ⊢
    refine h.apart hk ht hproducer ?_ rfl (by simp) haccount
      (Or.inr (Or.inr (Or.inr (Or.inl (pending_drain env hnew)))))
    rw [hnew]
    simpa using apart_drain

/-- A call that is to empty the queue begins to do so, unless another does it already. -/
theorem drain (h : Echoing i r l e flight c) (hk : c.stack k = .drain i :: rest) :
    Echoing i r l e.beginDrain.1 flight (c.work env k (.drain i) rest) := by
  obtain ⟨hproducer, hnew⟩ := h.producer.drain env
  have haccount : e.beginDrain.1.Account (c.granted i + Task.grant i (.drain i : Task τ))
      (c.pushed i ++ if e.canceled then [] else (Task.pushed? i (.drain i : Task τ)).toList)
      (c.items r) flight := by
    simpa [Task.grant, Task.pushed?] using h.account.beginDrain
  by_cases hflag : e.draining = true
  · have hbegin : e.beginDrain = (e, false) := if_pos hflag
    rw [hbegin] at hproducer hnew haccount ⊢
    refine h.apart hk apart_drain hproducer ?_ rfl (by simp) haccount
      (Or.inr (Or.inr (Or.inl hflag)))
    rw [hnew]
    simp
  · have hbegin : e.beginDrain = ({ e with draining := true }, true) := if_neg hflag
    rw [hbegin] at hproducer hnew haccount ⊢
    refine h.work apart_drain.heard hproducer ?_ (by simp) haccount
      (Or.inr (Or.inr (Or.inl rfl))) fun _ => rfl
    rw [Bool.not_eq_true] at hflag
    have hdrains := h.drains
    rw [hflag] at hdrains
    cases hdrains with
    | nobody hall =>
      have hstack : (c.work env k (.drain i) rest).stack k = [] ++ .drainNext i :: rest := by
        rw [Crew.stack_work_self, hnew]
        rfl
      refine .between hstack (by simp) (fun t ht => ?_) fun k' hk' => ?_
      · exact hall k t (hk ▸ List.mem_cons_of_mem _ ht)
      · rw [Crew.stack_work_of_ne _ _ _ _ hk']
        exact hall k'

/-- The call that empties the queue takes the next item, or gives the queue up. -/
theorem drainNext (h : Echoing i r l e flight c) (hk : c.stack k = .drainNext i :: rest) :
    Echoing i r l e.takeNext.1 e.takeNext.2 (c.work env k (.drainNext i) rest) := by
  obtain ⟨-, hflag, rfl, hrest, hothers⟩ | ⟨_, _, heq, -⟩ := h.drains.of_head hk not_apart_drainNext
  swap
  · cases heq
  obtain ⟨hproducer, hnew⟩ := h.producer.drainNext env
  have haccount : e.takeNext.1.Account (c.granted i + Task.grant i (.drainNext i : Task τ))
      (c.pushed i ++ if e.canceled then [] else (Task.pushed? i (.drainNext i : Task τ)).toList)
      (c.items r) e.takeNext.2 := by
    simpa [Task.grant, Task.pushed?] using h.account.takeNext
  have hothers' : ∀ k', k' ≠ k → ∀ t ∈ (c.work env k (.drainNext i) rest).stack k', Apart i r t := by
    intro k' hk'
    rw [Crew.stack_work_of_ne _ _ _ _ hk']
    exact hothers k' hk'
  have hnobody (hnone : e.takeNext.2 = none) :
      Drains i r l (c.work env k (.drainNext i) rest) false none := by
    refine .nobody fun k' => ?_
    by_cases hk' : k' = k
    · subst hk'
      rw [Crew.stack_work_self, hnew, hnone]
      exact hrest
    · exact hothers' k' hk'
  by_cases hc : e.canceled = true
  · have htake := Echo.takeNext_of_canceled hc
    have hdrains := hnobody (by rw [htake])
    rw [htake] at hproducer haccount ⊢
    exact h.work (by simp) hproducer hdrains (by simp) haccount (Or.inl rfl) fun _ => rfl
  · rw [Bool.not_eq_true] at hc
    have hopen {flight' : Option Payload} : e.canceled = true → flight' = none := fun h =>
      absurd (hc.symm.trans h) Bool.false_ne_true
    obtain ⟨item, queue, -, -, htake⟩ | ⟨hempty, htake⟩ := Echo.takeNext_of_not_canceled hc
    · rw [htake] at hproducer hnew haccount ⊢
      refine h.work (by simp) hproducer ?_ (by simp) haccount (Or.inr (Or.inr (Or.inl hflag))) hopen
      dsimp only
      rw [hflag]
      have hstack : (c.work env k (.drainNext i) rest).stack k =
          .tell (.heard r (.next item)) :: .drainNext i :: rest := by
        rw [Crew.stack_work_self, hnew]
        rfl
      exact .delivering hstack hrest hothers'
    · have hdrains := hnobody (by rw [htake])
      rw [htake] at hproducer haccount ⊢
      exact h.work (by simp) hproducer hdrains (by simp) haccount
        (hempty.imp_right Or.inl) hopen

/-- The peer is told the item that was taken. -/
theorem hear (h : Echoing i r l e flight c) {s : Signal Payload}
    (hk : c.stack k = .tell (.heard r s) :: rest) :
    Echoing i r l e none (c.work env k (.tell (.heard r s)) rest) := by
  obtain ⟨heq, -⟩ | ⟨item, rest', hs, rfl, hflag, rfl, hrest, hothers⟩ :=
    h.drains.of_head hk (not_apart_heard s)
  · cases heq
  cases hs
  have hitem : (Crew.signal? (τ := τ) r (.tell (.heard r (.next item)))) = some (.next item) :=
    Crew.signal?_heard r _
  refine ⟨h.producer.congr (Exchange.producer?_perform env (by simp [Task.producer?]) _), ?_, ?_, ?_,
    Or.inr (Or.inr (Or.inl hflag)), ?_⟩
  · rw [hflag]
    refine .between (Crew.stack_work_self env k _ _ c) (fun t ht => ?_) hrest fun k' hk' => ?_
    · obtain ⟨cl, -, rfl⟩ := List.mem_map.mp ht
      exact .of_isOuter rfl
    · rw [Crew.stack_work_of_ne _ _ _ _ hk']
      exact hothers k' hk'
  · rw [h.canceled, Crew.done_work, List.mem_append]
    simp
  · have hitems : (c.work env k (.tell (.heard r (.next item))) (.drainNext i :: rest')).items r =
        c.items r ++ [item] := by
      rw [Crew.items_work, hitem]
      rfl
    have hpushed : (c.work env k (.tell (.heard r (.next item))) (.drainNext i :: rest')).pushed i =
        c.pushed i := by
      by_cases hc : e.canceled = true
      · exact Crew.pushed_work_of_mem (h.canceled.mp hc)
      · rw [Crew.pushed_work_of_notMem (mt h.canceled.mpr hc)]
        exact List.append_nil _
    rw [hitems, hpushed, Crew.granted_work]
    exact h.account.tell
  · intro before after hdone
    obtain ⟨rfl, hcancel, -⟩ | ⟨after, rfl, hbefore⟩ := Crew.done_split hdone
    · cases hcancel
    · simpa [hitem] using h.late before after hbefore

/-- All other tasks leave the echo as it is. -/
theorem other (h : Echoing i r l e flight c) (hsole : c.exchange.SoleReceiver r i)
    (hk : c.stack k = t :: rest) (ht : Apart i r t) (hask : ∀ a, t ≠ .call (.ask i a))
    (hpush : ∀ item, t ≠ .push i item) (hdrain : t ≠ .drain i) :
    Echoing i r l e flight (c.work env k t rest) := by
  have hsection : EchoAt i r e (c.exchange.perform env t).1 ∧
      ∀ t' ∈ (c.exchange.perform env t).2, Apart i r t' := by
    by_cases hi : t.producer? = some i
    · obtain ⟨hproducer, hnew⟩ := h.producer.other env hi hask hpush hdrain ht.drainNext
      exact ⟨hproducer, by simp [hnew]⟩
    · exact ⟨h.producer.congr (Exchange.producer?_perform env hi _),
        fun _ => .of_mem_perform hsole hi⟩
  refine h.apart hk ht hsection.1 hsection.2 rfl (by simp [hask]) ?_ (h.drained_work hk hdrain)
  simpa [Task.grant_eq_zero fun n => hask (.request n), Task.pushed?_eq_none hpush] using h.account

omit env in
/-- A task is performed. -/
theorem perform (env : Environment σ τ) (h : Echoing i r l e flight c)
    (hsole : c.exchange.SoleReceiver r i)
    (hk : c.stack k = t :: rest) : ∃ e' flight', Echoing i r l e' flight' (c.work env k t rest) := by
  by_cases hapart : Apart i r t
  · by_cases hask : ∃ a, t = .call (.ask i a)
    · obtain ⟨n | -, rfl⟩ := hask
      · exact ⟨_, _, h.request hk⟩
      · exact ⟨_, _, h.cancel hk⟩
    by_cases hpush : ∃ item, t = .push i item
    · obtain ⟨item, rfl⟩ := hpush
      exact ⟨_, _, h.push hk⟩
    by_cases hdrain : t = .drain i
    · subst hdrain
      exact ⟨_, _, h.drain hk⟩
    · exact ⟨_, _, h.other hsole hk hapart (fun a ha => hask ⟨a, ha⟩)
        (fun item hitem => hpush ⟨item, hitem⟩) hdrain⟩
  · obtain ⟨rfl, -⟩ | ⟨item, _, rfl, -⟩ := h.drains.of_head hk hapart
    · exact ⟨_, _, h.drainNext hk⟩
    · exact ⟨_, _, h.hear hk⟩

/-- A thread begins with something that has nothing to do with the echo. -/
theorem begins (h : Echoing i r l e flight c) {ts : List (Task τ)} {x : Exchange σ}
    (hk : c.stack k = []) (hx : EchoAt i r e x) (hts : ∀ t ∈ ts, Apart i r t) :
    Echoing i r l e flight (c.turn k ts x) := by
  have hturn : Crew.Turns k [] ts c (c.turn k ts x) :=
    ⟨⟨[], hk, by rw [List.append_nil]; rfl, fun _ => rfl⟩, (List.append_nil _).symm⟩
  refine ⟨hx, h.drains.turns hturn (by simp) hts, h.canceled, h.account, ?_, h.late⟩
  exact h.drained.imp_right <| .imp_right <| .imp_right <| .imp_left fun hpending =>
    (hturn.pending hpending).resolve_right (List.not_mem_nil)

omit [DecidableEq ι] in
theorem mark (h : Echoing i r l e flight c) (m : List Mark) :
    Echoing i r (l ++ m) e flight c :=
  ⟨h.producer, h.drains.mark m, h.canceled, h.account,
    h.drained.imp_right <| .imp_right <| .imp_right <| .imp_right <| List.mem_append_left m, h.late⟩

theorem panic (h : Echoing i r l e flight c) {p : Panic}
    (hk : c.stack k = .call (.raise p) :: rest) :
    Echoing i r (l ++ [.panicked]) e flight (c.turn k [] c.exchange) where
  producer := h.producer
  drains := h.drains.panic hk
  canceled := h.canceled
  account := h.account
  drained := Or.inr (Or.inr (Or.inr (Or.inr (List.mem_append_right l (List.mem_singleton_self _)))))
  late := h.late

/-- **Every step keeps the account of an echo**, and leaves one call at most to empty the queue. -/
theorem step (h : Echoing i r l e flight c) (hstep : Crew.Leaves env rules i c m d)
    (hsole : c.exchange.SoleReceiver r i) : ∃ e' flight', Echoing i r (l ++ m) e' flight' d := by
  cases hstep with
  | work hk ht =>
    obtain ⟨e', flight', h'⟩ := h.perform env hsole hk
    exact ⟨e', flight', h'.mark []⟩
  | panic hk => exact ⟨e, flight, h.panic hk⟩
  | start hk hstart =>
    obtain ⟨initial, hp⟩ := h.producer
    obtain ⟨x, hx, hp⟩ := Option.map_eq_some_iff.mp hp
    have hx' : EchoAt i r e _ :=
      ⟨initial, by rw [Exchange.producer?, rules.keeps hstart hx, ← hp]; rfl⟩
    exact ⟨e, flight, (h.begins hk hx' fun t ht => .of_isOuter (rules.outer hstart t ht)).mark []⟩
  | @emit k j p emitter s hk hemit hp hs =>
    have hne : j ≠ i := by
      rintro rfl
      obtain ⟨initial, hp'⟩ := h.producer
      rw [Exchange.scripted?_eq_some.mp hp] at hp'
      cases hp'
    refine ⟨e, flight, (h.begins hk
      (h.producer.congr (Exchange.producer?_send_of_ne hne p emitter s _)) fun t ht => ?_).mark _⟩
    simp only [Exchange.send, Option.mem_toList, Option.map_eq_some_iff] at ht
    obtain ⟨r', hr', rfl⟩ := ht
    refine ⟨fun s' hs' => ?_, by simp⟩
    cases hs'
    exact hne (hsole j ((Exchange.remote?_of_scripted? hp).trans hr'))

theorem of_recorded (hrun : Crew.Recorded env rules i c l d) (hsole : d.exchange.SoleReceiver r i)
    (h : Echoing i r [] e flight c) : ∃ e' flight', Echoing i r l e' flight' d := by
  induction hrun with
  | refl => exact ⟨e, flight, h⟩
  | tail _ hstep ih =>
    have hsole' := fun j hj => hsole j (Crew.remote?_step hstep.step hj)
    obtain ⟨e', flight', h'⟩ := ih hsole'
    exact h'.step hstep hsole'

omit [DecidableEq ι] in
/-- After the peer has canceled, no task takes an item for it. -/
theorem heard_notMem (h : Echoing i r l e flight c) (hsole : c.exchange.SoleReceiver r i)
    (hcancel : .call (.ask i .cancel) ∈ c.done) (t : Task τ) (s : Signal Payload) :
    .tell (.heard r s) ∉ (c.exchange.perform env t).2 := by
  intro hmem
  have hi : t.producer? = some i := by
    by_contra hi
    exact (Apart.of_mem_perform hsole hi hmem).heard s rfl
  by_cases hask : ∃ a, t = .call (.ask i a)
  · obtain ⟨n | -, rfl⟩ := hask
    · simp [(h.producer.request env n).2] at hmem
    · simp [(h.producer.cancel env).2] at hmem
  by_cases hpush : ∃ item, t = .push i item
  · obtain ⟨item, rfl⟩ := hpush
    simp [(h.producer.push env item).2] at hmem
  by_cases hdrain : t = .drain i
  · subst hdrain
    simp [(h.producer.drain env).2] at hmem
  by_cases hnext : t = .drainNext i
  · subst hnext
    simp [(h.producer.drainNext env).2, Echo.takeNext_of_canceled (h.canceled.mpr hcancel)] at hmem
  · simp [(h.producer.other env hi (fun a ha => hask ⟨a, ha⟩)
      (fun item hitem => hpush ⟨item, hitem⟩) hdrain hnext).2] at hmem

omit [DecidableEq ι] in
/-- When nothing is to be done about the queue, all has been told that could be. -/
theorem items_eq (h : Echoing i r l e flight c) (hcancel : .call (.ask i .cancel) ∉ c.done)
    (hcalm : .panicked ∉ l) (hlimit : min (c.granted i) (c.pushed i).length ≤ Demand.limit)
    (hdrain : ¬ c.Pending (.drain i)) (hnext : ¬ c.Pending (.drainNext i)) :
    c.items r = (c.pushed i).take (c.granted i) := by
  obtain ⟨hflag, rfl⟩ := h.drains.eq_of_not_pending hcalm hnext
  have hc : e.canceled = false := Bool.eq_false_iff.mpr (mt h.canceled.mp hcancel)
  refine h.account.told_eq hc hlimit ?_
  obtain hqueue | hdemand | hdraining | hpending | hpanicked := h.drained
  · exact Or.inl hqueue
  · exact Or.inr hdemand
  · exact absurd (hflag.symm.trans hdraining) Bool.false_ne_true
  · exact absurd hpending hdrain
  · exact absurd hpanicked hcalm

end Echoing

/-- The peer `r` has just subscribed to the echo `i`: it has not asked for anything, nothing has been
pushed, and nobody empties the queue. -/
structure JustEchoing (i : Nat) (r : Handle) (c : Crew ι σ τ) : Prop where
  producer : EchoAt i r {} c.exchange
  stack : ∀ k, ∀ t ∈ c.stack k, Apart i r t
  done : ∀ t ∈ c.done, (∀ s, t ≠ .tell (.heard r s)) ∧ (∀ a, t ≠ .call (.ask i a)) ∧
    ∀ item, t ≠ .push i item

theorem JustEchoing.echoing (h : JustEchoing i r c) : Echoing i r [] {} none c where
  producer := h.producer
  drains := .nobody h.stack
  canceled := iff_of_false Bool.false_ne_true fun hmem => (h.done _ hmem).2.1 _ rfl
  account := by
    have hgranted : c.granted i = 0 := List.sum_eq_zero fun n hn => by
      obtain ⟨t, ht, rfl⟩ := List.mem_map.mp hn
      exact Task.grant_eq_zero fun n => (h.done t ht).2.1 _
    have hpushed : c.pushed i = [] := List.filterMap_eq_nil_iff.mpr fun t ht =>
      Task.pushed?_eq_none (h.done t ((List.takeWhile_prefix _).subset ht)).2.2
    have hsignals : c.signals r = [] :=
      List.filterMap_eq_nil_iff.mpr fun t ht => Crew.signal?_eq_none (h.done t ht).1
    have hitems : c.items r = [] := by
      rw [Crew.items, hsignals]
      rfl
    rw [hgranted, hpushed, hitems]
    exact ⟨List.prefix_refl _, fun _ => rfl, Nat.le_refl _, Nat.min_le_left _ _⟩
  drained := Or.inl rfl
  late before after hdone :=
    absurd rfl ((h.done (.call (.ask i .cancel)) (by simp [hdone])).2.1 .cancel)

variable [DecidableEq ι]

/-- **What an echo delivers**, for every interleaving and every nesting of pushes, demand and
cancellations.  The peer is told items that were pushed before it canceled, each once and in order,
and no more of them than it has asked for; no two of them are delivered at the same time.  When no
call is emptying the queue or about to, the peer has been told all that it could be told, unless it
has canceled, a thread has panicked, or that is more than the largest amount of demand.  After it has
canceled no item is taken any more, and it is told one at most, which had been taken before. -/
theorem items_echo (hstart : JustEchoing i r c) (hrun : Crew.Recorded env rules i c l d)
    (hsole : d.exchange.SoleReceiver r i) :
    d.items r <+: d.pushed i ∧ (d.items r).length ≤ d.granted i ∧ Deliveries i r d ∧
    (.call (.ask i .cancel) ∉ d.done → .panicked ∉ l →
      min (d.granted i) (d.pushed i).length ≤ Demand.limit →
      ¬ d.Pending (.drain i) → ¬ d.Pending (.drainNext i) →
      d.items r = (d.pushed i).take (d.granted i)) ∧
    (.call (.ask i .cancel) ∈ d.done →
      ∀ t s, .tell (.heard r s) ∉ (d.exchange.perform env t).2) ∧
    ∀ before after, d.done = before ++ .call (.ask i .cancel) :: after →
      (after.filterMap (Crew.signal? r)).length ≤ 1 := by
  obtain ⟨e, flight, h⟩ := Echoing.of_recorded hrun hsole hstart.echoing
  refine ⟨h.account.told_prefix, h.account.length_le, h.drains.deliveries, h.items_eq,
    h.heard_notMem hsole, fun before after hdone => ?_⟩
  have hlate := h.late before after hdone
  omega

/-! ## A peer that asks and sends while it is told an item -/

/-- A thread does what it has to do next, unless that is to panic. -/
theorem Crew.Recorded.next (h : Crew.Recorded env rules i c l d) (k : ι)
    (hcalm : ∀ p, ¬ d.Pending (.call (.raise p))) :
    Crew.Recorded env rules i c l (d.next env k) := by
  unfold Crew.next
  split
  · exact h
  · rename_i p rest hk
    exact absurd ⟨k, by rw [hk]; exact List.mem_cons_self⟩ (hcalm p)
  · rename_i t rest hne hk
    have hnext := h.tail (.work hk hne)
    rwa [List.append_nil] at hnext

/-- Where the far side does not panic, no thread does. -/
theorem Crew.not_pending_raise_next (henv : ∀ event far p, Call.raise p ∉ (env.react event far).2)
    (k : ι) (hcalm : ∀ p, ¬ c.Pending (.call (.raise p))) (p : Panic) :
    ¬ (c.next env k).Pending (.call (.raise p)) := by
  unfold Crew.next
  split
  · exact hcalm p
  · rename_i q rest hk
    exact absurd ⟨k, by rw [hk]; exact List.mem_cons_self⟩ (hcalm q)
  · rename_i t rest hne hk
    rintro ⟨k', hmem⟩
    have hturn : Crew.Turns k [t] (c.exchange.perform env t).2 c (c.work env k t rest) :=
      ⟨⟨rest, hk, rfl, by rintro ⟨⟩⟩, rfl⟩
    obtain hmem | ⟨-, hmem⟩ := hturn.mem_stack hmem
    · exact hcalm p ⟨k', hmem⟩
    · cases Exchange.Origin.of_mem hmem with
      | call hcall => exact henv _ _ p hcall

theorem Crew.recorded_play (henv : ∀ event far p, Call.raise p ∉ (env.react event far).2)
    (schedule : List ι) (hcalm : ∀ p, ¬ c.Pending (.call (.raise p))) :
    Crew.Recorded env rules i c [] (c.play env schedule) ∧
      ∀ p, ¬ (c.play env schedule).Pending (.call (.raise p)) := by
  induction schedule using List.reverseRecOn with
  | nil => exact ⟨.refl, hcalm⟩
  | append_singleton schedule k ih =>
    rw [Crew.play, List.foldl_append]
    exact ⟨ih.1.next k ih.2, Crew.not_pending_raise_next henv k ih.2⟩

namespace Reentrant

/-- The handle of the peer. -/
def peer : Handle := ⟨0, 1⟩

/-- A far side that asks for an item once it has its subscription.  While it is told `⟨"a", "b"⟩`,
it asks for another one and sends `⟨"e", "f"⟩`. -/
def environment : Environment Unit Unit where
  dial _ := none
  react
    | .attached _ i, far => (far, [.ask i (.request 1)])
    | .heard _ (.next ⟨"a", "b"⟩), far => (far, [.ask 0 (.request 1), .signal 0 (.next ⟨"e", "f"⟩)])
    | _, far => (far, [])
  idle _ := none

/-- Nothing is begun. -/
def moves : Crew.Rules Bool Unit Unit where
  starts _ _ _ _ := False
  keeps h := h.elim
  outer h := h.elim
  emits _ _ _ := False

/-- The peer has just subscribed to the echo of a channel, and another thread has received
`⟨"c", "d"⟩`. -/
def start : Crew Bool Unit Unit where
  exchange := {
    far := ()
    interactions := #[{
      receiver := .payloads { label := "", initialDemand := 1, forward := some .echo }
      producer := .echo { initial := ⟨"a", "b"⟩, remote := some peer } }] }
  stack k := if k then [.push 0 ⟨"a", "b"⟩, .tell (.attached peer 0)] else [.push 0 ⟨"c", "d"⟩]

/-- The peer is told the initial payload, and pushes and demand come before that call has
returned. -/
def schedule : List Bool :=
  [true, true, true, true, true, true, true, true, false, false, true, true, true, true, true, true,
    true, true]

theorem not_raise (event : Event Unit) (far : Unit) (p : Panic) :
    Call.raise p ∉ (environment.react event far).2 := by
  intro hmem
  unfold environment at hmem
  dsimp only at hmem
  split at hmem <;> simp at hmem

theorem recorded : Crew.Recorded environment moves 0 start [] (start.play environment schedule) := by
  refine (Crew.recorded_play not_raise schedule ?_).1
  rintro p ⟨_ | _, hmem⟩ <;> simp [start] at hmem

theorem justEchoing : JustEchoing 0 peer start where
  producer := ⟨⟨"a", "b"⟩, rfl⟩
  stack k t ht := by
    cases k <;> simp [start] at ht
    · subst ht
      exact ⟨by simp, by simp⟩
    · obtain rfl | rfl := ht <;> exact ⟨by simp, by simp⟩
  done := by simp [start]

theorem quiet : (start.play environment schedule).Quiet := by
  rintro (_ | _) <;> rfl

end Reentrant

/-- A peer that asks for two items, the second one while it is told the first, is told the first two
of three that are pushed meanwhile. -/
theorem items_echo_reentrant :
    JustEchoing 0 Reentrant.peer Reentrant.start ∧
    Crew.Recorded Reentrant.environment Reentrant.moves 0 Reentrant.start []
      (Reentrant.start.play Reentrant.environment Reentrant.schedule) ∧
    (Reentrant.start.play Reentrant.environment Reentrant.schedule).pushed 0 =
      [⟨"a", "b"⟩, ⟨"c", "d"⟩, ⟨"e", "f"⟩] ∧
    (Reentrant.start.play Reentrant.environment Reentrant.schedule).items Reentrant.peer =
      [⟨"a", "b"⟩, ⟨"c", "d"⟩] := by
  obtain ⟨-, -, -, htake, -⟩ := items_echo Reentrant.justEchoing
    Reentrant.recorded (Exchange.soleReceiver_of_size rfl Reentrant.peer)
  refine ⟨Reentrant.justEchoing, Reentrant.recorded, rfl, ?_⟩
  exact htake (Task.cancel_notMem_of_all rfl) (by simp) (by decide) Reentrant.quiet.not_pending
    Reentrant.quiet.not_pending

end StreamConformance
