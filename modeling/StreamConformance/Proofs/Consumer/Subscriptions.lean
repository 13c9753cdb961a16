import Mathlib.Data.List.Induction
import StreamConformance.Proofs.Consumer.Accounting

/-!
# The subscriptions of a consumer

A consumer may be offered any number of subscriptions.  It is to keep the first, turn down every
other, and have done with all of them once its stream has ended.  `KeepsOne` says what that means
for a run, and `keepsOne_iff` when it is so.

As long as the stream goes on, a consumer that has a subscription turns down the next, and one that
has canceled turns down all of them.  But the end of a stream by its producer leaves the consumer
without a subscription, just as before the first came, and the next one is taken and asked for
items.  So a run keeps to one subscription exactly if no subscription is offered late.

* `count_cancel_le`: in any run, no subscription is canceled more often than it was offered.
* `Keeps`: the invariant of a run in which no subscription comes late.
* `keepsOne_iff`, `not_keepsOne_late`.
-/

namespace StreamConformance
namespace Consumer

variable {ι η φ : Type} {c c' : Consumer ι η φ} {op : Operation ι η φ} {a : Option (η × Ask)}
  {ops : List (Operation ι η φ)} {label : String} {initialDemand : Nat}

/-! ## Offers and asks -/

/-- The subscription that is offered by an operation. -/
def Operation.offer? : Operation ι η φ → Option η
  | .subscribed h => some h
  | _ => none

/-- The subscriptions that are offered by some operations, in order. -/
def offers (ops : List (Operation ι η φ)) : List η :=
  ops.filterMap Operation.offer?

theorem offers_concat (ops : List (Operation ι η φ)) (op : Operation ι η φ) :
    offers (ops ++ [op]) = offers ops ++ op.offer?.toList := by
  rw [offers, List.filterMap_append, offers]
  cases h : op.offer? <;> simp [h]

theorem run_concat (label : String) (initialDemand : Nat) (ops : List (Operation ι η φ))
    (op : Operation ι η φ) :
    run label initialDemand (ops ++ [op]) = (run label initialDemand ops).after op :=
  Run.afterAll_append ..

/-- How a stream has ended in a run. -/
theorem terminal_run (label : String) (initialDemand : Nat) (ops : List (Operation ι η φ)) :
    (run label initialDemand ops).consumer.terminal = ops.findSome? Operation.terminal? :=
  terminal_afterAll _ ops

/-- No subscription is offered after a completion or an error. -/
def Timely (ops : List (Operation ι η φ)) : Prop :=
  ∀ before h after, ops = before ++ .subscribed h :: after →
    before.findSome? Operation.terminal? = none ∨
      before.findSome? Operation.terminal? = some .canceled

theorem Timely.of_append {later : List (Operation ι η φ)} (h : Timely (ops ++ later)) :
    Timely ops := by
  rintro before h' after rfl
  exact h before h' (after ++ later) (by simp)

/-! ## After the end -/

/-- Once the stream has ended, an offer that does not come late is turned down, and nothing else is
asked. -/
theorem Becomes.ask_of_terminal (hb : Becomes c op c' a) (hterm : c.terminal ≠ none)
    (htimely : ∀ h, op = .subscribed h → c.terminal = some .canceled) :
    a = op.offer?.map fun h => (h, .cancel) := by
  cases hb with
  | late | tooLate | recorded | forwarded | turnedDown => rfl
  | accepted h hcanceled => exact absurd (htimely h rfl) hcanceled
  | taken _ hactive | completed hactive | failed _ hactive | canceled hactive | nothing hactive
  | asked _ hactive | held _ hactive => exact absurd hactive hterm

/-- A subscription that comes late is held. -/
theorem held_of_late (h : η) (hfree : c.subscription = none) (hterm : c.terminal ≠ none)
    (hcanceled : c.terminal ≠ some .canceled) :
    (c.perform (.subscribed h)).1.terminal ≠ none ∧
      (c.perform (.subscribed h)).1.subscription ≠ none := by
  have hb := becomes_perform c (.subscribed h)
  generalize (c.perform (.subscribed h)).1 = c' at hb ⊢
  generalize (c.perform (.subscribed h)).2.ask = a at hb
  cases hb with
  | accepted => exact ⟨hterm, Option.some_ne_none h⟩
  | turnedDown _ hbusy =>
    rcases hbusy with hbusy | hbusy
    · exact absurd hbusy hcanceled
    · exact absurd hfree hbusy

section Asks

variable [DecidableEq η] {h : η}

/-- What is asked of a subscription, in order. -/
def asksTo (h : η) (asked : List (η × Ask)) : List Ask :=
  asked.filterMap fun ask => if ask.1 = h then some ask.2 else none

theorem asksTo_append (h : η) (asked later : List (η × Ask)) :
    asksTo h (asked ++ later) = asksTo h asked ++ asksTo h later :=
  List.filterMap_append

theorem asksTo_of_ne {h' : η} (hne : h' ≠ h) (ask : Ask) :
    asksTo h (some (h', ask)).toList = [] := by
  simp [asksTo, hne]

/-- What is asked of a subscription with one more operation. -/
theorem asksTo_after (h : η) (r : Run ι η φ) (op : Operation ι η φ) :
    asksTo h (r.after op).asked =
      asksTo h r.asked ++ asksTo h (r.consumer.perform op).2.ask.toList :=
  asksTo_append ..

/-! ## Cancellations -/

/-- A subscription is canceled when it is turned down or given up, and it is given up only if it is
held. -/
theorem Becomes.count_cancel_le (hb : Becomes c op c' a) (h : η) :
    (asksTo h a.toList).count .cancel + (if c'.subscription = some h then 1 else 0) ≤
      (if c.subscription = some h then 1 else 0) + op.offer?.toList.count h := by
  cases hb with
  | late | tooLate | taken | nothing | held | recorded | forwarded =>
    simp [asksTo, Operation.offer?]
  | completed | failed => simp [asksTo, Operation.offer?]
  | asked hn hterm hsub =>
    rename_i n h'
    by_cases hh : h' = h
    · subst hh
      simp [asksTo, Operation.offer?, hsub]
    · simp [asksTo, Operation.offer?, hsub, hh]
  | canceled hterm =>
    cases hsub : c.subscription with
    | none => simp [asksTo, Operation.offer?]
    | some h' =>
      by_cases hh : h' = h
      · subst hh
        simp [asksTo, Operation.offer?]
      · simp [asksTo, Operation.offer?, hh]
  | accepted h' hterm hsub =>
    by_cases hh : h' = h
    · subst hh
      split <;> simp [asksTo, Operation.offer?, hsub]
    · split <;> simp [asksTo, Operation.offer?, hsub, hh]
  | turnedDown h' hbusy =>
    by_cases hh : h' = h
    · subst hh
      simp [asksTo, Operation.offer?, Nat.add_comm]
    · simp [asksTo, Operation.offer?, hh]

/-- **No subscription is canceled more often than it was offered.** -/
theorem count_cancel_le (label : String) (initialDemand : Nat) (ops : List (Operation ι η φ))
    (h : η) :
    (asksTo h (run label initialDemand ops).asked).count .cancel ≤ (offers ops).count h := by
  -- A subscription that is held may still be canceled.
  suffices hheld : (asksTo h (run label initialDemand ops).asked).count .cancel +
      (if (run label initialDemand ops).consumer.subscription = some h then 1 else 0) ≤
        (offers ops).count h from Nat.le_trans (Nat.le_add_right _ _) hheld
  induction ops using List.reverseRecOn with
  | nil => exact Nat.le_refl 0
  | append_singleton ops op ih =>
    have hstep := (becomes_perform (run label initialDemand ops).consumer op).count_cancel_le h
    rw [run_concat, asksTo_after, offers_concat, List.count_append, List.count_append]
    show _ + (if ((run label initialDemand ops).consumer.perform op).1.subscription = some h
      then 1 else 0) ≤ _
    omega

/-! ## Keeping to one subscription -/

/-- Of the subscriptions offered one at most is asked for items, and every other is canceled as
often as it is offered; no subscription is canceled more often than that; and once the stream has
ended, the consumer holds no subscription and asks for nothing, and a subscription that comes then
is canceled. -/
structure KeepsOne (label : String) (initialDemand : Nat) (ops : List (Operation ι η φ)) :
    Prop where
  sole : ∃ kept : Option η, ∀ h, kept ≠ some h →
    asksTo h (run label initialDemand ops).asked =
      List.replicate ((offers ops).count h) .cancel
  canceled : ∀ h,
    (asksTo h (run label initialDemand ops).asked).count .cancel ≤ (offers ops).count h
  silent : ∀ before after, ops = before ++ after →
    (run label initialDemand before).consumer.terminal ≠ none →
      (run label initialDemand before).consumer.subscription = none ∧
        ∀ op later, after = op :: later →
          ((run label initialDemand before).consumer.perform op).2.ask =
            op.offer?.map fun h => (h, .cancel)

/-- The subscription `kept` is the one that the consumer holds until the end, and all others were
turned down. -/
structure Keeps (kept : Option η) (ops : List (Operation ι η φ)) (r : Run ι η φ) : Prop where
  others : ∀ h, kept ≠ some h →
    asksTo h r.asked = List.replicate ((offers ops).count h) .cancel
  held : r.consumer.terminal = none → r.consumer.subscription = kept
  ended : r.consumer.terminal ≠ none → r.consumer.subscription = none

/-- An operation that asks nothing of a subscription that was turned down, and offers none. -/
theorem Keeps.others_of_not_offer {kept : Option η} {r : Run ι η φ} (hk : Keeps kept ops r)
    (hoffer : op.offer? = none) (ha : ∀ ask, a = some ask → kept = some ask.1) {h : η}
    (hh : kept ≠ some h) :
    asksTo h (r.asked ++ a.toList) =
      List.replicate ((offers (ops ++ [op])).count h) .cancel := by
  have hnone : asksTo h a.toList = [] := by
    cases a with
    | none => rfl
    | some ask => exact asksTo_of_ne (fun hne => hh (by rw [ha ask rfl, hne])) ask.2
  rw [asksTo_append, hnone, List.append_nil, offers_concat, hoffer, Option.toList_none,
    List.append_nil]
  exact hk.others h hh

/-- As long as no subscription comes late, one is kept at most. -/
theorem Keeps.after {kept : Option η} {r : Run ι η φ} (hk : Keeps kept ops r)
    (htimely : ∀ h, op = .subscribed h →
      r.consumer.terminal = none ∨ r.consumer.terminal = some .canceled) :
    ∃ kept', Keeps kept' (ops ++ [op]) (r.after op) := by
  obtain ⟨c, a, hb, hafter⟩ := r.after_eq op
  rw [hafter]
  cases hb with
  | late | tooLate | taken | nothing | recorded | forwarded =>
    exact ⟨kept, fun h hh => hk.others_of_not_offer rfl (by simp) hh, hk.held, hk.ended⟩
  | held hn hterm hsub =>
    exact ⟨kept, fun h hh => hk.others_of_not_offer rfl (by simp) hh, hk.held, hk.ended⟩
  | completed hterm | failed message hterm =>
    refine ⟨kept, fun h hh => hk.others_of_not_offer rfl (by simp) hh, ?_, fun _ => rfl⟩
    intro hnone
    cases hnone
  | canceled hterm =>
    refine ⟨kept, fun h hh => hk.others_of_not_offer rfl ?_ hh, ?_, fun _ => rfl⟩
    · intro ask hask
      obtain ⟨h', hh', rfl⟩ := Option.map_eq_some_iff.mp hask
      rw [← hk.held hterm, hh']
    · intro hnone
      cases hnone
  | asked hn hterm hsub =>
    refine ⟨kept, fun h hh => hk.others_of_not_offer rfl ?_ hh, hk.held, hk.ended⟩
    rintro ask ⟨⟩
    rw [← hk.held hterm, hsub]
  | accepted h' hcanceled hsub =>
    -- The first subscription is kept, and so far all others were turned down.
    have hterm : r.consumer.terminal = none := (htimely h' rfl).resolve_right hcanceled
    obtain rfl : kept = none := (hk.held hterm).symm.trans hsub
    refine ⟨some h', fun h hh => ?_, fun _ => rfl, fun hne => absurd hterm hne⟩
    have hne : h' ≠ h := fun hne => hh (congrArg some hne)
    have hcount : (offers (ops ++ [.subscribed h'])).count h = (offers ops).count h := by
      rw [offers_concat, List.count_append]
      simp [Operation.offer?, hne]
    rw [hcount, ← hk.others h (Option.some_ne_none h).symm, asksTo_append]
    split <;> simp [asksTo, hne]
  | turnedDown h' hbusy =>
    refine ⟨kept, fun h hh => ?_, hk.held, hk.ended⟩
    rw [asksTo_append, hk.others h hh, offers_concat, List.count_append]
    by_cases hne : h' = h
    · subst hne
      simp [asksTo, Operation.offer?, List.replicate_succ']
    · simp [asksTo, Operation.offer?, hne]

theorem keeps_run (label : String) (initialDemand : Nat) (htimely : Timely ops) :
    ∃ kept, Keeps kept ops (run label initialDemand ops) := by
  induction ops using List.reverseRecOn with
  | nil => exact ⟨none, fun _ _ => rfl, fun _ => rfl, fun hne => absurd rfl hne⟩
  | append_singleton ops op ih =>
    obtain ⟨kept, hk⟩ := ih htimely.of_append
    rw [run_concat]
    refine hk.after fun h hop => ?_
    subst hop
    rw [terminal_run]
    exact htimely ops h [] rfl

/-- **When a consumer keeps to one subscription.**  In any run, no subscription is canceled more
often than it was offered; and a run keeps to one subscription exactly if none is offered after a
completion or an error. -/
theorem keepsOne_iff (label : String) (initialDemand : Nat) (ops : List (Operation ι η φ)) :
    (∀ h, (asksTo h (run label initialDemand ops).asked).count .cancel ≤ (offers ops).count h) ∧
      (KeepsOne label initialDemand ops ↔ Timely ops) := by
  refine ⟨count_cancel_le label initialDemand ops, fun hone => ?_, fun htimely => ?_⟩
  · rintro before h after rfl
    by_contra hlate
    rw [not_or, ← terminal_run label initialDemand] at hlate
    have hfree := (hone.silent before _ rfl hlate.1).1
    obtain ⟨hterm, hheld⟩ := held_of_late h hfree hlate.1 hlate.2
    have hsilent := hone.silent (before ++ [.subscribed h]) after (by simp)
    rw [run_concat] at hsilent
    exact hheld (hsilent hterm).1
  · obtain ⟨kept, hk⟩ := keeps_run label initialDemand htimely
    refine ⟨⟨kept, hk.others⟩, count_cancel_le label initialDemand ops, ?_⟩
    rintro before after rfl hterm
    obtain ⟨kept', hk'⟩ := keeps_run label initialDemand htimely.of_append
    refine ⟨hk'.ended hterm, ?_⟩
    rintro op later rfl
    refine (becomes_perform _ op).ask_of_terminal hterm ?_
    rintro h rfl
    have hcanceled := htimely before h later rfl
    rw [← terminal_run label initialDemand] at hcanceled
    exact hcanceled.resolve_left hterm

/-- **A subscription that comes after a completion is taken** and asked for an item, although the
consumer has had one already and its stream is over. -/
theorem not_keepsOne_late :
    ¬ ∀ ops : List (Operation Nat Nat Unit), KeepsOne "consumer" 1 ops := by
  intro hall
  have hone := hall [.subscribed 7, .deliver .complete, .subscribed 8]
  have hended : (run "consumer" 1 [.subscribed 7, .deliver .complete,
      .subscribed 8] : Run Nat Nat Unit).consumer.terminal ≠ none := by decide
  have hfree := (hone.silent _ [] rfl hended).1
  have hheld : (run "consumer" 1 [.subscribed 7, .deliver .complete,
      .subscribed 8] : Run Nat Nat Unit).consumer.subscription = some 8 := by decide
  rw [hheld] at hfree
  cases hfree

end Asks

end Consumer
end StreamConformance
