import Mathlib.Data.List.TakeWhile
import StreamConformance.Proofs.Channel.Links
import StreamConformance.Proofs.Responder.Streams

/-!
# What a link writes

A link decides on its frames by what has happened to it so far, and by nothing else.  This file
takes a link by itself: it is a machine that reads what the consumer, the producer and the reader
do, one after another, and writes frames.

* `Link.Input`, `Link.take`: what happens to a link, and what it makes of that.
* `Link.items`, `Link.granted`: the items that the producer sends in time, and the demand that the
  consumer grants before it cancels.
* `Link.OwesCancel`: the consumer has canceled an open channel, which the peer is to be told.
* `Link.after_outboundDone`, `Link.after_opened` and so on: where a link stands after a history.
* `Link.frames_eq_cons`: the first frame opens the channel, with the first item and with the demand
  that was granted before it.
* `Link.filterMap_item?_frames`, `Link.grants_frames`, `Link.pairwise_frames`: the items, the
  demand, and the end.
-/

namespace StreamConformance

theorem takeWhile_concat {α : Type*} (p : α → Bool) (l : List α) (a : α) :
    (l ++ [a]).takeWhile p = if l.all p then l ++ [a].takeWhile p else l.takeWhile p := by
  by_cases h : l.all p = true
  · rw [if_pos h, List.takeWhile_append_of_pos (List.all_eq_true.mp h)]
  · rw [if_neg h, List.takeWhile_append, if_neg]
    intro hlength
    have hself := (List.takeWhile_prefix p).eq_of_length hlength
    exact h (List.all_eq_true.mpr (List.takeWhile_eq_self_iff.mp hself))

namespace Client
namespace Link

open Wire (Frame)

/-- What happens to a link. -/
inductive Input where
  /-- The consumer grants demand. -/
  | grant (n : Nat)
  | cancel
  /-- The producer gives a subscription. -/
  | attach
  | item (p : Payload)
  | finish (message : Option String)
  /-- The reader cancels the producer. -/
  | dismiss
  deriving DecidableEq

namespace Input

def item? : Input → Option Payload
  | .item p => some p
  | _ => none

/-- The demand that is granted. -/
def granted : Input → Nat
  | .grant n => n
  | _ => 0

/-- No items go out any more. -/
def ends : Input → Bool
  | .finish _ => true
  | .dismiss => true
  | _ => false

end Input

/-- What a link makes of what happens to it. -/
def take (id : UInt32) (x : Input) (l : Link) : Link × Option Frame :=
  match x with
  | .grant n => l.grant id n
  | .cancel => (l.cancelInbound.1, none)
  | .attach => (l.attach.1, none)
  | .item p => l.send id p
  | .finish message => l.finish id message
  | .dismiss => (l.cancelOutbound.1, none)

/-- How far a link has come with what happens to it. -/
structure Takes (x : Input) (l l' : Link) : Prop where
  opened : l'.opened = (l.opened || (!l.outboundDone && x.item?.isSome))
  inboundDone : l'.inboundDone = (l.inboundDone || x == .cancel)
  outboundDone : l'.outboundDone = (l.outboundDone || x.ends)

theorem takes_take (id : UInt32) (x : Input) (l : Link) : l.Takes x (l.take id x).1 := by
  cases x with
  | grant n =>
    simp only [take, grant]
    constructor <;> split <;> (try split) <;> simp [Input.item?, Input.ends]
  | cancel =>
    simp only [take, cancelInbound]
    constructor <;> split <;> simp_all [Input.item?, Input.ends]
  | attach =>
    simp only [take, Link.attach]
    constructor <;> split <;> simp [Input.item?, Input.ends]
  | item p =>
    simp only [take, send]
    constructor <;> split <;> (try split) <;> simp_all [Input.item?, Input.ends]
  | finish message =>
    simp only [take, finish]
    constructor <;> split <;> simp_all [Input.item?, Input.ends]
  | dismiss => constructor <;> simp [take, cancelOutbound, Input.item?, Input.ends]

/-- The frame that a link writes, by what happens to it and by where it stands. -/
inductive Writes (id : UInt32) (l : Link) : Input → Frame → Prop where
  | requestN {n : Nat} (hin : l.inboundDone = false) (hopen : l.opened = true) :
      Writes id l (.grant n) (.requestN id n)
  | opening {p : Payload} (hout : l.outboundDone = false) (hopen : l.opened = false) :
      Writes id l (.item p) (.requestChannel id l.held p)
  | next {p : Payload} (hout : l.outboundDone = false) (hopen : l.opened = true) :
      Writes id l (.item p) (.next id p)
  | complete (hout : l.outboundDone = false) (hopen : l.opened = true) :
      Writes id l (.finish none) (.complete id)
  | error {message : String} (hout : l.outboundDone = false) (hopen : l.opened = true) :
      Writes id l (.finish (some message)) (.error id message)

theorem writes_of_take {id : UInt32} {x : Input} {l : Link} {f : Frame}
    (h : (l.take id x).2 = some f) : Writes id l x f := by
  cases x with
  | grant n =>
    simp only [take, grant] at h
    split at h
    · cases h
    · rename_i hin
      split at h
      · cases h
        exact .requestN (by simp_all) ‹_›
      · cases h
  | item p =>
    simp only [take, send] at h
    split at h
    · cases h
    · rename_i hout
      rw [Bool.not_eq_true] at hout
      split at h
      · cases h
        exact .next hout ‹_›
      · cases h
        exact .opening hout (by simp_all)
  | finish message =>
    simp only [take, finish] at h
    split at h
    · cases h
    · rename_i hout
      rw [Bool.not_eq_true] at hout
      dsimp only at h
      split at h
      · cases message <;> cases h
        · exact .complete hout ‹_›
        · exact .error hout ‹_›
      · cases h
  | cancel | attach | dismiss => cases h

/-- Items go out as long as the producer has neither ended nor been canceled. -/
theorem filterMap_item?_take (id : UInt32) (x : Input) (l : Link) :
    (l.take id x).2.toList.filterMap Frame.item? =
      if l.outboundDone then [] else x.item?.toList := by
  cases x with
  | grant n =>
    simp only [take, grant, Input.item?, Option.toList_none, ite_self]
    split
    · rfl
    · split <;> rfl
  | item p =>
    simp only [take, send]
    split
    · rfl
    · split <;> rfl
  | finish message =>
    simp only [take, finish, Input.item?, Option.toList_none, ite_self]
    split
    · rfl
    · split
      · cases message <;> rfl
      · rfl
  | cancel | attach | dismiss => simp [take, Input.item?]

/-- Demand goes out on an open channel as long as the consumer has not canceled. -/
theorem grants_take (id : UInt32) (x : Input) {l : Link} (hopen : l.opened = true) :
    Wire.grants (l.take id x).2.toList = if l.inboundDone then 0 else x.granted := by
  cases x with
  | grant n =>
    simp only [take, grant, hopen, if_true, Input.granted]
    cases l.inboundDone with
    | true => rfl
    | false =>
      by_cases hn : n = 0
      · simp [hn]
      · simp [hn]
  | item p =>
    simp only [take, send, hopen, if_true, Input.granted, ite_self]
    split <;> rfl
  | finish message =>
    simp only [take, finish, hopen, if_true, Input.granted, ite_self]
    split
    · rfl
    · cases message <;> rfl
  | cancel | attach | dismiss => simp [take, Input.granted]

/-- Demand waits for a channel that is not open, as long as the consumer has not canceled. -/
theorem held_take (id : UInt32) (x : Input) {l : Link} (hopen : (l.take id x).1.opened = false) :
    (l.take id x).1.held =
      if l.inboundDone = true ∨ x.granted = 0 then l.held else Demand.add l.held x.granted := by
  cases x with
  | grant n =>
    simp only [take, grant] at hopen ⊢
    by_cases hnone : l.inboundDone = true ∨ n = 0
    · rw [if_pos (by simpa using hnone)]
      exact (if_pos hnone).symm
    · have hgo : ¬ (l.inboundDone || n == 0) = true := by simpa using hnone
      rw [if_neg hgo] at hopen ⊢
      cases ho : l.opened with
      | true =>
        rw [ho, if_pos rfl] at hopen
        rw [ho] at hopen
        cases hopen
      | false =>
        rw [if_neg Bool.false_ne_true]
        exact (if_neg hnone).symm
  | item p =>
    simp only [take, send] at hopen ⊢
    cases hd : l.outboundDone with
    | true => simp [Input.granted]
    | false =>
      cases ho : l.opened <;> simp [hd, ho] at hopen
  | finish message =>
    simp only [take, finish, Input.granted, or_true, if_true]
    split <;> rfl
  | cancel =>
    simp only [take, cancelInbound, Input.granted, or_true, if_true]
    split <;> rfl
  | attach =>
    simp only [take, Link.attach, Input.granted, or_true, if_true]
    split <;> rfl
  | dismiss => simp [take, cancelOutbound, Input.granted]

/-! ## Histories -/

/-- Where a link stands that has read a history, and the frames that it has written. -/
def run (id : UInt32) (h : List Input) : Link × List Frame :=
  h.foldl (fun s x => ((s.1.take id x).1, s.2 ++ (s.1.take id x).2.toList)) ({}, [])

def after (id : UInt32) (h : List Input) : Link :=
  (run id h).1

def frames (id : UInt32) (h : List Input) : List Frame :=
  (run id h).2

@[simp] theorem after_nil (id : UInt32) : after id [] = {} := rfl

theorem after_concat (id : UInt32) (h : List Input) (x : Input) :
    after id (h ++ [x]) = ((after id h).take id x).1 := by
  rw [after, run, List.foldl_append]
  rfl

theorem frames_concat (id : UInt32) (h : List Input) (x : Input) :
    frames id (h ++ [x]) = frames id h ++ ((after id h).take id x).2.toList := by
  rw [frames, run, List.foldl_append]
  rfl

/-- The items that the producer sends before it ends or is canceled. -/
def items (h : List Input) : List Payload :=
  (h.takeWhile fun x => !x.ends).filterMap Input.item?

/-- What happens before the consumer cancels. -/
def beforeCancel (h : List Input) : List Input :=
  h.takeWhile (· != .cancel)

/-- The demand that the consumer grants before it cancels. -/
def granted (h : List Input) : Nat :=
  ((beforeCancel h).map Input.granted).sum

/-- The consumer has canceled, and the channel was open by then. -/
def OwesCancel (h : List Input) : Prop :=
  .cancel ∈ h ∧ items (beforeCancel h) ≠ []

instance (h : List Input) : Decidable (OwesCancel h) :=
  inferInstanceAs (Decidable (_ ∧ _))

/-- What happens before the first item. -/
def beforeItem (h : List Input) : List Input :=
  h.takeWhile fun x => x.item?.isNone

theorem items_concat (h : List Input) (x : Input) :
    items (h ++ [x]) = items h ++ if h.any Input.ends then [] else x.item?.toList := by
  have hall : (h.all fun x => !x.ends) = !h.any Input.ends := by
    rw [List.not_any_eq_all_not]
  rw [items, takeWhile_concat, hall, items]
  cases hany : h.any Input.ends with
  | true => exact (List.append_nil _).symm
  | false =>
    have hself : h.takeWhile (fun x => !x.ends) = h := by
      rw [List.takeWhile_eq_self_iff]
      exact List.all_eq_true.mp (by rw [hall, hany]; rfl)
    have hlast : ([x].takeWhile fun x => !x.ends).filterMap Input.item? = x.item?.toList := by
      cases x <;> rfl
    rw [Bool.not_false, if_pos rfl, List.filterMap_append, hlast, hself]
    rfl

theorem beforeCancel_eq_self {h : List Input} (hno : .cancel ∉ h) : beforeCancel h = h := by
  refine List.takeWhile_eq_self_iff.mpr fun x hx => ?_
  simpa using fun heq : x = .cancel => hno (heq ▸ hx)

theorem beforeCancel_concat (h : List Input) (x : Input) :
    beforeCancel (h ++ [x]) =
      if .cancel ∈ h then beforeCancel h else h ++ if x = .cancel then [] else [x] := by
  have hall : (h.all (· != .cancel)) = true ↔ .cancel ∉ h := by
    rw [List.all_eq_true]
    exact ⟨fun hne hmem => absurd (hne _ hmem) (by simp),
      fun hno y hy => by simpa using fun heq : y = .cancel => hno (heq ▸ hy)⟩
  rw [beforeCancel, takeWhile_concat]
  by_cases hc : .cancel ∈ h
  · rw [if_neg (mt hall.mp (not_not.mpr hc)), if_pos hc, beforeCancel]
  · rw [if_pos (hall.mpr hc), if_neg hc, List.takeWhile_cons, List.takeWhile_nil]
    by_cases hx : x = .cancel <;> simp [hx]

theorem granted_concat (h : List Input) (x : Input) :
    granted (h ++ [x]) = granted h + if .cancel ∈ h then 0 else x.granted := by
  rw [granted, beforeCancel_concat, granted]
  by_cases hc : .cancel ∈ h
  · rw [if_pos hc, if_pos hc, Nat.add_zero]
  · have hlast : ((if x = .cancel then [] else [x]).map Input.granted).sum = x.granted := by
      cases x <;> rfl
    rw [if_neg hc, if_neg hc, List.map_append, List.sum_append, hlast, beforeCancel_eq_self hc]

/-- The peer is to be told from the moment at which the consumer cancels an open channel. -/
theorem owesCancel_concat (h : List Input) (x : Input) :
    OwesCancel (h ++ [x]) ↔ OwesCancel h ∨ (.cancel ∉ h ∧ x = .cancel ∧ items h ≠ []) := by
  rw [OwesCancel, beforeCancel_concat, List.mem_append, List.mem_singleton, OwesCancel]
  by_cases hc : .cancel ∈ h
  · simp [hc]
  · by_cases hx : x = .cancel
    · simp [hc, hx]
    · simp [hc, hx, Ne.symm hx]

theorem items_ne_nil_of_owesCancel {h : List Input} (howes : OwesCancel h) : items h ≠ [] := by
  induction h using List.reverseRecOn with
  | nil => exact absurd howes.1 List.not_mem_nil
  | append_singleton h x ih =>
    rw [items_concat, Ne, List.append_eq_nil_iff, not_and_or]
    rcases (owesCancel_concat h x).mp howes with howes | ⟨-, -, hopen⟩
    · exact Or.inl (ih howes)
    · exact Or.inl hopen

/-! ## Where a link stands -/

section After

variable {id : UInt32} {h : List Input} {f : Frame} {p : Payload}

theorem after_outboundDone (id : UInt32) (h : List Input) :
    (after id h).outboundDone = h.any Input.ends := by
  induction h using List.reverseRecOn with
  | nil => rfl
  | append_singleton h x ih =>
    rw [after_concat, (takes_take id x _).outboundDone, ih, List.any_append, List.any_cons,
      List.any_nil, Bool.or_false]

theorem after_inboundDone (id : UInt32) (h : List Input) :
    (after id h).inboundDone = true ↔ .cancel ∈ h := by
  induction h using List.reverseRecOn with
  | nil => simp
  | append_singleton h x ih =>
    rw [after_concat, (takes_take id x _).inboundDone, Bool.or_eq_true, ih, List.mem_append,
      List.mem_singleton, beq_iff_eq, eq_comm (a := x)]

/-- A channel is open once an item has gone out. -/
theorem after_opened (id : UInt32) (h : List Input) :
    (after id h).opened = !(items h).isEmpty := by
  induction h using List.reverseRecOn with
  | nil => rfl
  | append_singleton h x ih =>
    rw [after_concat, (takes_take id x _).opened, ih, after_outboundDone, items_concat]
    cases h.any Input.ends <;> cases items h <;> cases x.item? <;> rfl

/-- What was granted before the channel was opened waits, as far as it can be counted. -/
theorem after_held (id : UInt32) (hnone : items h = []) :
    (after id h).held = min (granted h) Demand.limit := by
  induction h using List.reverseRecOn with
  | nil => rfl
  | append_singleton h x ih =>
    have hclosed : ((after id h).take id x).1.opened = false := by
      rw [← after_concat, after_opened, hnone]
      rfl
    rw [items_concat, List.append_eq_nil_iff] at hnone
    rw [after_concat, held_take id x hclosed, ih hnone.1, granted_concat]
    by_cases hc : .cancel ∈ h
    · have hdone := (after_inboundDone id h).mpr hc
      rw [if_pos (Or.inl hdone), if_pos hc, Nat.add_zero]
    · have hdone := mt (after_inboundDone id h).mp hc
      rw [if_neg hc]
      by_cases hx : x.granted = 0
      · rw [if_pos (Or.inr hx), hx, Nat.add_zero]
      · rw [if_neg (not_or.mpr ⟨hdone, hx⟩), Demand.add]
        omega

/-! ## What a link has written -/

theorem frames_of_items_eq_nil (hnone : items h = []) : frames id h = [] := by
  induction h using List.reverseRecOn with
  | nil => rfl
  | append_singleton h x ih =>
    have hclosed : (after id h).opened = false ∧ items h = [] ∧
        ((after id h).outboundDone = true ∨ x.item? = none) := by
      rw [items_concat, List.append_eq_nil_iff] at hnone
      rw [after_opened, hnone.1, after_outboundDone]
      refine ⟨rfl, rfl, ?_⟩
      cases hany : h.any Input.ends with
      | true => exact Or.inl rfl
      | false =>
        rw [hany] at hnone
        exact Or.inr (Option.toList_eq_nil_iff.mp hnone.2)
    rw [frames_concat, ih hclosed.2.1, List.nil_append, Option.toList_eq_nil_iff,
      Option.eq_none_iff_forall_not_mem]
    intro f hf
    cases writes_of_take hf <;> simp_all [Input.item?]

/-- **The items that a link writes** are those that the producer sends in time. -/
theorem filterMap_item?_frames (id : UInt32) (h : List Input) :
    (frames id h).filterMap Frame.item? = items h := by
  induction h using List.reverseRecOn with
  | nil => rfl
  | append_singleton h x ih =>
    rw [frames_concat, List.filterMap_append, ih, filterMap_item?_take, after_outboundDone,
      items_concat]

/-- The first item opens the channel, and takes the demand along that was granted before it. -/
theorem frames_concat_of_first (id : UInt32) {x : Input} {ps : List Payload} (hold : items h = [])
    (hitems : items (h ++ [x]) = p :: ps) :
    x = .item p ∧ beforeItem (h ++ [x]) = h ∧
      frames id (h ++ [x]) = [.requestChannel id (min (granted h) Demand.limit) p] := by
  rw [items_concat, hold, List.nil_append] at hitems
  have hany : h.any Input.ends = false := by
    cases hany : h.any Input.ends with
    | true => simp [hany] at hitems
    | false => rfl
  obtain rfl : x = .item p := by
    rw [hany, if_neg Bool.false_ne_true] at hitems
    cases x with
    | item q => exact congrArg _ (List.cons.inj hitems).1
    | _ => cases hitems
  have hnone : ∀ y ∈ h, y.item?.isNone = true := by
    have hself : h.takeWhile (fun x => !x.ends) = h := by
      rw [List.takeWhile_eq_self_iff]
      simpa using hany
    rw [items, hself, List.filterMap_eq_nil_iff] at hold
    exact fun y hy => Option.isNone_iff_eq_none.mpr (hold y hy)
  have hclosed : (after id h).opened = false := by
    rw [after_opened, hold]
    rfl
  refine ⟨rfl, ?_, ?_⟩
  · rw [beforeItem, List.takeWhile_append_of_pos hnone]
    exact List.append_nil h
  · rw [← after_held id hold, frames_concat, frames_of_items_eq_nil hold, take, send,
      after_outboundDone, hany, hclosed]
    rfl

/-- **The first frame opens the channel**, with the first item and with the demand that was granted
before it; and no other frame does. -/
theorem frames_eq_cons (id : UInt32) {ps : List Payload} (hitems : items h = p :: ps) :
    ∃ gs, frames id h =
        .requestChannel id (min (granted (beforeItem h)) Demand.limit) p :: gs ∧
      ∀ g ∈ gs, g.isOpening = false := by
  induction h using List.reverseRecOn generalizing ps with
  | nil => cases hitems
  | append_singleton h x ih =>
    cases hold : items h with
    | nil =>
      obtain ⟨-, hbefore, hframes⟩ := frames_concat_of_first id hold hitems
      exact ⟨[], by rw [hframes, hbefore], fun g hg => absurd hg List.not_mem_nil⟩
    | cons q qs =>
      have hbefore : beforeItem (h ++ [x]) = beforeItem h := by
        have hmem : q ∈ items h := by
          rw [hold]
          exact List.mem_cons_self
        obtain ⟨y, hy, hq⟩ := List.mem_filterMap.mp hmem
        rw [beforeItem, takeWhile_concat, if_neg, beforeItem]
        intro hall
        have hnone := List.all_eq_true.mp hall y ((List.takeWhile_subset _) hy)
        rw [hq] at hnone
        cases hnone
      have hopened : (after id h).opened = true := by
        rw [after_opened, hold]
        rfl
      rw [items_concat, hold, List.cons_append] at hitems
      obtain ⟨rfl, -⟩ := List.cons.inj hitems
      obtain ⟨gs, hframes, hgs⟩ := ih hold
      refine ⟨gs ++ ((after id h).take id x).2.toList, ?_, fun g hg => ?_⟩
      · rw [frames_concat, hframes, hbefore, List.cons_append]
      · rcases List.mem_append.mp hg with hg | hg
        · exact hgs g hg
        · cases writes_of_take (Option.mem_toList.mp hg) with
          | opening _ hclosed =>
            rw [hopened] at hclosed
            cases hclosed
          | _ => rfl

/-- **The demand that a link passes on**: once the channel is open, all that was granted. -/
theorem grants_frames (hopen : items h ≠ []) (hfits : granted h ≤ Demand.limit) :
    Wire.grants (frames id h) = granted h := by
  induction h using List.reverseRecOn with
  | nil => exact absurd rfl hopen
  | append_singleton h x ih =>
    rw [granted_concat] at hfits
    have hbefore : granted h ≤ Demand.limit := Nat.le_trans (Nat.le_add_right _ _) hfits
    by_cases hold : items h = []
    · obtain ⟨p, ps, hitems⟩ := List.exists_cons_of_ne_nil hopen
      obtain ⟨rfl, -, hframes⟩ := frames_concat_of_first id hold hitems
      rw [hframes, Wire.grants_requestChannel, Nat.min_eq_left hbefore, granted_concat]
      simp [Input.granted]
    · have hopened : (after id h).opened = true := by
        rw [after_opened]
        simpa using hold
      rw [frames_concat, Wire.grants_append, ih hold hbefore, grants_take id x hopened,
        granted_concat]
      by_cases hc : .cancel ∈ h
      · rw [if_pos ((after_inboundDone id h).mpr hc), if_pos hc]
      · rw [if_neg (mt (after_inboundDone id h).mp hc), if_neg hc]

/-- No end is written but by a producer that ends. -/
theorem outboundDone_of_terminal (hf : f ∈ frames id h) (hend : f.isTerminal = true) :
    (after id h).outboundDone = true := by
  induction h using List.reverseRecOn with
  | nil => cases hf
  | append_singleton h x ih =>
    rw [frames_concat, List.mem_append, Option.mem_toList] at hf
    rw [after_concat, (takes_take id x _).outboundDone, Bool.or_eq_true]
    rcases hf with hf | hf
    · exact Or.inl (ih hf)
    · refine Or.inr ?_
      cases writes_of_take hf with
      | complete | error => rfl
      | _ => cases hend

/-- **A link writes one end at most**, and no item behind it. -/
theorem pairwise_frames (id : UInt32) (h : List Input) :
    (frames id h).Pairwise fun f g =>
      f.isTerminal = true → g.isTerminal = false ∧ g.item? = none := by
  induction h using List.reverseRecOn with
  | nil => exact List.Pairwise.nil
  | append_singleton h x ih =>
    rw [frames_concat, List.pairwise_append]
    refine ⟨ih, by cases ((after id h).take id x).2 <;> simp, fun f hf g hg hend => ?_⟩
    have hdone := outboundDone_of_terminal hf hend
    cases writes_of_take (Option.mem_toList.mp hg) with
    | requestN => exact ⟨rfl, rfl⟩
    | opening hout | next hout | complete hout | error hout =>
      rw [hdone] at hout
      cases hout

end After

end Link
end Client
end StreamConformance
