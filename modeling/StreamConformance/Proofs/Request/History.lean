import StreamConformance.Client.Request
import StreamConformance.Proofs.Channel.History

/-!
# What a request writes

A request decides on its frames by the calls that its consumer has made, and by nothing else.  This
file takes a request by itself: it reads the calls, one after another, and decides for each on a
frame or on none.

* `Request.take`, `Request.after`: what a request makes of a call, and of several.
* `Request.granted`: the demands that are granted before the first cancellation; calls for nothing
  grant nothing.
* `Request.tape`: the frames.  The first demand goes out with the opening frame, each later one in a
  frame of its own unless there is a single answer, and a request that has gone out is canceled
  once.
* `Request.tape_concat`: the tape of one more call is longer by what the request makes of it.
* `Request.demandOf_tape`, `Request.tape_eq_nil_iff`: the demand on the tape, and when it is empty.
-/

namespace StreamConformance

/-- The demand that a call grants, if it grants any. -/
def Ask.granted? : Ask → Option Nat
  | .request n => if n = 0 then none else some n
  | .cancel => none

namespace Wire

/-- The demand that a frame of a request brings, be it the opening frame or a later one. -/
def Frame.demanded : Frame → Nat
  | .requestStream _ n _ => n
  | .requestSubscription _ n _ => n
  | .requestN _ n => n
  | _ => 0

/-- The demand that some frames of a request bring. -/
def demandOf (fs : List Frame) : Nat :=
  (fs.map Frame.demanded).sum

theorem demandOf_cons (f : Frame) (fs : List Frame) :
    demandOf (f :: fs) = f.demanded + demandOf fs :=
  List.sum_cons

theorem demandOf_append (fs gs : List Frame) : demandOf (fs ++ gs) = demandOf fs + demandOf gs := by
  rw [demandOf, List.map_append, List.sum_append, demandOf, demandOf]

end Wire

namespace Client
namespace Request

open Wire (Frame demandOf)

variable {kind : Script.InteractionKind} {p : Payload} {id : UInt32} {as : List Ask} {a : Ask}

/-! ## The calls -/

/-- What a request makes of a call, and the frame that it decides on. -/
def take (id : UInt32) (a : Ask) (r : Request) : Request × Option Frame :=
  match a with
  | .request n => r.request id n
  | .cancel => (r.cancel.1, if r.cancel.2 then some (.cancel id) else none)

/-- A request of the payload `p` after some calls. -/
def after (kind : Script.InteractionKind) (p : Payload) (id : UInt32) (as : List Ask) : Request :=
  as.foldl (fun r a => (r.take id a).1) { kind := kind, phase := .unsent p }

@[simp]
theorem after_nil : after kind p id [] = { kind := kind, phase := .unsent p } := rfl

theorem after_concat : after kind p id (as ++ [a]) = ((after kind p id as).take id a).1 :=
  List.foldl_concat ..

/-- The demands that are granted before the first cancellation, in order. -/
def granted (as : List Ask) : List Nat :=
  (as.takeWhile (· != .cancel)).filterMap Ask.granted?

theorem granted_concat (as : List Ask) (a : Ask) :
    granted (as ++ [a]) = if .cancel ∈ as then granted as else granted as ++ a.granted?.toList := by
  have hall : as.all (· != .cancel) = true ↔ .cancel ∉ as := by
    rw [List.all_eq_true]
    exact ⟨fun h hmem => by simpa using h _ hmem, fun h b hb => by
      simpa using fun heq : b = .cancel => h (heq ▸ hb)⟩
  rw [granted, takeWhile_concat]
  by_cases hc : .cancel ∈ as
  · rw [if_pos hc, if_neg (fun h => hall.mp h hc), granted]
  · rw [if_neg hc, if_pos (hall.mpr hc), List.filterMap_append, granted,
      List.takeWhile_eq_self_iff.mpr (List.all_eq_true.mp (hall.mpr hc))]
    cases a with
    | request n => cases h : Ask.granted? (.request n) <;> simp [h]
    | cancel => rfl

/-- **Where a request stands.** -/
theorem after_eq (kind : Script.InteractionKind) (p : Payload) (id : UInt32) (as : List Ask) :
    after kind p id as =
      { kind := kind
        phase := if .cancel ∈ as then .done else if granted as = [] then .unsent p else .sent } := by
  induction as using List.reverseRecOn with
  | nil => rfl
  | append_singleton as a ih =>
    rw [after_concat, ih, granted_concat]
    by_cases hc : .cancel ∈ as
    · cases a with
      | cancel => simp [take, cancel, hc]
      | request n => by_cases hn : n = 0 <;> simp [take, request, hc, hn]
    · cases a with
      | cancel => simp [take, cancel, hc]
      | request n =>
        by_cases hn : n = 0
        · simp [take, request, hc, hn, Ask.granted?]
        · by_cases hg : granted as = [] <;> simp [take, request, hc, hn, hg, Ask.granted?]

/-- Behind a cancellation nothing is decided on. -/
theorem take_after_of_cancel (hc : .cancel ∈ as) (a : Ask) :
    ((after kind p id as).take id a).2 = none := by
  rw [after_eq, if_pos hc]
  cases a with
  | cancel => rfl
  | request n => by_cases hn : n = 0 <;> simp [take, request, hn]

/-! ## The tape -/

/-- The frames of a request of which some calls are made. -/
def tape (kind : Script.InteractionKind) (p : Payload) (id : UInt32) (as : List Ask) : List Frame :=
  match granted as with
  | [] => []
  | n :: later =>
    openingFrame kind id n p ::
      ((if kind = .requestResponse then [] else later.map (.requestN id)) ++
        if .cancel ∈ as then [.cancel id] else [])

theorem tape_of_granted_eq_nil (h : granted as = []) : tape kind p id as = [] := by
  rw [tape, h]

theorem tape_of_granted_eq_cons {n : Nat} {later : List Nat} (h : granted as = n :: later) :
    tape kind p id as = openingFrame kind id n p ::
      ((if kind = .requestResponse then [] else later.map (.requestN id)) ++
        if .cancel ∈ as then [.cancel id] else []) := by
  rw [tape, h]

/-- **A stream is on the wire exactly if demand was granted before it was canceled.** -/
theorem tape_eq_nil_iff : tape kind p id as = [] ↔ granted as = [] := by
  constructor
  · intro h
    cases hg : granted as with
    | nil => rfl
    | cons n later =>
      rw [tape_of_granted_eq_cons hg] at h
      cases h
  · exact tape_of_granted_eq_nil

/-- **One more call adds what the request makes of it.** -/
theorem tape_concat :
    tape kind p id (as ++ [a]) =
      tape kind p id as ++ ((after kind p id as).take id a).2.toList := by
  have hgranted := granted_concat as a
  by_cases hc : .cancel ∈ as
  · rw [if_pos hc] at hgranted
    rw [take_after_of_cancel hc, Option.toList_none, List.append_nil, tape, tape, hgranted]
    simp [hc]
  · rw [if_neg hc] at hgranted
    rw [after_eq, if_neg hc]
    cases hg : granted as with
    | nil =>
      rw [hg, List.nil_append] at hgranted
      rw [tape_of_granted_eq_nil hg, if_pos rfl]
      cases a with
      | cancel => exact tape_of_granted_eq_nil hgranted
      | request n =>
        by_cases hn : n = 0
        · rw [Ask.granted?, if_pos hn] at hgranted
          rw [tape_of_granted_eq_nil hgranted]
          simp [take, request, hn]
        · rw [Ask.granted?, if_neg hn] at hgranted
          rw [tape_of_granted_eq_cons hgranted]
          simp [take, request, hn, hc]
    | cons m later =>
      rw [hg] at hgranted
      rw [tape_of_granted_eq_cons hg, if_neg (List.cons_ne_nil m later)]
      cases a with
      | cancel =>
        rw [Ask.granted?, Option.toList_none, List.append_nil] at hgranted
        rw [tape_of_granted_eq_cons hgranted]
        simp [take, cancel, hc]
      | request n =>
        by_cases hn : n = 0
        · rw [Ask.granted?, if_pos hn, Option.toList_none, List.append_nil] at hgranted
          rw [tape_of_granted_eq_cons hgranted]
          simp [take, request, hn, hc]
        · rw [Ask.granted?, if_neg hn, Option.toList_some, List.cons_append] at hgranted
          rw [tape_of_granted_eq_cons hgranted]
          by_cases hk : kind = .requestResponse <;> simp [take, request, hn, hc, hk]

/-- **The demand on the tape is the demand that is granted** before a cancellation, if there is no
single answer. -/
theorem demandOf_tape (hk : kind = .requestStream ∨ kind = .requestSubscription) :
    demandOf (tape kind p id as) = (granted as).sum := by
  have hlater (ns : List Nat) : demandOf (ns.map (.requestN id)) = ns.sum := by
    rw [demandOf, List.map_map]
    exact congrArg List.sum (List.map_id ns)
  have hcancel : demandOf (if .cancel ∈ as then [.cancel id] else []) = 0 := by
    split <;> rfl
  cases hg : granted as with
  | nil => rw [tape_of_granted_eq_nil hg]; rfl
  | cons n later =>
    have hmany : kind ≠ .requestResponse := by
      rcases hk with rfl | rfl <;> simp
    have hopening : (openingFrame kind id n p).demanded = n := by
      rcases hk with rfl | rfl <;> rfl
    rw [tape_of_granted_eq_cons hg, if_neg hmany, Wire.demandOf_cons, Wire.demandOf_append, hlater,
      hcancel, hopening, List.sum_cons, Nat.add_zero]

/-- Later calls do not change what was decided on. -/
theorem tape_isPrefix (as bs : List Ask) : tape kind p id as <+: tape kind p id (as ++ bs) := by
  induction bs using List.reverseRecOn with
  | nil => simp
  | append_singleton bs a ih =>
    rw [← List.append_assoc, tape_concat]
    exact ih.trans (List.prefix_append ..)

/-- Behind a cancellation the tape is complete. -/
theorem tape_append_of_cancel (hc : .cancel ∈ as) (bs : List Ask) :
    tape kind p id (as ++ bs) = tape kind p id as := by
  induction bs using List.reverseRecOn with
  | nil => rw [List.append_nil]
  | append_singleton bs a ih =>
    rw [← List.append_assoc, tape_concat, ih, take_after_of_cancel (List.mem_append_left bs hc),
      Option.toList_none, List.append_nil]

/-- The frames behind the opening frame open nothing. -/
theorem opens_of_mem_tail_tape {f : Frame} (hf : f ∈ (tape kind p id as).tail) :
    f.opens = false := by
  cases hg : granted as with
  | nil =>
    rw [tape_of_granted_eq_nil hg] at hf
    cases hf
  | cons n later =>
    rw [tape_of_granted_eq_cons hg, List.tail_cons, List.mem_append] at hf
    rcases hf with hf | hf
    · split at hf
      · cases hf
      · obtain ⟨m, -, rfl⟩ := List.mem_map.mp hf
        rfl
    · split at hf
      · rw [List.mem_singleton.mp hf]
        rfl
      · cases hf

/-- The first frame of a tape opens the stream. -/
theorem opens_of_head?_tape (hk : kind ≠ .fireAndForget) {f : Frame}
    (hf : (tape kind p id as).head? = some f) : f.opens = true := by
  cases hg : granted as with
  | nil =>
    rw [tape_of_granted_eq_nil hg] at hf
    cases hf
  | cons n later =>
    rw [tape_of_granted_eq_cons hg, List.head?_cons, Option.some.injEq] at hf
    subst hf
    cases kind <;> first | rfl | exact absurd rfl hk

/-- The peer is told of a cancellation only if there was one. -/
theorem cancel_mem_of_mem_tape (h : .cancel id ∈ tape kind p id as) : .cancel ∈ as := by
  cases hg : granted as with
  | nil =>
    rw [tape_of_granted_eq_nil hg] at h
    cases h
  | cons n later =>
    rw [tape_of_granted_eq_cons hg, List.mem_cons, List.mem_append] at h
    rcases h with h | h | h
    · cases kind <;> cases h
    · split at h
      · cases h
      · obtain ⟨m, -, heq⟩ := List.mem_map.mp h
        cases heq
    · by_contra hc
      rw [if_neg hc] at h
      cases h

end Request
end Client
end StreamConformance
