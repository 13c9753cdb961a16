import Mathlib.Algebra.Order.BigOperators.Group.List
import Mathlib.Algebra.Order.Group.Nat
import StreamConformance.Proofs.Channel.Line
import StreamConformance.Proofs.Responder.Requests

/-!
# What a client writes for a request, and how that is answered

A request is asked for items some times.  The first demand goes out with the opening frame, and each
later one with a frame of its own, unless the request has a single answer.  The responder answers by
copies of the payload, as many as the demand allows, and by a last frame if they are all there are.

* `Inquiry.tape`: the frames that a client writes.
* `Inquiry.itemLimit`, `Inquiry.itemsFor`: how many items there are to be had.
* `Inquiry.answers`: the answers, by the demand that has arrived.
* `Inquiry.replies_tape`: the responder's replies are these.
* `Inquiry.exists_of_prefix_tape`: part of a tape is the tape of some of the demands.
-/

namespace StreamConformance
namespace Inquiry

open Client (openingFrame)
open Line (stream)
open Responder (replies GoesOn answer answerAll answerAll_none answerAll_request answerAll_stream
  answerAll_subscription Activity)
open Wire (Frame payloads payloads_append onStream onStream_eq_self onStream_eq_nil
  demandUntilStop demandUntilStop_cons)

variable {kind : Script.InteractionKind} {p : Payload} {ns : List Nat} {d : Nat}

/-! ## What is written -/

/-- The frames of a request that was asked for `ns`, one after another. -/
def tape (kind : Script.InteractionKind) (p : Payload) : List Nat → List Frame
  | [] => []
  | n :: ns =>
    openingFrame kind stream n p ::
      if kind = .requestResponse then [] else ns.map (.requestN stream)

theorem tape_concat (kind : Script.InteractionKind) (p : Payload) (ns : List Nat) (n : Nat) :
    tape kind p (ns ++ [n]) = tape kind p ns ++
      if ns = [] then [openingFrame kind stream n p]
      else if kind = .requestResponse then [] else [.requestN stream n] := by
  cases ns with
  | nil => simp [tape]
  | cons m ns =>
    rw [List.cons_append, tape, tape, if_neg (List.cons_ne_nil m ns), List.cons_append]
    split
    · rfl
    · rw [List.map_append]
      rfl

/-- Part of a tape is the tape of some of the demands. -/
theorem exists_of_prefix_tape {fs : List Frame} (h : fs <+: tape kind p ns) :
    ∃ ms, ms <+: ns ∧ fs = tape kind p ms := by
  rcases fs with _ | ⟨f, fs⟩
  · exact ⟨[], List.nil_prefix, rfl⟩
  rcases ns with _ | ⟨n, ns⟩
  · cases List.prefix_nil.mp h
  obtain ⟨rfl, hrest⟩ := List.cons_prefix_cons.mp h
  by_cases hkind : kind = .requestResponse
  · rw [if_pos hkind, List.prefix_nil] at hrest
    exact ⟨n :: ns, List.prefix_refl _, by rw [tape, if_pos hkind, hrest]⟩
  · rw [if_neg hkind] at hrest
    rw [List.prefix_iff_eq_take.mp hrest, ← List.map_take]
    exact ⟨n :: ns.take fs.length, List.cons_prefix_cons.mpr ⟨rfl, List.take_prefix ..⟩,
      by rw [tape, if_neg hkind]⟩

theorem stream_of_mem_tape {f : Frame} (h : f ∈ tape kind p ns) : f.stream = stream := by
  cases ns with
  | nil => cases h
  | cons n ns =>
    rcases List.mem_cons.mp h with rfl | h
    · cases kind <;> rfl
    · split at h
      · cases h
      · obtain ⟨m, -, rfl⟩ := List.mem_map.mp h
        rfl

/-! ## What is answered -/

/-- How many items there are, unless there is no end of them. -/
def itemLimit : Script.InteractionKind → Option Nat
  | .requestResponse => some 1
  | .requestStream => some 3
  | .requestSubscription => none
  | .fireAndForget => some 0

/-- How many items there are for a demand. -/
def itemsFor (kind : Script.InteractionKind) (demand : Nat) : Nat :=
  match itemLimit kind with
  | some k => min k demand
  | none => demand

/-- The last frame of the answers to a demand, if there is one. -/
def ending? (kind : Script.InteractionKind) (p : Payload) (demand : Nat) : Option Frame :=
  if p.asksForError then if demand = 0 then none else some (.error stream p.requestedError)
  else
    match itemLimit kind with
    | some k => if k ≤ demand then some (.complete stream) else none
    | none => none

/-- The items that a demand is answered by. -/
def itemsOf (kind : Script.InteractionKind) (p : Payload) (demand : Nat) : List Payload :=
  if p.asksForError then [] else List.replicate (itemsFor kind demand) p

/-- The answers to a demand. -/
def answers (kind : Script.InteractionKind) (p : Payload) (demand : Nat) : List Frame :=
  (itemsOf kind p demand).map (.next stream) ++ (ending? kind p demand).toList

theorem answers_eq : answers kind p d =
    if p.asksForError then if d = 0 then [] else [.error stream p.requestedError]
    else
      match itemLimit kind with
      | some k => Responder.itemsUpTo stream p k d
      | none => List.replicate d (.next stream p) := by
  unfold answers itemsOf ending? itemsFor
  split
  · split <;> rfl
  · rw [List.map_replicate]
    cases itemLimit kind with
    | some k =>
      dsimp only
      rw [Responder.itemsUpTo]
      split <;> rfl
    | none => exact List.append_nil _

/-- What is written on one stream is answered as if there were no others. -/
theorem replies_of_stream {fs : List Frame} (h : GoesOn fs) (hs : ∀ f ∈ fs, f.stream = stream) :
    replies fs = (answerAll fs none).2 := by
  have hreplies : ∀ g ∈ replies fs, g.stream = stream := by
    intro g hg
    by_contra hne
    have hmem : g ∈ onStream g.stream (replies fs) :=
      List.mem_filter.mpr ⟨hg, beq_self_eq_true g.stream⟩
    rw [h.onStream_replies, onStream_eq_nil fun f hf heq => hne (heq.symm.trans (hs f hf))] at hmem
    cases hmem
  have hanswers := h.onStream_replies stream
  rwa [onStream_eq_self hreplies, onStream_eq_self hs] at hanswers

/-- The demand of the frames behind the opening frame. -/
theorem demandUntilStop_requestN (ns : List Nat) :
    demandUntilStop (ns.map (.requestN stream)) = ns.sum := by
  induction ns with
  | nil => rfl
  | cons n ns ih =>
    rw [List.map_cons, demandUntilStop_cons, ih, List.sum_cons]
    rfl

/-- **How a request is answered**, however its demand is split. -/
theorem replies_tape (hkind : kind ≠ .fireAndForget) (hgoes : GoesOn (tape kind p ns))
    (hpos : ∀ n ∈ ns, 0 < n) (hlimit : ns.sum ≤ Demand.limit) :
    replies (tape kind p ns) = answers kind p ns.sum := by
  rw [replies_of_stream hgoes fun f => stream_of_mem_tape, answers_eq]
  cases ns with
  | nil =>
    cases kind with
    | fireAndForget => exact absurd rfl hkind
    | requestResponse | requestStream | requestSubscription =>
      simp [tape, answerAll, itemLimit, Responder.itemsUpTo]
  | cons n ns =>
    have hn : 0 < n := hpos n List.mem_cons_self
    have hsum : ns.sum ≤ Demand.limit := by
      rw [List.sum_cons] at hlimit
      omega
    have hstream : ∀ f ∈ ns.map (Frame.requestN stream), f.stream = stream := by
      simp [Frame.stream]
    have hopens : ∀ f ∈ ns.map (Frame.requestN stream), f.opens = false := by
      simp [Frame.opens]
    have hwords : ∀ f ∈ ns.map (Frame.requestN stream), f.HasWordCount := by
      intro f hf
      obtain ⟨m, hm, rfl⟩ := List.mem_map.mp hf
      exact (List.single_le_sum (fun _ _ => Nat.zero_le _) m hm).trans hsum
    have hsome : List.sum (n :: ns) ≠ 0 := by
      rw [List.sum_cons]
      omega
    rw [tape, answerAll, if_neg hsome, List.sum_cons]
    cases kind with
    | requestResponse =>
      have hone : Responder.itemsUpTo stream p 1 (n + ns.sum) =
          [.next stream p, .complete stream] := by
        have hle : 1 ≤ n + ns.sum := by omega
        rw [Responder.itemsUpTo, Nat.min_eq_left hle, if_pos hle]
        rfl
      rw [if_pos rfl, openingFrame, answer, answerAll, List.append_nil, itemLimit]
      exact congrArg (if p.asksForError then [.error stream p.requestedError] else ·) hone.symm
    | requestStream =>
      rw [if_neg (by decide), openingFrame, answer, answerAll_request hopens,
        answerAll_stream (by decide) (by decide) n hstream hopens, demandUntilStop_requestN]
      rfl
    | requestSubscription =>
      rw [if_neg (by decide), openingFrame, answer, answerAll_request hopens,
        answerAll_subscription n hstream hopens hwords, demandUntilStop_requestN]
      rfl
    | fireAndForget => exact absurd rfl hkind

/-! ## What part of the answers can be -/

variable {vs : List Payload} {fs : List Frame} {f : Frame}

/-- The last frame of the answers ends the stream. -/
theorem isTerminal_of_ending? (h : ending? kind p d = some f) : f.isTerminal = true := by
  unfold ending? at h
  split at h
  · split at h <;> cases h
    rfl
  · split at h
    · split at h <;> cases h
      rfl
    · cases h

/-- The frame by which a signal arrives. -/
def frameOf : Signal Payload → Frame
  | .next item => .next stream item
  | .complete => .complete stream
  | .error message => .error stream message

/-- Answers arrive as signals. -/
theorem exists_frameOf (h : f ∈ answers kind p d) : ∃ s, f = frameOf s := by
  rcases List.mem_append.mp h with h | h
  · obtain ⟨item, -, rfl⟩ := List.mem_map.mp h
    exact ⟨.next item, rfl⟩
  · have hlast : ending? kind p d = some f := Option.mem_toList.mp h
    unfold ending? at hlast
    split at hlast
    · split at hlast <;> cases hlast
      exact ⟨.error p.requestedError, rfl⟩
    · split at hlast
      · split at hlast <;> cases hlast
        exact ⟨.complete, rfl⟩
      · cases hlast

theorem payloads_answers (kind : Script.InteractionKind) (p : Payload) (d : Nat) :
    payloads (answers kind p d) = itemsOf kind p d := by
  rw [answers, payloads_append, Responder.payloads_map_next]
  cases hlast : ending? kind p d with
  | none => exact List.append_nil _
  | some f =>
    cases f with
    | complete | error => exact List.append_nil _
    | _ => cases isTerminal_of_ending? hlast

/-- Items that are part of the answers are the first ones. -/
theorem isPrefix_of_items (h : vs.map (.next stream) <+: answers kind p d) :
    vs <+: itemsOf kind p d := by
  rw [← payloads_answers, ← Responder.payloads_map_next stream vs]
  exact h.filterMap _

/-- If the answers are items only, they are all there are. -/
theorem eq_of_items (h : vs.map (.next stream) = answers kind p d) :
    vs = itemsOf kind p d ∧ ending? kind p d = none := by
  have hitems : vs = itemsOf kind p d := by
    rw [← payloads_answers, ← h, Responder.payloads_map_next]
  refine ⟨hitems, ?_⟩
  rw [hitems, answers, List.self_eq_append_right] at h
  exact Option.toList_eq_nil_iff.mp h

/-- Behind the items there is only the last frame. -/
theorem eq_of_ending (h : vs.map (.next stream) ++ f :: fs = answers kind p d)
    (hf : f.isTerminal = true) :
    vs = itemsOf kind p d ∧ ending? kind p d = some f ∧ fs = [] := by
  unfold answers at h
  generalize itemsOf kind p d = items at h ⊢
  induction vs generalizing items with
  | nil =>
    cases items with
    | nil =>
      cases hlast : ending? kind p d with
      | none =>
        rw [hlast] at h
        cases h
      | some g =>
        rw [hlast] at h
        obtain ⟨rfl, rfl⟩ := List.cons.inj h
        exact ⟨rfl, rfl, rfl⟩
    | cons q items =>
      obtain ⟨rfl, -⟩ := List.cons.inj h
      cases hf
  | cons v vs ih =>
    cases items with
    | nil =>
      have hlast : ending? kind p d = some (.next stream v) :=
        Option.head?_toList.symm.trans (congrArg List.head? h).symm
      cases isTerminal_of_ending? hlast
    | cons q items =>
      rw [List.map_cons, List.map_cons, List.cons_append, List.cons_append] at h
      obtain ⟨hhead, htail⟩ := List.cons.inj h
      obtain ⟨rfl, hlast, hfs⟩ := ih items htail
      obtain ⟨-, rfl⟩ := Frame.next.inj hhead
      exact ⟨rfl, hlast, hfs⟩

end Inquiry
end StreamConformance
