import Mathlib.Algebra.BigOperators.Group.List.Basic
import Mathlib.Algebra.Ring.Nat
import Mathlib.Data.List.Induction
import StreamConformance.Responder

/-!
# How the responder echoes a channel

What a client may write on the stream of a channel is a `ChannelTape`: the opening frame, then
items and demand, and behind a completion demand only.  This file says what the reference
responder has replied to a part of such a tape: the items in order, as far as the demand on the
tape allows.

* `Echoes`: the state of the conversation, and what was replied, after some frames.
* `Echoes.receive`: one more frame of the tape.
* `Echoes.payloads_append_queue`, `Echoes.take_eq`: what was replied and what waits are the items
  of the client, and what was replied is what the demand allows.
* `Echoes.of_complete`: when the responder completes.
-/

namespace StreamConformance

namespace Wire

/-- The demand that a frame of the client of a channel brings. -/
def Frame.granted : Frame → Nat
  | .requestChannel _ n _ => n
  | .requestN _ n => n
  | _ => 0

/-- The items that some frames carry, in order. -/
def payloads (fs : List Frame) : List Payload :=
  fs.filterMap Frame.payload?

/-- The demand that some frames bring. -/
def grants (fs : List Frame) : Nat :=
  (fs.map Frame.granted).sum

@[simp] theorem payloads_nil : payloads [] = [] := rfl

@[simp] theorem payloads_append (fs gs : List Frame) :
    payloads (fs ++ gs) = payloads fs ++ payloads gs :=
  List.filterMap_append

@[simp] theorem payloads_requestChannel (stream : UInt32) (n : Nat) (p : Payload) :
    payloads [.requestChannel stream n p] = [p] := rfl

@[simp] theorem payloads_next (stream : UInt32) (p : Payload) :
    payloads [.next stream p] = [p] := rfl

@[simp] theorem payloads_requestN (stream : UInt32) (n : Nat) :
    payloads [.requestN stream n] = [] := rfl

@[simp] theorem payloads_complete (stream : UInt32) : payloads [.complete stream] = [] := rfl

@[simp] theorem grants_nil : grants [] = 0 := rfl

@[simp] theorem grants_requestChannel (stream : UInt32) (n : Nat) (p : Payload) :
    grants [.requestChannel stream n p] = n := rfl

@[simp] theorem grants_next (stream : UInt32) (p : Payload) :
    grants [.next stream p] = 0 := rfl

@[simp] theorem grants_requestN (stream : UInt32) (n : Nat) :
    grants [.requestN stream n] = n := rfl

@[simp] theorem grants_complete (stream : UInt32) : grants [.complete stream] = 0 := rfl

@[simp] theorem grants_append (fs gs : List Frame) : grants (fs ++ gs) = grants fs + grants gs := by
  simp [grants]

/-- A frame that may be a reply on a channel. -/
inductive Frame.OnChannel (stream : UInt32) : Frame → Prop where
  | next (p : Payload) : OnChannel stream (.next stream p)
  | requestN (n : Nat) : OnChannel stream (.requestN stream n)
  | complete : OnChannel stream (.complete stream)

/-- What the client of a channel may write on its stream. -/
inductive ChannelTape (stream : UInt32) : List Frame → Prop where
  | nil : ChannelTape stream []
  | opening (n : Nat) (p : Payload) : ChannelTape stream [.requestChannel stream n p]
  | next {fs : List Frame} (h : ChannelTape stream fs) (hne : fs ≠ [])
      (hopen : .complete stream ∉ fs) (p : Payload) : ChannelTape stream (fs ++ [.next stream p])
  | requestN {fs : List Frame} (h : ChannelTape stream fs) (hne : fs ≠ []) (n : Nat) :
      ChannelTape stream (fs ++ [.requestN stream n])
  | complete {fs : List Frame} (h : ChannelTape stream fs) (hne : fs ≠ [])
      (hopen : .complete stream ∉ fs) : ChannelTape stream (fs ++ [.complete stream])

namespace ChannelTape

variable {stream : UInt32} {fs gs : List Frame} {f : Frame}

/-- The last frame of a tape, and what is before it. -/
theorem cases_concat (h : ChannelTape stream (fs ++ [f])) :
    ChannelTape stream fs ∧
      ((fs = [] ∧ ∃ n p, f = .requestChannel stream n p) ∨
        (fs ≠ [] ∧ ((∃ p, f = .next stream p ∧ .complete stream ∉ fs) ∨
          (∃ n, f = .requestN stream n) ∨ (f = .complete stream ∧ .complete stream ∉ fs)))) := by
  generalize hgs : fs ++ [f] = gs at h
  cases h with
  | nil => simp at hgs
  | opening n p =>
    cases fs with
    | nil => exact ⟨.nil, Or.inl ⟨rfl, n, p, (List.cons.inj hgs).1⟩⟩
    | cons g fs => simp at hgs
  | next h hne hopen p =>
    obtain ⟨rfl, hf⟩ := List.append_inj' hgs rfl
    exact ⟨h, Or.inr ⟨hne, Or.inl ⟨p, (List.cons.inj hf).1, hopen⟩⟩⟩
  | requestN h hne n =>
    obtain ⟨rfl, hf⟩ := List.append_inj' hgs rfl
    exact ⟨h, Or.inr ⟨hne, Or.inr (Or.inl ⟨n, (List.cons.inj hf).1⟩)⟩⟩
  | complete h hne hopen =>
    obtain ⟨rfl, hf⟩ := List.append_inj' hgs rfl
    exact ⟨h, Or.inr ⟨hne, Or.inr (Or.inr ⟨(List.cons.inj hf).1, hopen⟩)⟩⟩

/-- A part of a tape, from its beginning, is a tape. -/
theorem of_append (h : ChannelTape stream (fs ++ gs)) : ChannelTape stream fs := by
  induction gs using List.reverseRecOn with
  | nil => simpa using h
  | append_singleton gs g ih =>
    rw [← List.append_assoc] at h
    exact ih h.cases_concat.1

/-- No items come behind a completion. -/
theorem payloads_eq_nil (h : ChannelTape stream (fs ++ gs)) (hdone : .complete stream ∈ fs) :
    payloads gs = [] := by
  induction gs using List.reverseRecOn with
  | nil => rfl
  | append_singleton gs g ih =>
    rw [← List.append_assoc] at h
    obtain ⟨hfs, hg⟩ := h.cases_concat
    have hdone' : .complete stream ∈ fs ++ gs := List.mem_append_left gs hdone
    rw [payloads_append, ih hfs]
    rcases hg with ⟨hnil, -⟩ | ⟨-, ⟨p, -, hopen⟩ | ⟨n, rfl⟩ | ⟨rfl, -⟩⟩
    · rw [hnil] at hdone'
      cases hdone'
    · exact absurd hdone' hopen
    · rfl
    · rfl

end ChannelTape
end Wire

namespace Responder

open Wire (Frame ChannelTape payloads grants payloads_append payloads_complete grants_append
  grants_requestN)

/-- The items that wait in the queue of a channel. -/
def Conversation.queue (stream : UInt32) (v : Conversation) : List Payload :=
  match v.responder.find? stream with
  | some (.channel c) => c.queue
  | _ => []

/-- A conversation with one channel. -/
def Conversation.serving (stream : UInt32) (c : EchoChannel) : Conversation where
  responder := { activities := [(stream, .channel c)] }

/-- Everything that a channel's demand allows was sent. -/
def EchoChannel.IsFlushed (c : EchoChannel) : Prop :=
  c.queue = [] ∨ c.demand = 0

/-- The conversation `v` has handled the frames `fs` of a channel's tape, and the responder has
replied with the frames `rs`. -/
inductive Echoes (stream : UInt32) : List Frame → List Frame → Conversation → Prop where
  | fresh : Echoes stream [] [] {}
  | serving {fs rs : List Frame} {c : EchoChannel} (hne : fs ≠ [])
      (hdone : c.clientDone = true ↔ .complete stream ∈ fs)
      (hitems : payloads rs ++ c.queue = payloads fs)
      (hdemand : (payloads rs).length + c.demand = grants fs)
      (hflushed : c.IsFlushed) (hopen : .complete stream ∉ rs)
      (hbusy : c.clientDone = true → c.queue ≠ []) (hframes : ∀ f ∈ rs, f.OnChannel stream) :
      Echoes stream fs rs (.serving stream c)
  | closed {fs rs : List Frame} (hdone : .complete stream ∈ fs)
      (hitems : payloads rs = payloads fs) (hdemand : (payloads rs).length ≤ grants fs)
      (hopen : .complete stream ∉ rs) (hframes : ∀ f ∈ rs, f.OnChannel stream) :
      Echoes stream fs (rs ++ [.complete stream]) {}

/-! ## One frame -/

section Flush

variable {stream : UInt32} {fs rs : List Frame} {c : EchoChannel}

@[simp] theorem find?_serving : (Conversation.serving stream c).responder.find? stream =
    some (.channel c) := by
  simp [Conversation.serving, find?]

@[simp] theorem payloads_map_next (stream : UInt32) (items : List Payload) :
    payloads (items.map (.next stream)) = items := by
  induction items with
  | nil => rfl
  | cons item items ih => exact congrArg (item :: ·) ih

theorem complete_not_mem_map_next (stream stream' : UInt32) (items : List Payload) :
    .complete stream ∉ items.map (Frame.next stream') := by
  simp

/-- Sending what the demand of a channel allows keeps what is replied and what waits together. -/
theorem flush_serving (c : EchoChannel) :
    (Conversation.serving stream c).responder.flush stream =
      if c.clientDone && (c.queue.drop c.demand).isEmpty then
        ({}, (c.queue.take c.demand).map (.next stream) ++ [.complete stream])
      else
        ((Conversation.serving stream { c with
            queue := c.queue.drop c.demand
            demand := c.demand - (c.queue.take c.demand).length }).responder,
          (c.queue.take c.demand).map (.next stream)) := by
  rw [flush, find?_serving]
  simp only [Activity.flush]
  by_cases hover : (c.clientDone && (c.queue.drop c.demand).isEmpty) = true
  · rw [if_pos hover, if_pos hover]
    simp [erase, Conversation.serving]
  · rw [if_neg hover, if_neg hover]
    simp [insert, erase, Conversation.serving]

/-- Sending what the demand allows brings the channel into order again. -/
theorem Echoes.of_flush (stream : UInt32) (fs rs : List Frame) (c : EchoChannel) (hne : fs ≠ [])
    (hdone : c.clientDone = true ↔ .complete stream ∈ fs)
    (hitems : payloads rs ++ c.queue = payloads fs)
    (hdemand : (payloads rs).length + c.demand = grants fs) (hopen : .complete stream ∉ rs)
    (hframes : ∀ f ∈ rs, f.OnChannel stream) :
    Echoes stream fs (rs ++ ((Conversation.serving stream c).responder.flush stream).2)
      { responder := ((Conversation.serving stream c).responder.flush stream).1 } := by
  have hsent : payloads (rs ++ (c.queue.take c.demand).map (.next stream)) ++
      c.queue.drop c.demand = payloads fs := by
    rw [payloads_append, payloads_map_next, List.append_assoc, List.take_append_drop, hitems]
  have hlength : (payloads (rs ++ (c.queue.take c.demand).map (.next stream))).length =
      (payloads rs).length + min c.demand c.queue.length := by
    rw [payloads_append, payloads_map_next, List.length_append, List.length_take]
  have hopen' : .complete stream ∉ rs ++ (c.queue.take c.demand).map (.next stream) := by
    rw [List.mem_append]
    rintro (hrs | hmap)
    · exact hopen hrs
    · exact complete_not_mem_map_next _ _ _ hmap
  have hframes' : ∀ f ∈ rs ++ (c.queue.take c.demand).map (.next stream), f.OnChannel stream := by
    intro f hf
    rcases List.mem_append.mp hf with hrs | hmap
    · exact hframes f hrs
    · obtain ⟨item, -, rfl⟩ := List.mem_map.mp hmap
      exact .next item
  rw [flush_serving]
  by_cases hover : (c.clientDone && (c.queue.drop c.demand).isEmpty) = true
  · rw [if_pos hover, ← List.append_assoc]
    rw [Bool.and_eq_true, List.isEmpty_iff] at hover
    rw [hover.2, List.append_nil] at hsent
    refine .closed (hdone.mp hover.1) hsent ?_ hopen' hframes'
    omega
  · rw [if_neg hover]
    rw [Bool.and_eq_true, List.isEmpty_iff, not_and] at hover
    refine .serving hne hdone hsent ?_ ?_ hopen' hover hframes'
    · simp only [List.length_take]
      omega
    · -- Either the queue or the demand was used up.
      simp only [EchoChannel.IsFlushed, List.length_take, List.drop_eq_nil_iff]
      omega

end Flush

/-- Frames that can all be written are written as they are. -/
theorem written_eq {fs : List Frame} (h : (written fs).2 = none) : (written fs).1 = fs := by
  induction fs with
  | nil => rfl
  | cons f fs ih =>
    rw [written] at h ⊢
    split at h
    · cases h
    · exact congrArg (f :: ·) (ih h)

/-- A conversation that goes on has written all its replies. -/
theorem Conversation.receive_of_ended_eq_none {f : Frame} {v : Conversation}
    (hv : v.ended = none) (h : (v.receive f).1.ended = none) :
    v.receive f = ({ responder := (v.responder.handle f).1 }, (v.responder.handle f).2.1) := by
  unfold Conversation.receive at h ⊢
  rw [hv] at h ⊢
  rcases hhandle : v.responder.handle f with ⟨r, frames, goesOn⟩
  rw [hhandle] at h
  rcases hw : written frames with ⟨frames', _ | fault⟩
  · have hframes : frames' = frames := by
      have hall : (written frames).1 = frames := written_eq (by rw [hw])
      rwa [hw] at hall
    simp only [hw] at h
    cases goesOn with
    | false => cases h
    | true => simp [hw, hframes]
  · simp only [hw] at h
    cases h

section Receive

variable {stream : UInt32} {fs rs : List Frame} {f : Frame} {c : EchoChannel} {v : Conversation}

theorem insert_serving (a : EchoChannel) : (Conversation.serving stream c).responder.insert stream
    (.channel a) = (Conversation.serving stream a).responder := by
  simp [insert, erase, Conversation.serving]

theorem modify_serving {g : Activity → Activity} {c' : EchoChannel}
    (hg : g (.channel c) = .channel c') :
    (Conversation.serving stream c).responder.modify stream g =
      (Conversation.serving stream c').responder := by
  rw [modify, find?_serving]
  show (Conversation.serving stream c).responder.insert stream (g (.channel c)) = _
  rw [hg, insert_serving]

/-- The opening frame of a channel is answered with credit, and with the first item if there is
demand. -/
theorem Echoes.handle_opening (stream : UInt32) (n : Nat) (p : Payload) :
    Echoes stream [.requestChannel stream n p]
      (({} : Responder).handle (.requestChannel stream n p)).2.1
      { responder := (({} : Responder).handle (.requestChannel stream n p)).1 } := by
  have hflush := Echoes.of_flush stream [.requestChannel stream n p] [.requestN stream channelCredit]
    { queue := [p], demand := n, received := 1 } (by simp) (by simp) rfl (by simp) (by simp)
    (by simp [Frame.OnChannel.requestN])
  exact hflush

/-- What the responder replies to one more frame of an open channel. -/
theorem Echoes.handle_serving (hdone : c.clientDone = true ↔ .complete stream ∈ fs)
    (hitems : payloads rs ++ c.queue = payloads fs)
    (hdemand : (payloads rs).length + c.demand = grants fs) (hopen : .complete stream ∉ rs)
    (hframes : ∀ f ∈ rs, f.OnChannel stream)
    (hf : (∃ p, f = .next stream p) ∨ (∃ n, f = .requestN stream n) ∨ f = .complete stream)
    (hlimit : grants (fs ++ [f]) ≤ Demand.limit) :
    Echoes stream (fs ++ [f]) (rs ++ ((Conversation.serving stream c).responder.handle f).2.1)
      { responder := ((Conversation.serving stream c).responder.handle f).1 } := by
  have hne' : fs ++ [f] ≠ [] := by simp
  rcases hf with ⟨p, rfl⟩ | ⟨n, rfl⟩ | rfl
  · obtain ⟨credit, hcredit, hreceive⟩ : ∃ credit : List Frame,
        (credit = [] ∨ credit = [.requestN stream channelCredit]) ∧
        (Conversation.serving stream c).responder.receiveItem stream p =
          (((Conversation.serving stream { c with
              queue := c.queue ++ [p], received := c.received + 1 }).responder.flush stream).1,
            credit ++ ((Conversation.serving stream { c with
              queue := c.queue ++ [p], received := c.received + 1 }).responder.flush stream).2) := by
      refine ⟨if (c.received + 1) % channelCredit == 0 then [.requestN stream channelCredit]
        else [], ?_, ?_⟩
      · split
        · exact Or.inr rfl
        · exact Or.inl rfl
      · simp only [receiveItem, find?_serving, insert_serving]
    have hquiet : payloads credit = [] ∧ .complete stream ∉ credit ∧
        ∀ f ∈ credit, f.OnChannel stream := by
      rcases hcredit with rfl | rfl <;> simp [Frame.OnChannel.requestN]
    have hflush := Echoes.of_flush stream (fs ++ [.next stream p]) (rs ++ credit)
      { c with queue := c.queue ++ [p], received := c.received + 1 } hne' (by simpa using hdone)
      (by simp [hquiet.1, ← hitems]) (by simpa [hquiet.1] using hdemand)
      (by simp [hopen, hquiet.2.1])
      fun f hf => (List.mem_append.mp hf).elim (hframes f) (hquiet.2.2 f)
    rw [handle, hreceive]
    simpa using hflush
  · have hadd : Demand.add c.demand n = c.demand + n := by
      rw [grants_append, grants_requestN] at hlimit
      exact Demand.add_eq (by omega)
    have hflush := Echoes.of_flush stream (fs ++ [.requestN stream n]) rs
      { c with demand := Demand.add c.demand n } hne' (by simpa using hdone)
      (by simpa using hitems) (by simp [hadd, ← hdemand]; omega) hopen hframes
    have hmodify : (Conversation.serving stream c).responder.modify stream (Activity.grant n) =
        (Conversation.serving stream { c with demand := Demand.add c.demand n }).responder :=
      modify_serving rfl
    rw [handle, hmodify]
    exact hflush
  · have hflush := Echoes.of_flush stream (fs ++ [.complete stream]) rs { c with clientDone := true }
      hne' (by simp) (by simpa using hitems) (by simpa using hdemand) hopen hframes
    have hmodify : (Conversation.serving stream c).responder.modify stream
        Activity.clientCompletes =
        (Conversation.serving stream { c with clientDone := true }).responder :=
      modify_serving rfl
    rw [handle, hmodify]
    exact hflush

end Receive

/-- **One more frame of the tape.** -/
theorem Echoes.receive {stream : UInt32} {fs rs : List Frame} {f : Frame} {v : Conversation}
    (h : Echoes stream fs rs v) (htape : ChannelTape stream (fs ++ [f]))
    (hlimit : grants (fs ++ [f]) ≤ Demand.limit) (hok : (v.receive f).1.ended = none) :
    Echoes stream (fs ++ [f]) (rs ++ (v.receive f).2) (v.receive f).1 := by
  have hv : v.ended = none := by cases h <;> rfl
  rw [Conversation.receive_of_ended_eq_none hv hok]
  obtain ⟨-, hcases⟩ := htape.cases_concat
  cases h with
  | fresh =>
    obtain ⟨-, n, p, rfl⟩ | ⟨hne, -⟩ := hcases
    · exact handle_opening stream n p
    · exact absurd rfl hne
  | serving hne hdone hitems hdemand hflushed hopen hbusy hframes =>
    obtain ⟨hnil, -⟩ | ⟨-, hf⟩ := hcases
    · exact absurd hnil hne
    · refine handle_serving hdone hitems hdemand hopen hframes ?_ hlimit
      exact hf.imp (fun ⟨p, hp, _⟩ => ⟨p, hp⟩) (Or.imp_right And.left)
  | closed hdone hitems hdemand hopen hframes =>
    obtain ⟨rfl, -⟩ | ⟨-, ⟨p, -, hnot⟩ | ⟨n, rfl⟩ | ⟨rfl, hnot⟩⟩ := hcases
    · cases hdone
    · exact absurd hdone hnot
    · -- Nothing is known of the stream any more.
      rename_i rs
      have hover : Echoes stream (fs ++ [.requestN stream n]) (rs ++ [.complete stream]) {} :=
        .closed (List.mem_append_left _ hdone) (by simpa using hitems)
          (by rw [grants_append]; omega) hopen hframes
      simpa [handle, modify, flush, find?] using hover
    · exact absurd hdone hnot

/-! ## What was replied -/

namespace Echoes

variable {stream : UInt32} {fs rs : List Frame} {v : Conversation}

theorem ended (h : Echoes stream fs rs v) : v.ended = none := by
  cases h <;> rfl

theorem onChannel (h : Echoes stream fs rs v) : ∀ f ∈ rs, f.OnChannel stream := by
  cases h with
  | fresh => simp
  | serving hne hdone hitems hdemand hflushed hopen hbusy hframes => exact hframes
  | closed hdone hitems hdemand hopen hframes =>
    intro f hf
    rcases List.mem_append.mp hf with hrs | hlast
    · exact hframes f hrs
    · rw [List.mem_singleton.mp hlast]
      exact .complete

/-- What was replied and what waits are the items of the client, in order. -/
theorem payloads_append_queue (h : Echoes stream fs rs v) :
    payloads rs ++ v.queue stream = payloads fs := by
  cases h with
  | fresh => rfl
  | serving hne hdone hitems hdemand hflushed hopen hbusy hframes =>
    rw [Conversation.queue, find?_serving]
    exact hitems
  | closed hdone hitems hdemand hopen hframes =>
    rw [payloads_append, hitems]
    simp [Conversation.queue, find?]

/-- No more was replied than there was demand. -/
theorem length_payloads_le (h : Echoes stream fs rs v) : (payloads rs).length ≤ grants fs := by
  cases h with
  | fresh => exact Nat.le_refl _
  | serving hne hdone hitems hdemand hflushed hopen hbusy hframes => omega
  | closed hdone hitems hdemand hopen hframes =>
    rw [payloads_append]
    simpa using hdemand

/-- **What was replied is what the demand allows.** -/
theorem take_eq (h : Echoes stream fs rs v) : payloads rs = (payloads fs).take (grants fs) := by
  cases h with
  | fresh => rfl
  | serving hne hdone hitems hdemand hflushed hopen hbusy hframes =>
    rcases hflushed with hqueue | hzero
    · rw [hqueue, List.append_nil] at hitems
      rw [← hitems, List.take_of_length_le (by omega)]
    · rw [hzero, Nat.add_zero] at hdemand
      rw [← hitems, ← hdemand, List.take_left]
  | closed hdone hitems hdemand hopen hframes =>
    rw [payloads_append, payloads_complete, List.append_nil, ← hitems,
      List.take_of_length_le hdemand]

/-- A completion is the last reply. -/
theorem eq_nil_of_complete (h : Echoes stream fs rs v) {rs₁ rs₂ : List Frame}
    (hrs : rs = rs₁ ++ rs₂) (hdone : .complete stream ∈ rs₁) : rs₂ = [] := by
  cases h with
  | fresh =>
    rw [List.append_eq_nil_iff.mp hrs.symm |>.1] at hdone
    cases hdone
  | serving hne hdone' hitems hdemand hflushed hopen hbusy hframes =>
    rw [hrs] at hopen
    exact absurd (List.mem_append_left _ hdone) hopen
  | @closed _ rs hdone' hitems hdemand hopen hframes =>
    rcases List.eq_nil_or_concat rs₂ with hnil | ⟨rs₃, f, rfl⟩
    · exact hnil
    · rw [List.concat_eq_append, ← List.append_assoc] at hrs
      obtain ⟨rfl, -⟩ := List.append_inj' hrs rfl
      exact absurd (List.mem_append_left _ hdone) hopen

/-- The responder completes when the client has completed and everything was sent back. -/
theorem of_complete (h : Echoes stream fs rs v) (hdone : .complete stream ∈ rs) :
    .complete stream ∈ fs ∧ payloads rs = payloads fs := by
  cases h with
  | fresh => cases hdone
  | serving hne hdone' hitems hdemand hflushed hopen hbusy hframes => exact absurd hdone hopen
  | closed hdone' hitems hdemand hopen hframes =>
    refine ⟨hdone', ?_⟩
    rw [payloads_append, payloads_complete, List.append_nil, hitems]

end Echoes
end Responder
end StreamConformance
