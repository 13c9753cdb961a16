import StreamConformance.Proofs.Channel.Refusal
import StreamConformance.Proofs.Request.WireLaw

/-!
# The order of frames on the stream of a request

A request decides on a frame under its own lock, and the frame is written once that is released.  So
if calls overlap, frames may be written in another order than they were decided on, and demand or a
cancellation may reach the peer before the request does, for whom there is no such stream yet.  (The
link of a channel keeps its lock until the frame is written.)

* `InOrder`: the first frame opens the stream, and a cancellation is the last.
* `Traffic.Punctual`: a frame is written in time.
* `Traffic.inOrder_iff`: the order is right exactly if every frame is written in time, whatever else
  happens in between.
* `Traffic.not_inOrder_overtaken`: calls that overlap may spoil it.

If calls do not overlap the order is right, by `Traffic.requestLaw_of_orderly`.
-/

namespace StreamConformance
namespace Client

open Wire (Frame onStream)

/-- The frames of a request come in order: the first one opens the stream, so that all demand is
behind it, and nothing is behind a cancellation. -/
structure InOrder (id : UInt32) (fs : List Frame) : Prop where
  first : ∀ f, fs.head? = some f → f.opens = true
  last : ∀ before after, fs = before ++ .cancel id :: after → after = []

theorem inOrder_nil (id : UInt32) : InOrder id [] where
  first := nofun
  last before after h := by simp at h

theorem InOrder.concat {id : UInt32} {fs : List Frame} {f : Frame} (h : InOrder id fs)
    (hcancel : .cancel id ∉ fs) (hfirst : fs = [] → f.opens = true) : InOrder id (fs ++ [f]) where
  first g hg := by
    cases fs with
    | nil =>
      cases hg
      exact hfirst rfl
    | cons a fs => exact h.first g hg
  last before after heq := by
    rcases List.eq_nil_or_concat after with rfl | ⟨after, g, rfl⟩
    · rfl
    · rw [List.concat_eq_append, ← List.cons_append, ← List.append_assoc] at heq
      refine absurd ?_ hcancel
      rw [(List.append_inj' heq rfl).1]
      exact List.mem_append_right _ List.mem_cons_self

namespace Traffic

variable {t t' : Traffic} {e : Event Step} {rest : List Step} {j n i : Nat} {id : UInt32}
  {kind : Script.InteractionKind} {p : Payload} {es : List (Event Step)} {f : Frame}

/-- The frame `f` is written in time on the stream of a request: no other frame is to come first,
and a cancellation leaves nothing to come. -/
structure Punctual (id : UInt32) (f : Frame) (t : Traffic) : Prop where
  opening : f.opens = true ∨ ∀ g ∈ t.pending id, g.opens = false
  cancel : f = .cancel id → t.pending id = [f]

/-! ## One turn -/

/-- The frames so far are in order, and if a cancellation is among them no other is to come. -/
structure KeepsOrder (id : UInt32) (t : Traffic) : Prop where
  inOrder : InOrder id (t.far.framesOn id)
  complete : .cancel id ∈ t.far.framesOn id → t.pending id = []

/-- There is one opening frame at most, written or pending. -/
theorem Carries.countP_opens_le (h : t.Carries kind p id j) :
    (t.far.framesOn id ++ t.pending id).countP Frame.opens ≤ 1 := by
  rw [h.frames.countP_eq]
  cases htape : Request.tape kind p id (t.far.callsOn j) with
  | nil => exact Nat.zero_le 1
  | cons f fs =>
    have htail : fs.countP Frame.opens = 0 := List.countP_eq_zero.mpr fun g hg => by
      have hg : g ∈ (Request.tape kind p id (t.far.callsOn j)).tail := by rw [htape]; exact hg
      simp [Request.opens_of_mem_tail_tape hg]
    rw [List.countP_cons, htail, Nat.zero_add]
    split <;> omega

/-- If anything is written or pending, the opening frame is. -/
theorem Carries.exists_opens (h : t.Carries kind p id j) (hk : kind ≠ .fireAndForget)
    (hf : f ∈ t.far.framesOn id ++ t.pending id) :
    ∃ g ∈ t.far.framesOn id ++ t.pending id, g.opens = true := by
  obtain ⟨g, fs, hcons⟩ := List.exists_cons_of_ne_nil
    (List.ne_nil_of_mem (h.frames.mem_iff.mp hf))
  refine ⟨g, h.frames.mem_iff.mpr (by rw [hcons]; exact List.mem_cons_self), ?_⟩
  exact Request.opens_of_head?_tape hk (by rw [hcons]; rfl)

/-- A frame is written on a stream in a turn, or none is. -/
theorem onStream_stepFrame? (id : UInt32) (e : Event Step) :
    onStream id (stepFrame? e).toList = [] ∨ ∃ f, stepFrame? e = some f ∧ f.stream = id := by
  cases hframe : stepFrame? e with
  | none => exact Or.inl rfl
  | some f =>
    by_cases hid : f.stream = id
    · exact Or.inr ⟨f, rfl, hid⟩
    · exact Or.inl (Wire.onStream_eq_nil fun g hg => by rwa [List.mem_singleton.mp hg])

/-- The first frame that is written in time opens the stream. -/
theorem Carries.opens_of_punctual (h : t.Carries kind p id j) (hk : kind ≠ .fireAndForget)
    (hpunctual : t.Punctual id f) (hnone : t.far.framesOn id = []) (hf : f ∈ t.pending id) :
    f.opens = true := by
  refine hpunctual.opening.resolve_right fun hpending => ?_
  obtain ⟨g, hg, hopens⟩ := h.exists_opens hk (List.mem_append_right _ hf)
  rw [hnone, List.nil_append] at hg
  exact Bool.false_ne_true ((hpending g hg).symm.trans hopens)

/-- **A frame that is written in time keeps the order.** -/
theorem KeepsOrder.tell (h : t.KeepsOrder id) (hk : kind ≠ .fireAndForget)
    (hcarries : t.Carries kind p id j) (hsound : t.Sound) (htells : t.Tells e rest)
    (hex : (t.tell e rest).far.Exclusive id)
    (hpunctual : ∀ f, stepFrame? e = some f → f.stream = id → t.Punctual id f) :
    (t.tell e rest).KeepsOrder id := by
  obtain ⟨decided, had⟩ := hcarries.advances hsound htells hex
  rcases onStream_stepFrame? id e with hnone | ⟨f, hf, hid⟩
  · -- Nothing is written, and behind a cancellation nothing is decided on.
    have hframes := had.framesOn
    rw [hnone, List.append_nil] at hframes
    refine ⟨hframes ▸ h.inOrder, fun hcancel => ?_⟩
    rw [hframes] at hcancel
    have hkept := had.kept
    rw [hnone, List.append_nil, h.complete hcancel] at hkept
    have hmem : .cancel id ∈ Request.tape kind p id (t.far.callsOn j) :=
      hcarries.frames.mem_iff.mp (List.mem_append_left _ hcancel)
    have htape := had.tape
    rw [had.callsOn, Request.tape_append_of_cancel (Request.cancel_mem_of_mem_tape hmem)] at htape
    rw [had.pending, hkept.eq_nil, List.self_eq_append_right.mp htape]
    rfl
  · obtain ⟨hframes, hperm⟩ := had.of_written hf hid
    have hpending : f ∈ t.pending id :=
      hperm.mem_iff.mp (List.mem_append_right _ (List.mem_singleton_self f))
    have hnocancel : .cancel id ∉ t.far.framesOn id := fun hcancel => by
      rw [h.complete hcancel] at hpending
      cases hpending
    refine ⟨?_, fun hcancel => ?_⟩
    · rw [hframes]
      exact h.inOrder.concat hnocancel fun hnone =>
        hcarries.opens_of_punctual hk (hpunctual f hf hid) hnone hpending
    · -- The frame is the cancellation, and none but it was pending.
      rw [hframes, List.mem_append, List.mem_singleton] at hcancel
      obtain rfl := hcancel.resolve_left hnocancel
      rw [(hpunctual _ hf hid).cancel rfl] at hperm
      exact List.append_left_eq_self.mp (List.perm_singleton.mp hperm)

/-! ## Whole runs -/

theorem Extends.exists_callsOn (h : t.Extends t') (j : Nat) :
    ∃ as, t'.far.callsOn j = t.far.callsOn j ++ as := by
  obtain ⟨told, htold⟩ := h.told
  exact ⟨told.filterMap (Request.call? j), by
    rw [Chronicle.callsOn, ← htold, List.filterMap_append, Chronicle.callsOn]⟩

theorem Extends.exists_framesOn (h : t.Extends t') (id : UInt32) :
    ∃ fs, t'.far.framesOn id = t.far.framesOn id ++ fs := by
  obtain ⟨as, has⟩ := h.attempts
  exact ⟨onStream id (as.map Connection.Attempt.frame), by
    rw [Chronicle.framesOn, ← has, List.map_append, Wire.onStream_append, Chronicle.framesOn]⟩

/-- In a stream that is in order a frame opens it, or none that is pending does. -/
theorem Carries.opens_or_of_inOrder (h : t.Carries kind p id j) {fs : List Frame}
    (horder : InOrder id (t.far.framesOn id ++ f :: fs)) :
    f.opens = true ∨ ∀ g ∈ t.pending id, g.opens = false := by
  cases hframes : t.far.framesOn id with
  | nil => exact Or.inl (horder.first f (by rw [hframes]; rfl))
  | cons a as =>
    -- The stream is open, and two frames do not open it.
    refine Or.inr fun g hg => ?_
    have hhead : a.opens = true := horder.first a (by rw [hframes]; rfl)
    have hle := h.countP_opens_le
    rw [hframes, List.cons_append, List.countP_cons_of_pos hhead, List.countP_append] at hle
    have hnone : (t.pending id).countP Frame.opens = 0 := by omega
    simpa using List.countP_eq_zero.mp hnone g hg

/-- The last frame that is ever written is the only one that is pending. -/
theorem Carries.pending_eq_singleton (h : t.Carries kind p id j) (h' : t'.Carries kind p id j)
    (hextends : t.Extends t') (hdone : t'.pending id = [])
    (hlast : t'.far.framesOn id = t.far.framesOn id ++ [f]) (hf : f ∈ t.pending id) :
    t.pending id = [f] := by
  obtain ⟨as, has⟩ := hextends.exists_callsOn j
  have hprefix : Request.tape kind p id (t.far.callsOn j) <+:
      Request.tape kind p id (t'.far.callsOn j) := has ▸ Request.tape_isPrefix _ as
  have hle := hprefix.length_le
  rw [← h.frames.length_eq, ← h'.frames.length_eq, hdone, hlast, List.append_nil,
    List.length_append, List.length_append, List.length_singleton] at hle
  have hpos := List.length_pos_of_mem hf
  obtain ⟨g, hg⟩ := List.length_eq_one_iff.mp (by omega : (t.pending id).length = 1)
  rw [hg] at hf ⊢
  rw [List.mem_singleton.mp hf]

section Play

variable (hk : kind ≠ .fireAndForget)
  (hcarries : ∀ {t'}, Run t t' → t'.far.Exclusive id → t'.Sound ∧ t'.Carries kind p id j)
include hcarries

include hk in
/-- If each frame is written in time the order is kept. -/
theorem keepsOrder_play (hopened : t.KeepsOrder id) (hplay : t.mayPlay es = true)
    (hex : (t.play es).far.Exclusive id)
    (hpunctual : ∀ before e after f, es = before ++ e :: after → stepFrame? e = some f →
      f.stream = id → (t.play before).Punctual id f) : (t.play es).KeepsOrder id := by
  induction es using List.reverseRecOn with
  | nil => exact hopened
  | append_singleton es e ih =>
    rw [mayPlay_append, Bool.and_eq_true] at hplay
    obtain ⟨hes, hlast⟩ := hplay
    have he := (Bool.and_eq_true_iff.mp hlast).1
    rw [play_append] at hex ⊢
    have hexes := (extends_of_run (.single (turn_next he))).exclusive hex
    obtain ⟨hsound, hnow⟩ := hcarries (run_play hes) hexes
    have hearlier := ih hes hexes fun before e' after f heq hf hid =>
      hpunctual before e' (after ++ [e]) f (by rw [heq]; simp) hf hid
    exact hearlier.tell hk hnow hsound (tells_next hsound he) hex
      fun f hf hid => hpunctual es e [] f rfl hf hid

/-- If the order is right each frame was written in time. -/
theorem punctual_of_inOrder {before after : List (Event Step)}
    (hplay : t.mayPlay (before ++ e :: after) = true)
    (hex : (t.play (before ++ e :: after)).far.Exclusive id)
    (hdone : (t.play (before ++ e :: after)).pending id = [])
    (horder : InOrder id ((t.play (before ++ e :: after)).far.framesOn id))
    (hf : stepFrame? e = some f) (hid : f.stream = id) : (t.play before).Punctual id f := by
  have hfinal := hcarries (run_play hplay) hex
  rw [mayPlay_append, Bool.and_eq_true] at hplay
  obtain ⟨hbefore, hlater⟩ := hplay
  obtain ⟨he, hafter⟩ := Bool.and_eq_true_iff.mp hlater
  rw [play_append] at hex hdone horder hfinal
  have hrest : (t.play before).Extends ((t.play before).play (e :: after)) :=
    extends_of_run (run_play hlater)
  obtain ⟨hsound, hnow⟩ := hcarries (run_play hbefore) (hrest.exclusive hex)
  have hnext : ((t.play before).next e).Extends ((t.play before).play (e :: after)) :=
    extends_of_run (run_play hafter)
  obtain ⟨decided, had⟩ := hnow.advances hsound (tells_next hsound he) (hnext.exclusive hex)
  obtain ⟨hframes, hperm⟩ := had.of_written hf hid
  have hpending : f ∈ (t.play before).pending id :=
    hperm.mem_iff.mp (List.mem_append_right _ (List.mem_singleton_self f))
  obtain ⟨gs, hgs⟩ := hnext.exists_framesOn id
  rw [next, hframes, List.append_assoc, List.singleton_append] at hgs
  refine ⟨hnow.opens_or_of_inOrder (hgs ▸ horder), ?_⟩
  rintro rfl
  -- Nothing is written behind the cancellation.
  refine hnow.pending_eq_singleton hfinal.2 hrest hdone ?_ hpending
  rw [hgs, horder.last _ _ hgs]

end Play

/-- **The order of the frames of a request is right exactly if each is written in time**, when none
is pending any more. -/
theorem inOrder_iff (hrun : Run {} t) (hk : kind ≠ .fireAndForget)
    (hplay : (t.tell (.opened n kind p i) t.todo).mayPlay es = true)
    (hex : ((t.tell (.opened n kind p i) t.todo).play es).far.Exclusive
      t.far.connection.nextStream)
    (haccepted : ∀ a ∈ ((t.tell (.opened n kind p i) t.todo).play es).far.attempts,
      a.frame.stream = t.far.connection.nextStream → a.isRefused = false)
    (hdone : ((t.tell (.opened n kind p i) t.todo).play es).pending
      t.far.connection.nextStream = []) :
    InOrder t.far.connection.nextStream (onStream t.far.connection.nextStream
        ((t.tell (.opened n kind p i) t.todo).play es).far.connection.written) ↔
      ∀ before e after f, es = before ++ e :: after → stepFrame? e = some f →
        f.stream = t.far.connection.nextStream →
        ((t.tell (.opened n kind p i) t.todo).play before).Punctual
          t.far.connection.nextStream f := by
  have hopened : Turn t (t.tell (.opened n kind p i) t.todo) := .told trivial
  have hcarries {t' : Traffic} (h : Run (t.tell (.opened n kind p i) t.todo) t')
      (hex : t'.far.Exclusive t.far.connection.nextStream) :
      t'.Sound ∧ t'.Carries kind p t.far.connection.nextStream t.far.connection.labels.length :=
    ⟨sound_of_run ((hrun.tail hopened).trans h), carries_of_run hrun hk h hex⟩
  have hwritten := (hcarries (run_play hplay) hex).1.faithful.onStream_written haccepted
  rw [hwritten]
  constructor
  · rintro horder before e after f rfl hf hid
    exact punctual_of_inOrder hcarries hplay hex hdone horder hf hid
  · intro hpunctual
    have hnone : (t.tell (.opened n kind p i) t.todo).far.framesOn t.far.connection.nextStream =
        [] ∧ (t.tell (.opened n kind p i) t.todo).pending t.far.connection.nextStream = [] := by
      have hframes := (hcarries .refl ((extends_of_run (run_play hplay)).exclusive hex)).2.frames
      rw [callsOn_of_opened (sound_of_run hrun)] at hframes
      exact List.append_eq_nil_iff.mp hframes.eq_nil
    exact (keepsOrder_play hk hcarries ⟨hnone.1 ▸ inOrder_nil _, fun _ => hnone.2⟩ hplay hex
      hpunctual).inOrder

/-- A consumer asks twice, from two threads: both calls decide, and then both write, in the same
order. -/
def overlapping : List (Event Step) :=
  [.resumed (.register 0), .asked ⟨0, 0⟩ (.request 1), .asked ⟨0, 0⟩ (.request 2),
    .resumed (.write (.requestStream 1 1 ⟨"a", "b"⟩)), .resumed (.write (.requestN 1 2))]

theorem overlapping_eq :
    ((firstOpened.play overlapping).far.allotted,
        (firstOpened.play overlapping).far.attempts.all (!·.isRefused),
        (firstOpened.play overlapping).pending 1,
        onStream 1 (firstOpened.play overlapping).far.connection.written) =
      (1, true, [], [.requestStream 1 1 ⟨"a", "b"⟩, .requestN 1 2]) := by
  decide +kernel

theorem inOrder_overlapping :
    InOrder 1 [.requestStream 1 1 ⟨"a", "b"⟩, .requestN 1 2] ∧
      ∀ before e after f, overlapping = before ++ e :: after → stepFrame? e = some f →
        f.stream = 1 → (firstOpened.play before).Punctual 1 f := by
  have horder : InOrder 1 [.requestStream 1 1 ⟨"a", "b"⟩, .requestN 1 2] :=
    ⟨fun f hf => by cases hf; rfl, fun before after heq => by
      have hmem : Frame.cancel 1 ∈ before ++ .cancel 1 :: after := by simp
      rw [← heq] at hmem
      simp at hmem⟩
  obtain ⟨hallotted, haccepted, hdone, hwritten⟩ := by
    simpa only [Prod.mk.injEq, List.all_eq_true] using overlapping_eq
  have hexclusive : (firstOpened.play overlapping).far.Exclusive 1 :=
    Chronicle.exclusive_of_allotted_le (by rw [hallotted]; decide) 1
  have hiff : InOrder 1 (onStream 1 (firstOpened.play overlapping).far.connection.written) ↔
      ∀ before e after f, overlapping = before ++ e :: after → stepFrame? e = some f →
        f.stream = 1 → (firstOpened.play before).Punctual 1 f :=
    inOrder_iff .refl (by decide) (by decide +kernel) hexclusive
      (fun a ha _ => by simpa using haccepted a ha) hdone
  exact ⟨horder, hiff.mp (hwritten ▸ horder)⟩

/-- A thread opens a stream, the first of its connection. -/
def opensStream : Crew Bool Chronicle Step :=
  Chronicle.start.turn false [.tell (.opened 0 .requestStream ⟨"a", "b"⟩ 0)]
    (Exchange.enter { receiver := .payloads { label := "stream", initialDemand := 0 } } { far := {} })

/-- That is done. -/
def streamOpened : Crew Bool Chronicle Step :=
  opensStream.play Chronicle.environment (List.replicate 4 false)

/-- The thread asks for one item.  It has decided on the frame, and has yet to write it. -/
def firstDecided : Crew Bool Chronicle Step :=
  (streamOpened.turn false [.own 0 (.request 1)] streamOpened.exchange).play Chronicle.environment
    (List.replicate 3 false)

/-- Another thread asks for two and writes; then the first one does. -/
def overtaken : Crew Bool Chronicle Step :=
  (firstDecided.turn true [.own 0 (.request 2)] firstDecided.exchange).play Chronicle.environment
    (List.replicate 4 true ++ [false])

theorem reach_overtaken :
    Crew.Reach Chronicle.environment (Chronicle.rules Bool) Chronicle.start overtaken := by
  have hopens : Crew.Reach Chronicle.environment (Chronicle.rules Bool) Chronicle.start opensStream :=
    .single (.start rfl (Chronicle.Starts.request ..))
  have hopened :
      Crew.Reach Chronicle.environment (Chronicle.rules Bool) Chronicle.start streamOpened :=
    hopens.trans (Crew.reach_play ..)
  have hdecided :
      Crew.Reach Chronicle.environment (Chronicle.rules Bool) streamOpened firstDecided :=
    (Relation.ReflTransGen.single (.start (k := false) (by decide +kernel)
      (Chronicle.Starts.own 0 (.request 1)))).trans (Crew.reach_play ..)
  exact ((hopened.trans hdecided).tail (.start (k := true) (by decide +kernel)
    (Chronicle.Starts.own 0 (.request 2)))).trans (Crew.reach_play ..)

/-- Demand that reaches the peer before the request does. -/
theorem not_inOrder_overtaken :
    Crew.Reach Chronicle.environment (Chronicle.rules Bool) Chronicle.start overtaken ∧
      ¬ InOrder 1 (onStream 1 overtaken.exchange.far.connection.written) := by
  have hwritten : onStream 1 overtaken.exchange.far.connection.written =
      [.requestN 1 2, .requestStream 1 1 ⟨"a", "b"⟩] := by
    decide +kernel
  refine ⟨reach_overtaken, fun horder => ?_⟩
  have hopens := horder.first (.requestN 1 2) (by rw [hwritten]; rfl)
  cases hopens

/-- A cancellation that reaches the peer before the request does: the peer will answer, and nobody
has any use for it. -/
example :
    (firstOpened.mayPlay
        [.resumed (.register 0), .asked ⟨0, 0⟩ (.request 1), .asked ⟨0, 0⟩ .cancel,
          .resumed (.detach 1), .resumed (.writeCancel 1),
          .resumed (.write (.requestStream 1 1 ⟨"a", "b"⟩))],
      (firstOpened.play
        [.resumed (.register 0), .asked ⟨0, 0⟩ (.request 1), .asked ⟨0, 0⟩ .cancel,
          .resumed (.detach 1), .resumed (.writeCancel 1),
          .resumed (.write (.requestStream 1 1 ⟨"a", "b"⟩))]).far.connection.written) =
      (true, [.cancel 1, .requestStream 1 1 ⟨"a", "b"⟩]) := by
  decide +kernel

end Traffic
end Client
end StreamConformance
