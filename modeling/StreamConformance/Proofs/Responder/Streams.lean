import StreamConformance.Proofs.Channel.Echoing

/-!
# The streams of a responder

The responder keeps its activities in one table, but a frame concerns one entry of it only.  So a
conversation is as many conversations as it has streams, however their frames are mixed.

* `Responder.answer`: what becomes of the activity on a stream with a frame for that stream, and
  what the frame is answered with.
* `Responder.acts_handle`: the table is handled entry by entry.
* `Responder.Conversation.onStream_receiveAll`: what is replied on a stream are the answers to the
  frames for it.
* `Responder.answerAll_none`, `Responder.fst_answerAll_of_terminal`: nothing is said on a stream that
  is not open, and it is not open behind a completion or an error.
-/

namespace StreamConformance

namespace Wire

/-- A frame that opens a stream.  A message without answers opens none. -/
def Frame.opens : Frame → Bool
  | .requestResponse .. | .requestStream .. | .requestSubscription .. | .requestChannel .. => true
  | _ => false

/-- A frame with which a client gives a stream up. -/
def Frame.stops : Frame → Bool
  | .cancel _ | .error .. => true
  | _ => false

/-- A frame behind which nothing more is said on its stream. -/
def Frame.isTerminal : Frame → Bool
  | .complete _ | .error .. => true
  | _ => false

/-- The frames of a stream, in order. -/
def onStream (stream : UInt32) (fs : List Frame) : List Frame :=
  fs.filter (·.stream == stream)

@[simp] theorem onStream_append (stream : UInt32) (fs gs : List Frame) :
    onStream stream (fs ++ gs) = onStream stream fs ++ onStream stream gs :=
  List.filter_append ..

theorem onStream_cons_of_eq {stream : UInt32} {f : Frame} (h : f.stream = stream)
    (fs : List Frame) : onStream stream (f :: fs) = f :: onStream stream fs :=
  List.filter_cons_of_pos (beq_iff_eq.mpr h)

theorem onStream_eq_self {stream : UInt32} {fs : List Frame} (h : ∀ f ∈ fs, f.stream = stream) :
    onStream stream fs = fs :=
  List.filter_eq_self.mpr fun f hf => beq_iff_eq.mpr (h f hf)

theorem onStream_eq_nil {stream : UInt32} {fs : List Frame} (h : ∀ f ∈ fs, f.stream ≠ stream) :
    onStream stream fs = [] :=
  List.filter_eq_nil_iff.mpr fun f hf heq => h f hf (eq_of_beq heq)

end Wire

namespace Responder

open Wire (Frame onStream onStream_append onStream_cons_of_eq onStream_eq_self onStream_eq_nil)

variable {r : Responder} {a : Activity} {stream : UInt32} {f g : Frame} {fs gs : List Frame}

/-! ## The table -/

theorem find?_erase (stream stream' : UInt32) (r : Responder) :
    (r.erase stream).find? stream' = if stream' = stream then none else r.find? stream' := by
  rw [find?, erase, List.find?_filter, find?]
  by_cases hs : stream' = stream
  · subst hs
    rw [if_pos rfl, List.find?_eq_none.mpr (by simp), Option.map_none]
  · rw [if_neg hs]
    congr 2
    funext e
    by_cases he : e.1 = stream' <;> simp [he, hs]

theorem find?_insert (stream stream' : UInt32) (a : Activity) (r : Responder) :
    (r.insert stream a).find? stream' = if stream' = stream then some a else r.find? stream' := by
  by_cases hs : stream' = stream
  · subst hs
    rw [if_pos rfl, find?, insert, List.find?_cons_of_pos (by simp), Option.map_some]
  · rw [if_neg hs, find?, insert, List.find?_cons_of_neg (by simpa using Ne.symm hs)]
    exact (find?_erase stream stream' r).trans (if_neg hs)

theorem find?_modify (stream stream' : UInt32) (g : Activity → Activity) (r : Responder) :
    (r.modify stream g).find? stream' =
      if stream' = stream then (r.find? stream).map g else r.find? stream' := by
  unfold modify
  cases hfind : r.find? stream with
  | none =>
    by_cases hs : stream' = stream
    · rw [if_pos hs, hs, hfind, Option.map_none]
    · rw [if_neg hs]
  | some a => exact find?_insert stream stream' (g a) r

/-- Send what demand allows, if there is an activity. -/
def flush? (stream : UInt32) : Option Activity → Option Activity × List Frame
  | none => (none, [])
  | some a => a.flush stream

/-- What is done to the table is done to its entry for `stream`, and that is what is answered. -/
structure Acts (stream : UInt32) (r : Responder) (done : Responder × List Frame)
    (answered : Option Activity × List Frame) : Prop where
  find? : ∀ stream', done.1.find? stream' =
    if stream' = stream then answered.1 else r.find? stream'
  replies : done.2 = answered.2

/-- The other entries of the table do not matter. -/
theorem Acts.of_eq {r' : Responder} {done : Responder × List Frame}
    {answered : Option Activity × List Frame} (h : Acts stream r' done answered)
    (hr : ∀ stream', stream' ≠ stream → r'.find? stream' = r.find? stream') :
    Acts stream r done answered where
  find? stream' := by
    rw [h.find?]
    by_cases hs : stream' = stream
    · rw [if_pos hs, if_pos hs]
    · rw [if_neg hs, if_neg hs, hr _ hs]
  replies := h.replies

/-- Nothing is done to the table. -/
theorem acts_self (stream : UInt32) (r : Responder) (fs : List Frame) :
    Acts stream r (r, fs) (r.find? stream, fs) where
  find? stream' := by
    by_cases hs : stream' = stream
    · rw [if_pos hs, hs]
    · rw [if_neg hs]
  replies := rfl

theorem acts_erase (stream : UInt32) (r : Responder) (fs : List Frame) :
    Acts stream r (r.erase stream, fs) (none, fs) where
  find? stream' := find?_erase stream stream' r
  replies := rfl

theorem acts_flush (stream : UInt32) (r : Responder) :
    Acts stream r (r.flush stream) (flush? stream (r.find? stream)) := by
  unfold flush
  cases hfind : r.find? stream with
  | none =>
    have hself := acts_self stream r []
    rwa [hfind] at hself
  | some a =>
    rw [flush?]
    dsimp only
    rcases hflush : a.flush stream with ⟨_ | b, frames⟩
    · exact acts_erase stream r frames
    · exact ⟨fun stream' => find?_insert stream stream' b r, rfl⟩

theorem acts_flush_insert (stream : UInt32) (a : Activity) (r : Responder) :
    Acts stream r ((r.insert stream a).flush stream) (a.flush stream) := by
  have hflush := acts_flush stream (r.insert stream a)
  rw [find?_insert, if_pos rfl, flush?] at hflush
  exact hflush.of_eq fun stream' hs => (find?_insert ..).trans (if_neg hs)

theorem acts_flush_modify (stream : UInt32) (g : Activity → Activity) (r : Responder) :
    Acts stream r ((r.modify stream g).flush stream) (flush? stream ((r.find? stream).map g)) := by
  have hflush := acts_flush stream (r.modify stream g)
  rw [find?_modify, if_pos rfl] at hflush
  exact hflush.of_eq fun stream' hs => (find?_modify ..).trans (if_neg hs)

theorem acts_start (stream : UInt32) (payload : Payload) (a : Activity) (r : Responder) :
    Acts stream r (r.start stream payload a)
      (if payload.asksForError then (r.find? stream, [.error stream payload.requestedError])
        else a.flush stream) := by
  unfold start
  split
  · exact acts_self stream r _
  · exact acts_flush_insert stream a r

/-! ## One frame -/

/-- What becomes of the activity on a stream with an item for it, and what that is answered with. -/
def answerItem (stream : UInt32) (payload : Payload) :
    Option Activity → Option Activity × List Frame
  | some (.channel c) =>
    let flushed := (Activity.channel { c with
      queue := c.queue ++ [payload], received := c.received + 1 }).flush stream
    (flushed.1,
      (if (c.received + 1) % channelCredit == 0 then [.requestN stream channelCredit] else []) ++
        flushed.2)
  | a => flush? stream a

/-- What becomes of the activity on a stream with a frame for that stream, and what the frame is
answered with. -/
def answer (f : Frame) (a : Option Activity) : Option Activity × List Frame :=
  match f with
  | .requestResponse stream payload =>
    (a, if payload.asksForError then [.error stream payload.requestedError]
      else [.next stream payload, .complete stream])
  | .requestStream stream n payload =>
    if payload.asksForError then (a, [.error stream payload.requestedError])
    else (Activity.stream streamLength payload n).flush stream
  | .requestSubscription stream n payload =>
    if payload.asksForError then (a, [.error stream payload.requestedError])
    else (Activity.subscription payload n).flush stream
  | .fireAndForget _ _ => (a, [])
  | .requestChannel stream n payload =>
    let flushed := (Activity.channel { queue := [payload], demand := n, received := 1 }).flush stream
    (flushed.1, .requestN stream channelCredit :: flushed.2)
  | .next stream payload => answerItem stream payload a
  | .complete stream => flush? stream (a.map Activity.clientCompletes)
  | .error _ _ => (none, [])
  | .requestN stream n => flush? stream (a.map (Activity.grant n))
  | .cancel _ => (none, [])

theorem acts_receiveItem (stream : UInt32) (payload : Payload) (r : Responder) :
    Acts stream r (r.receiveItem stream payload) (answerItem stream payload (r.find? stream)) := by
  unfold receiveItem
  split
  · rename_i c hfind
    rw [hfind]
    have hflush := acts_flush_insert stream (.channel { c with
      queue := c.queue ++ [payload], received := c.received + 1 }) r
    exact ⟨hflush.find?, congrArg _ hflush.replies⟩
  · rename_i hne
    have hflush := acts_flush stream r
    unfold answerItem
    split
    · rename_i c hfind
      exact absurd hfind (hne c)
    · exact hflush

/-- **The table is handled entry by entry.** -/
theorem acts_handle (f : Frame) (r : Responder) :
    Acts f.stream r ((r.handle f).1, (r.handle f).2.1) (answer f (r.find? f.stream)) := by
  cases f with
  | requestResponse stream payload => exact acts_self stream r _
  | requestStream stream n payload => exact acts_start stream payload _ r
  | requestSubscription stream n payload => exact acts_start stream payload _ r
  | fireAndForget stream payload => exact acts_self stream r _
  | requestChannel stream n payload =>
    have hflush := acts_flush_insert stream
      (.channel { queue := [payload], demand := n, received := 1 }) r
    exact ⟨hflush.find?, congrArg _ hflush.replies⟩
  | next stream payload => exact acts_receiveItem stream payload r
  | complete stream => exact acts_flush_modify stream Activity.clientCompletes r
  | error stream message => exact acts_erase stream r []
  | requestN stream n => exact acts_flush_modify stream (Activity.grant n) r
  | cancel stream => exact acts_erase stream r []

theorem stream_of_mem_flush (h : g ∈ (a.flush stream).2) : g.stream = stream := by
  cases a with
  | stream remaining payload demand =>
    simp only [Activity.flush] at h
    split at h
    · rcases List.mem_append.mp h with hitem | hlast
      · rw [List.eq_of_mem_replicate hitem, Frame.stream]
      · rw [List.mem_singleton.mp hlast, Frame.stream]
    · rw [List.eq_of_mem_replicate h, Frame.stream]
  | subscription payload demand => rw [List.eq_of_mem_replicate h, Frame.stream]
  | channel c =>
    have hitem (hg : g ∈ (c.queue.take c.demand).map (Frame.next stream)) : g.stream = stream := by
      obtain ⟨payload, -, rfl⟩ := List.mem_map.mp hg
      rfl
    simp only [Activity.flush] at h
    split at h
    · rcases List.mem_append.mp h with hg | hlast
      · exact hitem hg
      · rw [List.mem_singleton.mp hlast, Frame.stream]
    · exact hitem h

theorem stream_of_mem_flush? {a : Option Activity} (h : g ∈ (flush? stream a).2) :
    g.stream = stream := by
  cases a with
  | none => cases h
  | some a => exact stream_of_mem_flush h

/-- A frame is answered on its stream. -/
theorem stream_of_mem_answer {a : Option Activity} (h : g ∈ (answer f a).2) :
    g.stream = f.stream := by
  cases f with
  | requestResponse stream payload =>
    simp only [answer] at h
    split at h
    · rw [List.mem_singleton.mp h, Frame.stream, Frame.stream]
    · rcases List.mem_cons.mp h with rfl | h
      · rfl
      · rw [List.mem_singleton.mp h, Frame.stream, Frame.stream]
  | requestStream stream n payload | requestSubscription stream n payload =>
    simp only [answer] at h
    split at h
    · rw [List.mem_singleton.mp h, Frame.stream, Frame.stream]
    · exact stream_of_mem_flush h
  | requestChannel stream n payload =>
    rcases List.mem_cons.mp h with rfl | h
    · rfl
    · exact stream_of_mem_flush h
  | next stream payload =>
    simp only [answer] at h
    unfold answerItem at h
    split at h
    · rcases List.mem_append.mp h with hcredit | h
      · split at hcredit
        · rw [List.mem_singleton.mp hcredit, Frame.stream, Frame.stream]
        · cases hcredit
      · exact stream_of_mem_flush h
    · exact stream_of_mem_flush? h
  | complete stream | requestN stream n => exact stream_of_mem_flush? h
  | fireAndForget stream payload | error stream message | cancel stream => cases h

/-! ## Many frames -/

/-- Answer the frames for a stream, one after another. -/
def answerAll : List Frame → Option Activity → Option Activity × List Frame
  | [], a => (a, [])
  | f :: fs, a =>
    ((answerAll fs (answer f a).1).1, (answer f a).2 ++ (answerAll fs (answer f a).1).2)

theorem answerAll_append (fs gs : List Frame) (a : Option Activity) :
    answerAll (fs ++ gs) a =
      ((answerAll gs (answerAll fs a).1).1,
        (answerAll fs a).2 ++ (answerAll gs (answerAll fs a).1).2) := by
  induction fs generalizing a with
  | nil => rfl
  | cons f fs ih =>
    rw [List.cons_append, answerAll, ih, answerAll, List.append_assoc]

namespace Conversation

variable {v : Conversation}

theorem ended_of_receive (h : (v.receive f).1.ended = none) : v.ended = none := by
  by_contra hended
  rw [receive, if_pos (Option.isSome_iff_ne_none.mpr hended)] at h
  exact hended h

theorem receiveAll_eq (fs gs : List Frame) (v : Conversation) :
    fs.foldl (fun acc f => match acc.1.receive f with | (c, replies) => (c, acc.2 ++ replies))
        (v, gs) =
      ((v.receiveAll fs).1, gs ++ (v.receiveAll fs).2) := by
  induction fs generalizing v gs with
  | nil => rw [receiveAll, List.foldl_nil, List.foldl_nil, List.append_nil]
  | cons f fs ih =>
    rw [receiveAll, List.foldl_cons, List.foldl_cons, ih, ih, List.nil_append, List.append_assoc]

theorem receiveAll_cons (f : Frame) (fs : List Frame) (v : Conversation) :
    v.receiveAll (f :: fs) =
      (((v.receive f).1.receiveAll fs).1, (v.receive f).2 ++ ((v.receive f).1.receiveAll fs).2) := by
  rw [receiveAll, List.foldl_cons, receiveAll_eq, List.nil_append]

theorem receiveAll_append (fs gs : List Frame) (v : Conversation) :
    v.receiveAll (fs ++ gs) =
      (((v.receiveAll fs).1.receiveAll gs).1,
        (v.receiveAll fs).2 ++ ((v.receiveAll fs).1.receiveAll gs).2) := by
  rw [receiveAll, List.foldl_append]
  exact receiveAll_eq gs (v.receiveAll fs).2 (v.receiveAll fs).1

theorem ended_of_receiveAll (h : (v.receiveAll fs).1.ended = none) : v.ended = none := by
  induction fs generalizing v with
  | nil => exact h
  | cons f fs ih =>
    rw [receiveAll_cons] at h
    exact ended_of_receive (ih h)

/-- **What is replied on a stream are the answers to the frames for it**, as long as the
conversation goes on. -/
theorem onStream_receiveAll (h : (v.receiveAll fs).1.ended = none) (stream : UInt32) :
    ((v.receiveAll fs).1.responder.find? stream, onStream stream (v.receiveAll fs).2) =
      answerAll (onStream stream fs) (v.responder.find? stream) := by
  induction fs generalizing v with
  | nil => rfl
  | cons f fs ih =>
    rw [receiveAll_cons] at h ⊢
    have hended := ended_of_receiveAll h
    have hv := ended_of_receive hended
    obtain ⟨hfind, hreplies⟩ := acts_handle f v.responder
    have hrest := ih h
    rw [receive_of_ended_eq_none hv hended] at hrest ⊢
    dsimp only at hfind hreplies hrest ⊢
    rw [onStream_append, hreplies]
    by_cases hs : stream = f.stream
    · subst hs
      rw [hfind, if_pos rfl] at hrest
      rw [onStream_cons_of_eq rfl, answerAll, ← hrest,
        onStream_eq_self fun g hg => stream_of_mem_answer hg]
    · rw [hfind, if_neg hs] at hrest
      have hown : onStream stream (f :: fs) = onStream stream fs :=
        List.filter_cons_of_neg (by simpa using Ne.symm hs)
      have hnone : onStream stream (answer f (v.responder.find? f.stream)).2 = [] :=
        onStream_eq_nil fun g hg heq => hs (heq.symm.trans (stream_of_mem_answer hg))
      rw [hown, hnone, List.nil_append, hrest]

end Conversation

/-! ## Before a stream is opened, and after it has ended -/

theorem answer_none (h : f.opens = false) : answer f none = (none, []) := by
  cases f with
  | requestResponse | requestStream | requestSubscription | requestChannel => cases h
  | _ => rfl

/-- Nothing is said on a stream that is not open. -/
theorem answerAll_none (h : ∀ f ∈ fs, f.opens = false) : answerAll fs none = (none, []) := by
  induction fs with
  | nil => rfl
  | cons f fs ih =>
    rw [answerAll, answer_none (h f List.mem_cons_self),
      ih fun g hg => h g (List.mem_cons_of_mem f hg)]
    rfl

theorem fst_flush_of_terminal (h : g ∈ (a.flush stream).2) (hg : g.isTerminal = true) :
    (a.flush stream).1 = none := by
  cases a with
  | stream remaining payload demand =>
    simp only [Activity.flush] at h ⊢
    split at h
    · rw [if_pos ‹_›]
    · rw [List.eq_of_mem_replicate h] at hg
      cases hg
  | subscription payload demand =>
    rw [List.eq_of_mem_replicate h] at hg
    cases hg
  | channel c =>
    simp only [Activity.flush] at h ⊢
    split at h
    · rw [if_pos ‹_›]
    · obtain ⟨payload, -, rfl⟩ := List.mem_map.mp h
      cases hg

theorem fst_flush?_of_terminal {a : Option Activity} (h : g ∈ (flush? stream a).2)
    (hg : g.isTerminal = true) : (flush? stream a).1 = none := by
  cases a with
  | none => rfl
  | some a => exact fst_flush_of_terminal h hg

/-- A completion or an error is the end of an activity, and none begins with it. -/
theorem fst_answer_of_terminal {a : Option Activity} (ha : f.opens = true → a = none)
    (h : g ∈ (answer f a).2) (hg : g.isTerminal = true) : (answer f a).1 = none := by
  cases f with
  | requestResponse stream payload => exact ha rfl
  | requestStream stream n payload | requestSubscription stream n payload =>
    simp only [answer] at h ⊢
    split at h
    · rw [if_pos ‹_›]
      exact ha rfl
    · rw [if_neg ‹_›]
      exact fst_flush_of_terminal h hg
  | requestChannel stream n payload =>
    rcases List.mem_cons.mp h with rfl | h
    · cases hg
    · exact fst_flush_of_terminal h hg
  | next stream payload =>
    simp only [answer] at h ⊢
    unfold answerItem at h ⊢
    split at h
    · rcases List.mem_append.mp h with hcredit | h
      · split at hcredit
        · rw [List.mem_singleton.mp hcredit] at hg
          cases hg
        · cases hcredit
      · exact fst_flush_of_terminal h hg
    · exact fst_flush?_of_terminal h hg
  | complete stream | requestN stream n => exact fst_flush?_of_terminal h hg
  | fireAndForget stream payload | error stream message | cancel stream => cases h

/-- Behind a completion or an error there is no activity, if nothing opens the stream again. -/
theorem fst_answerAll_of_terminal {a : Option Activity} (ho : ∀ f ∈ fs, f.opens = false)
    (h : g ∈ (answerAll fs a).2) (hg : g.isTerminal = true) : (answerAll fs a).1 = none := by
  induction fs generalizing a with
  | nil => cases h
  | cons f fs ih =>
    have ho' : ∀ g ∈ fs, g.opens = false := fun g hg => ho g (List.mem_cons_of_mem f hg)
    rw [answerAll] at h ⊢
    rcases List.mem_append.mp h with hfirst | hlater
    · have hopens : f.opens = true → a = none := fun hf => by
        rw [ho f List.mem_cons_self] at hf
        cases hf
      rw [fst_answer_of_terminal hopens hfirst hg, answerAll_none ho']
    · exact ih ho' hlater

end Responder
end StreamConformance
