import StreamConformance.Proofs.Channel.Hushed
import StreamConformance.Proofs.Request.History

/-!
# A request stands where its calls have brought it

A request in a connection is the request by itself of which the same calls are made.  What it decides
on is not written at once: the section in which it decides only leaves a step to be done, and the
step is taken some time later.  Until then the frame is pending.

So what was written on the stream of a request and what is pending for it are together the tape of
its calls, though not in this order (`Traffic.Carries`, `Traffic.carries_of_run`).  What a turn makes
of the two is `Traffic.Advances`: a frame that was pending is written, or one is decided on.
-/

namespace StreamConformance
namespace Client

open Wire (Frame onStream onStream_append onStream_eq_self onStream_eq_nil)

/-- The call of the consumer of the stream object `j` that an event is. -/
def Request.call? (j : Nat) : Event Step → Option Ask
  | .asked g a => if g.stream = j then some a else none
  | _ => none

theorem Request.call?_eq_some {j : Nat} {e : Event Step} {a : Ask} :
    Request.call? j e = some a ↔ ∃ g, e = .asked g a ∧ g.stream = j := by
  cases e with
  | asked g b =>
    rw [Request.call?, Option.ite_none_right_eq_some]
    constructor
    · rintro ⟨hj, hb⟩
      exact ⟨g, by rw [Option.some.inj hb], hj⟩
    · rintro ⟨g', heq, hj⟩
      cases heq
      exact ⟨hj, rfl⟩
  | opened | openedChannel | attached | heard | copied | released | resumed =>
    simp [Request.call?]

theorem Request.stream_of_take {r : Request} {id : UInt32} {a : Ask} {f : Frame}
    (h : (r.take id a).2 = some f) : f.stream = id := by
  cases a with
  | request n => exact Request.stream_of_request h
  | cancel =>
    obtain ⟨-, hf⟩ := Option.ite_none_right_eq_some.mp h
    rw [← Option.some.inj hf]
    rfl

/-- The frame that is written by the step that an event is. -/
def stepFrame? (e : Event Step) : Option Frame :=
  e.step?.bind Step.frame?

namespace Connection

variable {c : Connection} {i j : Nat} {e : Event Step} {s : Stream} {r : Request} {l : Label}

/-! ## A call -/

/-- What a call makes of a request. -/
theorem getElem?_asked_of_request (hs : c.streams[j]? = some s) (hr : s.side = .request r)
    (a : Ask) :
    (c.asked j a).1.streams[j]? = some { s with side := .request (r.take s.id a).1 } := by
  have hlt : j < c.streams.size := (Array.getElem?_eq_some_iff.mp hs).1
  have hset (side : Side) : (c.setSide j s side).streams[j]? = some { s with side := side } := by
    rw [setSide, Array.getElem?_setIfInBounds_self_of_lt hlt]
  cases a with
  | request n =>
    simp only [asked, atStream, hs, hr]
    exact hset _
  | cancel =>
    simp only [asked, atStream, hs, hr]
    exact hset _

/-- The step that a call leaves to be done writes the frame that the request decides on. -/
theorem frames_asked_of_request (hs : c.streams[j]? = some s) (hr : s.side = .request r) (a : Ask) :
    ((c.asked j a).2.filterMap Call.step?).filterMap Step.frame? = (r.take s.id a).2.toList := by
  cases a with
  | request n =>
    simp only [asked, atStream, hs, hr, Request.take]
    cases (r.request s.id n).2 <;> rfl
  | cancel =>
    simp only [asked, atStream, hs, hr, Request.take]
    cases (r.cancel).2 <;> rfl

/-- A request stays as it is but for the calls of its consumer. -/
theorem getElem?_streams_of_request (hs : c.streams[j]? = some s) (hr : s.side = .request r)
    (hcall : Request.call? j e = none) : (c.react e).1.streams[j]? = some s := by
  have hlt : j < c.streams.size := (Array.getElem?_eq_some_iff.mp hs).1
  by_cases hconcerned : concerned? e = some j
  · -- A request has no link that anything could happen to.
    have hlink (f : Stream → Link → Connection → Result) : c.atLink j f = (c, []) := by
      simp only [atLink, atStream, hs, hr]
    cases e with
    | asked g a =>
      have hj : g.stream = j := by simpa [concerned?] using hconcerned
      simp [Request.call?, hj] at hcall
    | attached g i =>
      have hj : g.stream = j := by simpa [concerned?] using hconcerned
      rw [react, hj, attached, hlink, hs]
    | heard g s =>
      have hj : g.stream = j := by simpa [concerned?] using hconcerned
      cases s <;> rw [react, hj, heard, writeLink, hlink, hs]
    | resumed s =>
      cases s with
      | cancelProducer k =>
        have hj : k = j := by simpa [concerned?] using hconcerned
        rw [react, hj, step, hlink, hs]
      | _ => cases hconcerned
    | opened | openedChannel | copied | released => cases hconcerned
  · rw [getElem?_streams_react hconcerned hlt, hs]

end Connection

/-! ## Frames on the stream of a request -/

namespace Chronicle

variable {r : Chronicle} {e : Event Step} {j : Nat} {l : Label}

/-- The calls that the consumer of the stream object `j` has made, in order. -/
def callsOn (j : Nat) (r : Chronicle) : List Ask :=
  r.told.filterMap (Request.call? j)

theorem callsOn_react (e : Event Step) (r : Chronicle) (j : Nat) :
    (r.react e).1.callsOn j = r.callsOn j ++ (Request.call? j e).toList := by
  rw [callsOn, react, List.filterMap_append, callsOn]
  cases h : Request.call? j e <;> simp [h]

section Unshared

variable (hl : r.connection.labels[j]? = some l) (hk : l.kind = .request)
  (hunshared : r.connection.Unshared j)
include hl hk hunshared

/-- On the stream of a request nothing is written but by steps. -/
theorem framesOn_react_of_request (e : Event Step) :
    (r.react e).1.framesOn l.id =
      r.framesOn l.id ++ onStream l.id (stepFrame? e).toList := by
  rw [framesOn_react, map_frame_attempt?]
  congr 1
  have hlink (hstep : e.step? = none) :
      onStream l.id ((r.connection.frame? e).toList.map Prod.snd) = [] := by
    refine onStream_eq_nil fun f hf hid => ?_
    obtain ⟨⟨k, f'⟩, hframe, rfl⟩ := List.mem_map.mp hf
    obtain ⟨-, s, rfl, -⟩ | ⟨j', l', -, -, hl', hk', hid'⟩ :=
      Connection.frame?_cases (Option.mem_toList.mp hframe)
    · cases hstep
    · obtain rfl := hunshared j' l l' hl hl' (hid'.symm.trans hid)
      obtain rfl := Option.some.inj (hl.symm.trans hl')
      rw [hk] at hk'
      cases hk'
  cases e with
  | resumed s =>
    rw [Connection.frame?_resumed, stepFrame?, Event.step?, Option.bind_some]
    cases s.frame? <;> rfl
  | opened | openedChannel | asked | attached | heard | copied | released => exact hlink rfl

/-- No step is left to be done that writes on the stream of a request, but by its consumer. -/
theorem onStream_new_of_none (hnum : r.Numbered) (hex : (r.react e).1.Exclusive l.id)
    (hcall : Request.call? j e = none) :
    onStream l.id (((r.react e).2.filterMap Call.step?).filterMap Step.frame?) = [] := by
  refine onStream_eq_nil fun f hf hid => ?_
  obtain ⟨s, hs, hframe⟩ := List.mem_filterMap.mp hf
  cases Connection.issues_of_mem (Call.mem_filterMap_step?.mp hs) hframe with
  | @request g a l' _ _ hl' _ hid' =>
    have hj := hunshared g.stream l l' hl hl' (hid'.symm.trans hid)
    simp [Request.call?, hj] at hcall
  | @cancel g l' hl' hk' =>
    obtain rfl := hunshared g.stream l l' hl hl' hid
    obtain rfl := Option.some.inj (hl.symm.trans hl')
    rw [hk] at hk'
    cases hk'
  | message i p =>
    exact hex.ne_nextStream hnum rfl (hnum.mem_handedOut hl (by simp [hk])) hid

end Unshared

end Chronicle

/-! ## What is pending -/

namespace Traffic

variable {t t' : Traffic} {e : Event Step} {rest : List Step} {j n i : Nat} {id : UInt32}
  {kind : Script.InteractionKind} {p : Payload}

/-- The frames of a stream that are to be written by steps that are left to be done. -/
def pending (id : UInt32) (t : Traffic) : List Frame :=
  onStream id (t.todo.filterMap Step.frame?)

theorem filterMap_frame?_filter (ss : List Step) :
    (ss.filter (·.frame?.isSome)).filterMap Step.frame? = ss.filterMap Step.frame? := by
  rw [List.filterMap_filter]
  refine List.filterMap_congr fun s _ => ?_
  cases s.frame? <;> rfl

/-- What is pending is pending still, or is written. -/
theorem Tells.perm_pending (h : t.Tells e rest) (id : UInt32) :
    (onStream id (rest.filterMap Step.frame?) ++ onStream id (stepFrame? e).toList).Perm
      (t.pending id) := by
  have hsteps : ((rest ++ e.step?.toList).filter (·.frame?.isSome)).Perm
      (t.todo.filter (·.frame?.isSome)) := by
    refine List.perm_iff_count.mpr fun s => ?_
    by_cases hs : s.frame?.isSome = true
    · have hcount (ss : List Step) : (ss.filter (·.frame?.isSome)).count s = ss.count s :=
        List.count_filter hs
      rw [hcount, hcount, List.count_append, h.count s hs]
    · have hcount (ss : List Step) : (ss.filter (·.frame?.isSome)).count s = 0 :=
        List.count_eq_zero.mpr fun hmem => hs (List.mem_filter.mp hmem).2
      rw [hcount, hcount]
  have hframes := hsteps.filterMap Step.frame?
  rw [filterMap_frame?_filter, filterMap_frame?_filter, List.filterMap_append] at hframes
  have hstep : e.step?.toList.filterMap Step.frame? = (stepFrame? e).toList := by
    rw [stepFrame?]
    cases e.step? with
    | none => rfl
    | some s => cases h : s.frame? <;> simp [h]
  rw [hstep] at hframes
  rw [← onStream_append]
  exact hframes.filter _

/-- The request that the stream object `j` is, and what was written and is pending for it. -/
structure Carries (kind : Script.InteractionKind) (p : Payload) (id : UInt32) (j : Nat)
    (t : Traffic) : Prop where
  stream : ∃ s, t.far.connection.streams[j]? = some s ∧ s.id = id ∧
    s.side = .request (Request.after kind p id (t.far.callsOn j))
  frames : (t.far.framesOn id ++ t.pending id).Perm
    (Request.tape kind p id (t.far.callsOn j))

/-- What becomes of the frames of a request in a turn in which it is told `e`: what is written is
no more pending, and what is decided on is pending from now on. -/
structure Advances (kind : Script.InteractionKind) (p : Payload) (id : UInt32) (j : Nat)
    (e : Event Step) (t t' : Traffic) (kept decided : List Frame) : Prop where
  stream : ∃ s, t'.far.connection.streams[j]? = some s ∧ s.id = id ∧
    s.side = .request (Request.after kind p id (t'.far.callsOn j))
  framesOn : t'.far.framesOn id = t.far.framesOn id ++ onStream id (stepFrame? e).toList
  pending : t'.pending id = kept ++ decided
  kept : (kept ++ onStream id (stepFrame? e).toList).Perm (t.pending id)
  callsOn : t'.far.callsOn j = t.far.callsOn j ++ (Request.call? j e).toList
  tape : Request.tape kind p id (t'.far.callsOn j) =
    Request.tape kind p id (t.far.callsOn j) ++ decided
  length_decided : decided.length ≤ (Request.call? j e).toList.length

/-- Nothing is decided on in a turn in which a frame is written. -/
theorem Advances.decided_eq_nil {kept decided : List Frame} {f : Frame}
    (had : Advances kind p id j e t t' kept decided) (hf : stepFrame? e = some f) :
    decided = [] := by
  have hlength := had.length_decided
  cases e with
  | resumed s => exact List.length_eq_zero_iff.mp (Nat.le_zero.mp hlength)
  | opened | openedChannel | asked | attached | heard | copied | released => cases hf

/-- What is written on a stream in a turn in which the frame `f` is written on it. -/
theorem onStream_stepFrame?_of_some {f : Frame} (hf : stepFrame? e = some f) (hid : f.stream = id) :
    onStream id (stepFrame? e).toList = [f] := by
  rw [hf, Option.toList_some]
  exact onStream_eq_self fun g hg => by rw [List.mem_singleton.mp hg, hid]

/-- A frame that is written was pending, and is no more. -/
theorem Advances.of_written {kept decided : List Frame} {f : Frame}
    (had : Advances kind p id j e t t' kept decided) (hf : stepFrame? e = some f)
    (hid : f.stream = id) :
    t'.far.framesOn id = t.far.framesOn id ++ [f] ∧ (t'.pending id ++ [f]).Perm (t.pending id) := by
  have hframes := had.framesOn
  have hkept := had.kept
  rw [onStream_stepFrame?_of_some hf hid] at hframes hkept
  rw [had.pending, had.decided_eq_nil hf, List.append_nil]
  exact ⟨hframes, hkept⟩

/-- The label of a request. -/
theorem Carries.exists_label (h : t.Carries kind p id j) :
    ∃ l, t.far.connection.labels[j]? = some l ∧ l.id = id ∧ l.kind = .request := by
  obtain ⟨s, hs, hid, hside⟩ := h.stream
  refine ⟨s.label, ?_, hid, ?_⟩
  · rw [Connection.getElem?_labels, hs]
    rfl
  · rw [Stream.label, hside]
    rfl

/-- **What a turn makes of the frames of a request.** -/
theorem Carries.advances (h : t.Carries kind p id j) (hsound : t.Sound) (htells : t.Tells e rest)
    (hex : (t.far.react e).1.Exclusive id) :
    ∃ decided, Advances kind p id j e t (t.tell e rest)
      (onStream id (rest.filterMap Step.frame?)) decided := by
  obtain ⟨s, hs, hid, hside⟩ := h.stream
  obtain ⟨l, hl, hlid, hk⟩ := h.exists_label
  subst hlid
  have hkind : l.kind ≠ .detached := by simp [hk]
  have hunshared := hsound.numbered.unshared hl hkind (hex.of_react hsound.numbered)
  have hframes := Chronicle.framesOn_react_of_request hl hk hunshared e
  have hcalls := Chronicle.callsOn_react e t.far j
  have hpending : (t.tell e rest).pending l.id = onStream l.id (rest.filterMap Step.frame?) ++
      onStream l.id (((t.far.react e).2.filterMap Call.step?).filterMap Step.frame?) := by
    rw [Traffic.pending, tell, List.filterMap_append, onStream_append]
  cases hcall : Request.call? j e with
  | none =>
    rw [Chronicle.onStream_new_of_none hl hk hunshared hsound.numbered hex hcall] at hpending
    rw [hcall, Option.toList_none, List.append_nil] at hcalls
    refine ⟨[], ⟨s, ?_, hid, ?_⟩, hframes, hpending, htells.perm_pending l.id, ?_, ?_, ?_⟩
    · exact Connection.getElem?_streams_of_request hs hside hcall
    · rw [tell, hcalls, hside]
    · rw [hcall, Option.toList_none, List.append_nil]
      exact hcalls
    · rw [tell, hcalls, List.append_nil]
    · exact Nat.zero_le _
  | some a =>
    obtain ⟨g, rfl, rfl⟩ := Request.call?_eq_some.mp hcall
    rw [hcall, Option.toList_some] at hcalls
    have hnew : ((t.far.react (.asked g a)).2.filterMap Call.step?).filterMap Step.frame? = _ :=
      Connection.frames_asked_of_request hs hside a
    rw [hid] at hnew
    rw [hnew, onStream_eq_self fun f hf =>
      Request.stream_of_take (Option.mem_toList.mp hf)] at hpending
    refine ⟨_, ⟨_, Connection.getElem?_asked_of_request hs hside a, hid, ?_⟩, hframes, hpending,
      htells.perm_pending l.id, ?_, ?_, ?_⟩
    · rw [tell, hcalls, Request.after_concat, hid]
    · rw [hcall]
      exact hcalls
    · rw [tell, hcalls, Request.tape_concat]
    · rw [hcall]
      exact Option.length_toList_le

theorem Carries.of_advances {kept decided : List Frame} (h : t.Carries kind p id j)
    (had : Advances kind p id j e t t' kept decided) : t'.Carries kind p id j where
  stream := had.stream
  frames := by
    have hkept := (List.perm_append_comm.trans had.kept).append_left (t.far.framesOn id)
    rw [had.framesOn, had.pending, had.tape, ← List.append_assoc, List.append_assoc _ _ kept]
    exact (hkept.trans h.frames).append_right decided

/-- Nobody can have called a request before it was opened. -/
theorem callsOn_of_opened (hsound : t.Sound) :
    (t.tell (.opened n kind p i) t.todo).far.callsOn t.far.connection.labels.length = [] := by
  rw [tell, Chronicle.callsOn_react, List.append_eq_nil_iff]
  refine ⟨List.filterMap_eq_nil_iff.mpr fun e he => ?_, rfl⟩
  by_contra hne
  obtain ⟨a, ha⟩ := Option.ne_none_iff_exists'.mp hne
  obtain ⟨g, rfl, hg⟩ := Request.call?_eq_some.mp ha
  exact absurd (hsound.told _ he _ (congrArg some hg)) (Nat.lt_irrefl _)

/-- A request that has just been opened. -/
theorem carries_of_opened (hsound : t.Sound) (hk : kind ≠ .fireAndForget)
    (hex : (t.tell (.opened n kind p i) t.todo).far.Exclusive t.far.connection.nextStream) :
    (t.tell (.opened n kind p i) t.todo).Carries kind p t.far.connection.nextStream
      t.far.connection.labels.length := by
  have hnew : t.far.connection.newLabel? (.opened n kind p i) =
      some ⟨t.far.connection.nextStream, i, .request⟩ := by
    cases kind <;> first | rfl | exact absurd rfl hk
  obtain ⟨hframes, htodo⟩ := untouched_of_new hsound
    (tells_of_expects (e := .opened n kind p i) trivial) hnew (by simp) hex
  have hcalls : (t.tell (.opened n kind p i) t.todo).far.callsOn
      t.far.connection.labels.length = [] := callsOn_of_opened hsound
  have hpending : (t.tell (.opened n kind p i) t.todo).pending
      t.far.connection.nextStream = [] := by
    refine onStream_eq_nil fun f hf => ?_
    obtain ⟨s, hs, hframe⟩ := List.mem_filterMap.mp hf
    exact htodo s hs f hframe
  refine ⟨⟨⟨t.far.connection.nextStream, i, .request ⟨kind, .unsent p⟩⟩, ?_, rfl, ?_⟩, ?_⟩
  · rw [Connection.length_labels]
    cases kind with
    | fireAndForget => exact absurd rfl hk
    | requestResponse | requestStream | requestSubscription => exact Array.getElem?_push_size
  · rw [hcalls, Request.after_nil]
  · rw [hcalls, hframes, hpending]
    exact .refl _

/-- **What was written on the stream of a request and what is pending for it are together the tape
of its calls**, in whatever order all this happens. -/
theorem carries_of_run (hrun : Run {} t) (hk : kind ≠ .fireAndForget)
    (h : Run (t.tell (.opened n kind p i) t.todo) t')
    (hex : t'.far.Exclusive t.far.connection.nextStream) :
    t'.Carries kind p t.far.connection.nextStream t.far.connection.labels.length := by
  have hopened : Turn t (t.tell (.opened n kind p i) t.todo) := .told trivial
  induction h with
  | refl => exact carries_of_opened (sound_of_run hrun) hk hex
  | @tail t' t'' hmid hturn ih =>
    have hsound := sound_of_run ((hrun.tail hopened).trans hmid)
    have hcarries := ih ((extends_of_run (.single hturn)).exclusive hex)
    cases hturn with
    | told he =>
      obtain ⟨decided, had⟩ := hcarries.advances hsound (tells_of_expects he) hex
      exact hcarries.of_advances had
    | taken hs =>
      obtain ⟨decided, had⟩ := hcarries.advances hsound (tells_of_mem hsound hs) hex
      exact hcarries.of_advances had
    | severed cause => exact ⟨hcarries.stream, hcarries.frames⟩

end Traffic
end Client
end StreamConformance
