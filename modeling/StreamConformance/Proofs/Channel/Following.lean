import StreamConformance.Proofs.Channel.Traffic

/-!
# A link stands where its history has brought it

A link in a connection is the link by itself that reads the same history.  Its frames are the frames
of its stream, but for one: that the consumer has canceled is written in a step of its own, some
time after the section of the link.

* `Connection.link?_react_of_input`, `Connection.frame?_of_input`: an event is to a link what
  `Link.take` makes of it.
* `Connection.getElem?_streams_react`: other stream objects stay as they are.
* `Chronicle.framesOn`: what was to be written on a stream.
* `Traffic.Follows`, `Traffic.follows_of_run`: what was to be written on the stream of a channel are
  the frames of its link and, at most once, that the consumer has canceled.
-/

namespace StreamConformance

theorem head?_append_ne {α : Type*} {a : α} {l l' : List α} (h : l.head? ≠ some a)
    (h' : l = [] → l'.head? ≠ some a) : (l ++ l').head? ≠ some a := by
  cases l with
  | nil => exact h' rfl
  | cons b l => exact h

namespace Client

open Wire (Frame onStream onStream_append onStream_eq_self onStream_eq_nil)

namespace Connection

variable {c : Connection} {i j k : Nat} {id : UInt32} {l : Link} {e : Event Step} {x : Link.Input}
  {s : Stream}

/-- A stream object that is there after an event was there before, or was added by it at the end. -/
theorem getElem?_labels_react {l : Label} (h : (c.react e).1.labels[j]? = some l) :
    c.labels[j]? = some l ∨ (c.newLabel? e = some l ∧ j = c.labels.length) := by
  rw [labels_react, List.getElem?_append] at h
  split at h
  · exact Or.inl h
  · refine Or.inr ?_
    cases hnew : c.newLabel? e with
    | none =>
      rw [hnew] at h
      cases h
    | some l' =>
      rw [hnew, Option.toList_some, List.getElem?_singleton] at h
      obtain ⟨hzero, hsame⟩ := Option.ite_none_right_eq_some.mp h
      exact ⟨hsame, by omega⟩

/-! ## Events that concern another stream object -/

section Other

variable (hne : k ≠ j)
include hne

theorem getElem?_setSide (s : Stream) (side : Side) (c : Connection) :
    (c.setSide k s side).streams[j]? = c.streams[j]? := by
  rw [setSide, Array.getElem?_setIfInBounds, if_neg hne]

omit hne in
theorem getElem?_atStream {f : Stream → Connection → Result}
    (hf : ∀ s, (f s c).1.streams[j]? = c.streams[j]?) :
    (c.atStream k f).1.streams[j]? = c.streams[j]? := by
  unfold atStream
  split
  · rfl
  · exact hf _

omit hne in
theorem getElem?_atLink {f : Stream → Link → Connection → Result}
    (hf : ∀ s l, (f s l c).1.streams[j]? = c.streams[j]?) :
    (c.atLink k f).1.streams[j]? = c.streams[j]? := by
  refine getElem?_atStream fun s => ?_
  split
  · exact hf _ _
  · rfl

theorem getElem?_writeLink (d : UInt32 → Link → Link × Option Frame)
    (o : UInt32 → Fault → List (Call Step)) (c : Connection) :
    (c.writeLink k d o).1.streams[j]? = c.streams[j]? := by
  refine getElem?_atLink fun s l => ?_
  split
  · exact getElem?_setSide hne s _ c
  · rw [streams_sendOr]
    exact getElem?_setSide hne s _ c

theorem getElem?_asked (a : Ask) (c : Connection) :
    (c.asked k a).1.streams[j]? = c.streams[j]? := by
  refine getElem?_atStream fun s => ?_
  split
  · exact getElem?_setSide hne s _ c
  · exact getElem?_setSide hne s _ c
  · exact getElem?_writeLink hne _ _ c
  · split <;> exact getElem?_setSide hne s _ c
  · rfl

end Other

/-- **An event leaves the stream objects as they are that it does not concern.** -/
theorem getElem?_streams_react (he : concerned? e ≠ some j) (hj : j < c.streams.size) :
    (c.react e).1.streams[j]? = c.streams[j]? := by
  have hpush (s : Stream) : (c.streams.push s)[j]? = c.streams[j]? := by
    rw [Array.getElem?_push, if_neg (Nat.ne_of_lt hj)]
  cases e with
  | opened n kind p i => cases kind <;> exact hpush _
  | openedChannel n i => exact hpush _
  | asked g a => exact getElem?_asked (by simpa [concerned?] using he) a c
  | attached r i =>
    exact getElem?_atLink fun s l => getElem?_setSide (by simpa [concerned?] using he) s _ c
  | heard r s => cases s <;> exact getElem?_writeLink (by simpa [concerned?] using he) _ _ c
  | resumed s =>
    by_cases hs : ∃ k, s = .cancelProducer k
    · obtain ⟨k, rfl⟩ := hs
      exact getElem?_atLink fun s l => getElem?_setSide (by simpa [concerned?] using he) s _ c
    · have hsame : (c.step s).1.streams = c.streams := streams_step (fun k hk => hs ⟨k, hk⟩) c
      rw [react, hsame]
  | copied | released => rfl

/-! ## Events that concern a link -/

theorem link?_setLink (hs : c.streams[j]? = some s) (l : Link) :
    (c.setSide j s (.channel l)).link? j = some (s.interaction, l) := by
  rw [link?_setSide hs, if_pos rfl]
  rfl

theorem link?_writeLink (hs : c.streams[j]? = some s) (hl : s.side = .channel l)
    (d : UInt32 → Link → Link × Option Frame) (o : UInt32 → Fault → List (Call Step)) :
    (c.writeLink j d o).1.link? j = some (s.interaction, (d s.id l).1) := by
  rw [link?_congr (streams_writeLink hs hl d o), link?_setLink hs]

theorem asked_cancel (hs : c.streams[j]? = some s) (hl : s.side = .channel l) :
    c.asked j .cancel =
      (c.setSide j s (.channel l.cancelInbound.1),
        if l.inboundDone then []
        else .resume (.detach s.id) :: if l.opened then [.resume (.writeCancel s.id)] else []) := by
  simp only [asked, atStream, hs, hl, Link.cancelInbound]
  cases l.inboundDone <;> rfl

theorem asked_request (hs : c.streams[j]? = some s) (hl : s.side = .channel l) (n : Nat) :
    c.asked j (.request n) = c.writeLink j (fun id => Link.grant id n) failStream := by
  simp only [asked, atStream, hs, hl]

theorem attached_eq (hs : c.streams[j]? = some s) (hl : s.side = .channel l) :
    c.attached j = (c.setSide j s (.channel l.attach.1), [.ask s.interaction l.attach.2]) := by
  simp only [attached, atLink, atStream, hs, hl]

theorem cancelProducer_eq (hs : c.streams[j]? = some s) (hl : s.side = .channel l) :
    c.step (.cancelProducer j) =
      (c.setSide j s (.channel l.cancelOutbound.1),
        if l.attached then [.ask s.interaction .cancel] else []) := by
  simp only [step, atLink, atStream, hs, hl]
  rfl

/-- **What an event makes of the link that it concerns.** -/
theorem link?_react_of_input (hs : c.streams[j]? = some s) (hl : s.side = .channel l)
    (hx : Link.input? j e = some x) :
    (c.react e).1.link? j = some (s.interaction, (l.take s.id x).1) := by
  cases Link.brings_of_input? hx with
  | grant g n =>
    rw [react, asked_request hs hl, link?_writeLink hs hl]
    rfl
  | cancel g =>
    rw [react, asked_cancel hs hl, link?_setLink hs]
    rfl
  | attach r i =>
    rw [react, attached_eq hs hl, link?_setLink hs]
    rfl
  | item | complete | error => exact link?_writeLink hs hl _ _
  | dismiss =>
    rw [react, cancelProducer_eq hs hl, link?_setLink hs]
    rfl

/-- **What is written on an event that concerns a link.** -/
theorem frame?_of_input (hs : c.streams[j]? = some s) (hl : s.side = .channel l)
    (hx : Link.input? j e = some x) :
    c.frame? e = (l.take s.id x).2.map fun f => (some j, f) := by
  have hconcerned := Link.input?_isSome_iff.mp ⟨x, hx⟩
  have hframe := linkFrame?_of_link hconcerned hs hl
  have hlink (he : c.frame? e = (c.linkFrame? e).map fun f => (concerned? e, f))
      (hd : ((decision e).bind fun d => (d s.id l).2) = (l.take s.id x).2) :
      c.frame? e = (l.take s.id x).2.map fun f => (some j, f) := by
    rw [he, hframe, hd, hconcerned]
  cases Link.brings_of_input? hx with
  | grant | item | complete | error => exact hlink rfl rfl
  | cancel | attach | dismiss => rfl

/-- **The step by which the peer is told that the consumer has canceled** is left to be done when
the consumer cancels an open channel, and not again. -/
theorem count_writeCancel (hs : c.streams[j]? = some s) (hl : s.side = .channel l)
    (hown : .resume (.writeCancel s.id) ∈ (c.react e).2 →
      ∃ g, e = .asked g .cancel ∧ g.stream = j) :
    ((c.react e).2.filterMap Call.step?).count (.writeCancel s.id) =
      if Link.input? j e = some .cancel ∧ l.inboundDone = false ∧ l.opened = true then 1
      else 0 := by
  by_cases hcancel : ∃ g, e = .asked g .cancel ∧ g.stream = j
  · obtain ⟨g, rfl, rfl⟩ := hcancel
    rw [react, asked_cancel hs hl]
    cases l.inboundDone <;> cases l.opened <;> simp [Call.step?, Link.input?]
  · have hne : Link.input? j e ≠ some .cancel := by
      intro hx
      cases Link.brings_of_input? hx with
      | cancel g => exact hcancel ⟨g, rfl, rfl⟩
    rw [if_neg (fun h => hne h.1), List.count_eq_zero]
    exact fun hmem => hcancel (hown (Call.mem_filterMap_step?.mp hmem))

end Connection

/-! ## What was to be written on a stream -/

namespace Chronicle

open Connection (Attempt)

variable {r : Chronicle} {e : Event Step} {id : UInt32} {j : Nat} {l : Label} {x : Link.Input}
  {link : Link}

/-- What was to be written on a stream, in order. -/
def framesOn (id : UInt32) (r : Chronicle) : List Frame :=
  onStream id (r.attempts.map Attempt.frame)

theorem framesOn_react (e : Event Step) (r : Chronicle) (id : UInt32) :
    (r.react e).1.framesOn id =
      r.framesOn id ++ onStream id ((r.connection.attempt? e).toList.map Attempt.frame) := by
  rw [framesOn, react, List.map_append, onStream_append, framesOn]

theorem map_frame_attempt? (e : Event Step) (c : Connection) :
    (c.attempt? e).toList.map Attempt.frame = (c.frame? e).toList.map Prod.snd := by
  rw [Connection.attempt?]
  cases c.frame? e <;> rfl

/-- If all frames were accepted, what was to be written on a stream is on the wire. -/
theorem Faithful.onStream_written (h : r.Faithful)
    (haccepted : ∀ a ∈ r.attempts, a.frame.stream = id → a.isRefused = false) :
    onStream id r.connection.written = r.framesOn id := by
  rw [h.written, framesOn]
  generalize r.attempts = as at haccepted
  induction as with
  | nil => rfl
  | cons a as ih =>
    have ih := ih fun a ha => haccepted a (List.mem_cons_of_mem _ ha)
    have ha := haccepted a List.mem_cons_self
    unfold onStream at ih ⊢
    rw [List.map_cons, List.filter_cons, List.filterMap_cons]
    by_cases hid : a.frame.stream = id
    · have hwritten : a.written? = some a.frame := by
        have hnone : a.fault = none := by simpa [Attempt.isRefused] using ha hid
        rw [Attempt.written?, hnone]
      rw [hwritten, if_pos (beq_iff_eq.mpr hid), List.filter_cons, if_pos (beq_iff_eq.mpr hid), ih]
    · rw [if_neg (by simpa using hid)]
      cases hwritten : a.written? with
      | none => exact ih
      | some f =>
        obtain rfl : f = a.frame := by
          unfold Attempt.written? at hwritten
          split at hwritten <;> cases hwritten
          rfl
        rw [List.filter_cons, if_neg (by simpa using hid), ih]

/-- What a link decides on is written on its stream. -/
theorem framesOn_react_of_input {s : Stream} (hs : r.connection.streams[j]? = some s)
    (hl : s.side = .channel link) (hx : Link.input? j e = some x) :
    (r.react e).1.framesOn s.id = r.framesOn s.id ++ (link.take s.id x).2.toList := by
  rw [framesOn_react, map_frame_attempt?, Connection.frame?_of_input hs hl hx]
  have hmap : ((link.take s.id x).2.map fun f => (some j, f)).toList.map Prod.snd =
      (link.take s.id x).2.toList := by
    cases (link.take s.id x).2 <;> rfl
  rw [hmap, onStream_eq_self fun f hf => ?_]
  cases Link.writes_of_take (Option.mem_toList.mp hf) <;> rfl

/-- On other events nothing is written on its stream but that its consumer has canceled. -/
theorem framesOn_react_of_none (hl : r.connection.labels[j]? = some l)
    (hunshared : r.connection.Unshared j) (hx : Link.input? j e = none)
    (hsteps : ∀ s f, e = .resumed s → s.frame? = some f → f.stream = l.id → s = .writeCancel l.id) :
    (r.react e).1.framesOn l.id = r.framesOn l.id ++
      List.replicate (e.step?.toList.count (.writeCancel l.id)) (.cancel l.id) := by
  rw [framesOn_react, map_frame_attempt?]
  congr 1
  by_cases hcancel : e = .resumed (.writeCancel l.id)
  · subst hcancel
    have hframe :
        r.connection.frame? (.resumed (.writeCancel l.id)) = some (none, .cancel l.id) := rfl
    rw [hframe]
    simp [onStream, Frame.stream, Event.step?]
  · rw [Event.count_step?_eq_zero hcancel, List.replicate_zero]
    refine onStream_eq_nil fun f hf hid => ?_
    obtain ⟨⟨k, f'⟩, hframe, rfl⟩ := List.mem_map.mp hf
    obtain ⟨-, s, rfl, hs⟩ | ⟨j', l', -, hconcerned, hl', -, hid'⟩ :=
      Connection.frame?_cases (Option.mem_toList.mp hframe)
    · exact hcancel (congrArg _ (hsteps s f' rfl hs hid))
    · obtain rfl := hunshared j' l l' hl hl' (hid'.symm.trans hid)
      obtain ⟨y, hy⟩ := Link.input?_isSome_iff.mpr hconcerned
      rw [hx] at hy
      cases hy

/-- Of a channel with a number of its own only the consumer leaves a step to be done that writes. -/
theorem eq_writeCancel_of_mem (hnum : r.Numbered) (hl : r.connection.labels[j]? = some l)
    (hk : l.kind = .channel) (hex : (r.react e).1.Exclusive l.id) {s : Step} {f : Frame}
    (h : .resume s ∈ (r.react e).2) (hf : s.frame? = some f) (hid : f.stream = l.id) :
    s = .writeCancel l.id ∧ ∃ g, e = .asked g .cancel ∧ g.stream = j := by
  have hkind : l.kind ≠ .detached := by simp [hk]
  have hunshared := hnum.unshared hl hkind (hex.of_react hnum)
  cases Connection.issues_of_mem h hf with
  | @request g a l' _ _ hl' hk' hid' =>
    obtain rfl := hunshared g.stream l l' hl hl' (hid'.symm.trans hid)
    obtain rfl := Option.some.inj (hl.symm.trans hl')
    rw [hk] at hk'
    cases hk'
  | @cancel g l' hl' hk' =>
    have hid' : l'.id = l.id := hid
    exact ⟨by rw [hid'], g, rfl, hunshared g.stream l l' hl hl' hid'⟩
  | message i p =>
    exact absurd hid (hex.ne_nextStream hnum rfl (hnum.mem_handedOut hl hkind))

end Chronicle

/-! ## Following -/

namespace Traffic

variable {t : Traffic} {e : Event Step} {rest : List Step} {j : Nat} {l : Label} {x : Link.Input}

/-- What was to be written on the stream of the channel `j`, and what is left to be done for it, is
what its history asks for. -/
structure Follows (j : Nat) (l : Label) (t : Traffic) : Prop where
  link : t.far.connection.link? j = some (l.interaction, Link.after l.id (t.far.history j))
  frames : (t.far.framesOn l.id).filter (· != .cancel l.id) = Link.frames l.id (t.far.history j)
  cancels : (t.far.framesOn l.id).count (.cancel l.id) + t.todo.count (.writeCancel l.id) =
    if Link.OwesCancel (t.far.history j) then 1 else 0
  todo : ∀ s ∈ t.todo, ∀ f, s.frame? = some f → f.stream = l.id → s = .writeCancel l.id
  /-- What is written first is not that the consumer has canceled. -/
  first : (t.far.framesOn l.id).head? ≠ some (.cancel l.id)
  /-- No demand is written behind that. -/
  behind : (t.far.framesOn l.id).Pairwise fun f g => f = .cancel l.id → ∀ n, g ≠ .requestN l.id n

theorem Follows.cancel_not_mem (h : t.Follows j l) (hno : ¬ Link.OwesCancel (t.far.history j)) :
    .cancel l.id ∉ t.far.framesOn l.id := by
  have hzero := h.cancels
  rw [if_neg hno] at hzero
  exact List.count_eq_zero.mp (by omega)

/-- No item has gone out until something is written. -/
theorem Follows.items_eq_nil (h : t.Follows j l) (hnone : t.far.framesOn l.id = []) :
    Link.items (t.far.history j) = [] := by
  have hframes := h.frames
  rw [hnone, List.filter_nil] at hframes
  rw [← Link.filterMap_item?_frames l.id, ← hframes]
  rfl

/-- The peer is told only of an open channel. -/
theorem Follows.count_eq_zero (h : t.Follows j l) (hnone : t.far.framesOn l.id = []) :
    t.todo.count (.writeCancel l.id) = 0 := by
  have hcancels := h.cancels
  rw [if_neg fun howes => Link.items_ne_nil_of_owesCancel howes (h.items_eq_nil hnone)] at hcancels
  omega

/-- The stream object of a channel that follows its history. -/
theorem Follows.exists_stream (h : t.Follows j l) (hl : t.far.connection.labels[j]? = some l) :
    ∃ s, t.far.connection.streams[j]? = some s ∧ s.id = l.id ∧ s.interaction = l.interaction ∧
      s.side = .channel (Link.after l.id (t.far.history j)) := by
  obtain ⟨s, hs, hi, hside⟩ := Connection.link?_eq_some.mp h.link
  rw [Connection.getElem?_labels, hs] at hl
  obtain rfl := Option.some.inj hl
  exact ⟨s, hs, rfl, rfl, hside⟩

section Tell

variable (hsound : t.Sound) (htells : t.Tells e rest) (hl : t.far.connection.labels[j]? = some l)
  (hk : l.kind = .channel) (hex : (t.far.react e).1.Exclusive l.id) (h : t.Follows j l)
include hsound htells hl hk hex h

theorem Follows.todo_tell : ∀ s ∈ (t.tell e rest).todo, ∀ f, s.frame? = some f →
    f.stream = l.id → s = .writeCancel l.id := by
  intro s hs f hf hid
  rcases List.mem_append.mp hs with hs | hs
  · exact h.todo s (htells.subset s hs) f hf hid
  · exact (Chronicle.eq_writeCancel_of_mem hsound.numbered hl hk hex
      (Call.mem_filterMap_step?.mp hs) hf hid).1

/-- How often it is left to be done that the peer is told. -/
theorem Follows.count_tell :
    (t.tell e rest).todo.count (.writeCancel l.id) + e.step?.toList.count (.writeCancel l.id) =
      t.todo.count (.writeCancel l.id) +
        if Link.input? j e = some .cancel ∧ .cancel ∉ t.far.history j ∧
          Link.items (t.far.history j) ≠ [] then 1 else 0 := by
  obtain ⟨s, hs, hid, -, hside⟩ := h.exists_stream hl
  have hnew := Connection.count_writeCancel (e := e) hs hside fun hmem => by
    rw [hid] at hmem
    exact (Chronicle.eq_writeCancel_of_mem hsound.numbered hl hk hex hmem rfl rfl).2
  have hiff : (Link.input? j e = some .cancel ∧
      (Link.after l.id (t.far.history j)).inboundDone = false ∧
      (Link.after l.id (t.far.history j)).opened = true) ↔
      Link.input? j e = some .cancel ∧ .cancel ∉ t.far.history j ∧
        Link.items (t.far.history j) ≠ [] := by
    rw [← Bool.not_eq_true, Link.after_inboundDone, Link.after_opened]
    simp
  rw [hid] at hnew
  simp only [hiff] at hnew
  have hcount := htells.count (.writeCancel l.id) rfl
  have hcalls : (t.far.react e).2 = (t.far.connection.react e).2 := rfl
  rw [tell, List.count_append, hcalls, hnew]
  omega

/-- An event that is nothing to the link. -/
theorem Follows.tell_of_none (hx : Link.input? j e = none) : (t.tell e rest).Follows j l := by
  have hkind : l.kind ≠ .detached := by simp [hk]
  have hunshared := hsound.numbered.unshared hl hkind (hex.of_react hsound.numbered)
  have hhistory : (t.tell e rest).far.history j = t.far.history j := by
    rw [tell, Chronicle.history_react, hx]
    exact List.append_nil _
  have hframes : (t.tell e rest).far.framesOn l.id = _ :=
    Chronicle.framesOn_react_of_none hl hunshared hx fun s f hs hf hid => by
      subst hs
      have hpos : 0 < t.todo.count s := by
        rw [← htells.count s (by rw [hf]; rfl)]
        simp [Event.step?]
      exact h.todo s (List.count_pos_iff.mp hpos) f hf hid
  have hcount := h.count_tell hsound htells hl hk hex
  rw [hx, if_neg (by simp)] at hcount
  refine ⟨?_, ?_, ?_, h.todo_tell hsound htells hl hk hex, ?_, ?_⟩
  · have hj : j < t.far.connection.streams.size := by
      rw [← Connection.length_labels]
      exact (List.getElem?_eq_some_iff.mp hl).1
    have hother : concerned? e ≠ some j := by
      intro hconcerned
      obtain ⟨y, hy⟩ := Link.input?_isSome_iff.mpr hconcerned
      rw [hx] at hy
      cases hy
    rw [hhistory, ← h.link, Connection.link?, Connection.link?]
    exact congrArg (Option.bind · Stream.link?) (Connection.getElem?_streams_react hother hj)
  · rw [hhistory, hframes, List.filter_append, h.frames]
    simp
  · rw [hhistory, hframes, List.count_append, List.count_replicate_self, ← h.cancels]
    omega
  · rw [hframes]
    refine head?_append_ne h.first fun hold => ?_
    have hnone : e.step?.toList.count (.writeCancel l.id) = 0 := by
      have hzero := h.count_eq_zero hold
      omega
    rw [hnone]
    simp
  · rw [hframes, List.pairwise_append]
    refine ⟨h.behind, ?_, fun f _ g hg _ n => ?_⟩
    · exact List.pairwise_of_forall_mem_list fun f hf g hg _ n => by
        rw [List.eq_of_mem_replicate hg]
        simp
    · rw [List.eq_of_mem_replicate hg]
      simp

/-- An event that is something to the link. -/
theorem Follows.tell_of_some (hx : Link.input? j e = some x) : (t.tell e rest).Follows j l := by
  obtain ⟨s, hs, hid, hi, hside⟩ := h.exists_stream hl
  have hhistory : (t.tell e rest).far.history j = t.far.history j ++ [x] := by
    rw [tell, Chronicle.history_react, hx]
    rfl
  have hframes := Chronicle.framesOn_react_of_input hs hside hx
  rw [hid] at hframes
  have hwrites {f : Frame} (hf : f ∈ ((Link.after l.id (t.far.history j)).take l.id x).2.toList) :=
    Link.writes_of_take (Option.mem_toList.mp hf)
  have hno : .cancel l.id ∉ ((Link.after l.id (t.far.history j)).take l.id x).2.toList :=
    fun hf => by cases hwrites hf
  have hstep : e.step?.toList.count (.writeCancel l.id) = 0 :=
    Event.count_step?_eq_zero fun heq => by
      subst heq
      cases hx
  have hcount := h.count_tell hsound htells hl hk hex
  refine ⟨?_, ?_, ?_, h.todo_tell hsound htells hl hk hex, ?_, ?_⟩
  · have hlink := Connection.link?_react_of_input hs hside hx
    rw [hid] at hlink
    rw [hhistory, Link.after_concat, ← hi]
    exact hlink
  · rw [hhistory, tell, hframes, List.filter_append, h.frames, Link.frames_concat]
    congr 1
    refine List.filter_eq_self.mpr fun f hf => ?_
    simpa using fun heq : f = .cancel l.id => hno (heq ▸ hf)
  · have howes := Link.owesCancel_concat (t.far.history j) x
    have hcancels := h.cancels
    rw [hstep, hx] at hcount
    rw [hhistory]
    simp only [howes]
    show ((t.far.react e).1.framesOn l.id).count (.cancel l.id) + _ = _
    rw [hframes, List.count_append, List.count_eq_zero.mpr hno]
    by_cases hc : .cancel ∈ t.far.history j
    · simp only [hc, not_true_eq_false, false_and, and_false, if_false, or_false] at hcount ⊢
      omega
    · have hnot : ¬ Link.OwesCancel (t.far.history j) := fun howes => hc howes.1
      simp only [hc, not_false_eq_true, true_and, Option.some.injEq, hnot, false_or,
        if_false] at hcount hcancels ⊢
      omega
  · show ((t.far.react e).1.framesOn l.id).head? ≠ _
    rw [hframes]
    exact head?_append_ne h.first fun _ hhead => hno (List.mem_of_mem_head? hhead)
  · show ((t.far.react e).1.framesOn l.id).Pairwise _
    rw [hframes, List.pairwise_append]
    refine ⟨h.behind, ?_, fun f hf g hg hcancel n hgn => ?_⟩
    · cases ((Link.after l.id (t.far.history j)).take l.id x).2 <;> simp
    · subst hcancel hgn
      cases hwrites hg with
      | requestN hin =>
        rw [← Bool.not_eq_true, Link.after_inboundDone] at hin
        exact h.cancel_not_mem (fun howes => hin howes.1) hf

theorem Follows.tell : (t.tell e rest).Follows j l := by
  cases hx : Link.input? j e with
  | none => exact h.tell_of_none hsound htells hl hk hex hx
  | some x => exact h.tell_of_some hsound htells hl hk hex hx

end Tell

/-- Nothing was to be written on a stream that has just been opened, and no step is left to be done
that writes on it. -/
theorem untouched_of_new (hsound : t.Sound) (htells : t.Tells e rest)
    (hnew : t.far.connection.newLabel? e = some l) (hk : l.kind ≠ .detached)
    (hex : (t.far.react e).1.Exclusive l.id) :
    (t.tell e rest).far.framesOn l.id = [] ∧
      ∀ s ∈ (t.tell e rest).todo, ∀ f, s.frame? = some f → f.stream ≠ l.id := by
  have hopens : l.id = t.far.connection.nextStream ∧ allots e = true ∧
      t.far.connection.attempt? e = none ∧ ∀ s f, ¬ t.far.connection.Issues e s f := by
    cases e with
    | opened n kind p i =>
      cases kind with
      | fireAndForget =>
        cases hnew
        exact absurd rfl hk
      | requestResponse | requestStream | requestSubscription =>
        cases hnew
        exact ⟨rfl, rfl, rfl, fun s f h => by cases h⟩
    | openedChannel n i =>
      cases hnew
      exact ⟨rfl, rfl, rfl, fun s f h => by cases h⟩
    | asked | attached | heard | copied | released | resumed => cases hnew
  obtain ⟨hid, hallots, hattempt, hissues⟩ := hopens
  -- no frame and no step can have the number that is handed out only now
  have hfresh : l.id ∉ t.far.handedOut := fun hmem =>
    hex.ne_nextStream hsound.numbered hallots hmem hid.symm
  constructor
  · rw [tell, Chronicle.framesOn_react, hattempt, List.append_eq_nil_iff]
    refine ⟨onStream_eq_nil fun f hf hstream => ?_, rfl⟩
    obtain ⟨a, ha, rfl⟩ := List.mem_map.mp hf
    exact hfresh (hstream ▸ hsound.attempts a ha)
  · intro s hs f hf hstream
    rcases List.mem_append.mp hs with hs | hs
    · exact hfresh (hstream ▸ (hsound.todo s (htells.subset s hs)).stream f hf)
    · exact hissues s f (Connection.issues_of_mem (Call.mem_filterMap_step?.mp hs) hf)

/-- A channel that has just been opened. -/
theorem follows_of_new (hsound : t.Sound) (htells : t.Tells e rest)
    (hnew : t.far.connection.newLabel? e = some l) (hk : l.kind = .channel)
    (hex : (t.far.react e).1.Exclusive l.id) :
    (t.tell e rest).Follows t.far.connection.labels.length l := by
  obtain ⟨hframes, htodo⟩ := untouched_of_new hsound htells hnew (by simp [hk]) hex
  obtain ⟨n, i, rfl⟩ : ∃ n i, e = .openedChannel n i := by
    cases e with
    | openedChannel n i => exact ⟨n, i, rfl⟩
    | opened n kind p i => cases kind <;> (cases hnew; cases hk)
    | asked | attached | heard | copied | released | resumed => cases hnew
  cases hnew
  have hhistory :
      (t.tell (.openedChannel n i) rest).far.history t.far.connection.labels.length = [] := by
    rw [tell, Chronicle.history_react, List.append_eq_nil_iff]
    refine ⟨List.filterMap_eq_nil_iff.mpr fun e he => ?_, rfl⟩
    by_contra hne
    have hlt := hsound.told e he _ (Link.input?_isSome_iff.mp (Option.ne_none_iff_exists'.mp hne))
    exact absurd hlt (Nat.lt_irrefl _)
  refine ⟨?_, ?_, ?_, fun s hs f hf hid => absurd hid (htodo s hs f hf), ?_, ?_⟩
  · rw [hhistory, Link.after_nil, Connection.length_labels]
    exact (Connection.link?_push _ _ _).trans (if_pos rfl)
  · rw [hhistory, hframes]
    rfl
  · have hcount : (t.tell (.openedChannel n i) rest).todo.count
        (.writeCancel t.far.connection.nextStream) = 0 :=
      List.count_eq_zero.mpr fun hmem => htodo _ hmem _ rfl rfl
    rw [hhistory, hframes, hcount]
    rfl
  · rw [hframes]
    simp
  · rw [hframes]
    exact List.Pairwise.nil

/-- **A link stands where its history has brought it**, and what was to be written on its stream is
what its history asks for, if the number of the stream was handed out once. -/
theorem follows_of_run (h : Run {} t) (hl : t.far.connection.labels[j]? = some l)
    (hk : l.kind = .channel) (hex : t.far.Exclusive l.id) : t.Follows j l := by
  refine (run_induction (P := fun t => ∀ j l, t.far.connection.labels[j]? = some l →
    l.kind = .channel → t.far.Exclusive l.id → t.Follows j l) h (by rintro j l ⟨⟩)
    (fun {t e rest} hsound htells ih j l hl hk hex => ?_)
    fun {t} cause _ ih j l hl hk hex => ?_).2 j l hl hk hex
  · rcases Connection.getElem?_labels_react hl with hold | ⟨hnew, rfl⟩
    · exact (ih j l hold hk (hex.of_react hsound.numbered)).tell hsound htells hold hk hex
    · exact follows_of_new hsound htells hnew hk hex
  · have hfollows := ih j l hl hk hex
    exact ⟨hfollows.link, hfollows.frames, hfollows.cancels, hfollows.todo, hfollows.first,
      hfollows.behind⟩

end Traffic
end Client
end StreamConformance
