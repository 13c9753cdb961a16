import StreamConformance.Proofs.Channel.Handles
import StreamConformance.Proofs.Client.Routes

/-!
# What an event changes of a connection

Stream objects are added one after another and never removed.  What one of them is may change, but
not its stream, its interaction and whether it is a request or a channel: that is its `Label`.

Most events change nothing else of a connection than what a stream object is and what is written
(`Connection.Agrees`).  For the others this file says what they change.

* `Connection.labels_react`: the list of labels grows at its end, when a stream is opened.
* `Connection.nextStream_react`, `Connection.closed_react`: numbers are handed out in steps of two,
  and a connection that was closed stays so.
* `Connection.routes_react`: what becomes of the route table.
-/

namespace StreamConformance
namespace Client

open Wire (Frame)

/-- What a stream object can be. -/
inductive Side.Kind where
  | request
  | channel
  | detached
  deriving DecidableEq

/-- What a stream object is, but for where it stands. -/
def Side.kind : Side → Side.Kind
  | .request _ => .request
  | .channel _ => .channel
  | .detached => .detached

/-- What of a stream object never changes. -/
structure Label where
  id : UInt32
  interaction : Nat
  kind : Side.Kind
  deriving DecidableEq

/-- What of a stream object never changes. -/
def Stream.label (s : Stream) : Label where
  id := s.id
  interaction := s.interaction
  kind := s.side.kind

/-- The route of a stream object when it is entered into the table. -/
def Label.route (j : Nat) (l : Label) : Route where
  inbound := some l.interaction
  outbound := if l.kind = .channel then some j else none

/-- A number is handed out on this event. -/
def allots : Event Step → Bool
  | .opened _ .fireAndForget _ _ => false
  | .opened .. => true
  | .openedChannel .. => true
  | .resumed (.post ..) => true
  | _ => false

/-- The reader finds the connection ended. -/
def closes : Event Step → Bool
  | .resumed (.close _) => true
  | _ => false

namespace Connection

variable {c : Connection} {i j : Nat} {e : Event Step}

/-- The labels of the stream objects, in the order in which these were added. -/
def labels (c : Connection) : List Label :=
  c.streams.toList.map Stream.label

theorem getElem?_labels (c : Connection) (j : Nat) :
    c.labels[j]? = (c.streams[j]?).map Stream.label := by
  rw [labels, List.getElem?_map, Array.getElem?_toList]

theorem length_labels (c : Connection) : c.labels.length = c.streams.size := by
  rw [labels, List.length_map, Array.length_toList]

theorem labels_congr {c' : Connection} (h : c'.streams = c.streams) : c'.labels = c.labels := by
  rw [labels, h, labels]

/-- A link is the side of a channel. -/
theorem exists_label_of_serves (h : c.Serves i j) :
    ∃ l, c.labels[j]? = some l ∧ l.interaction = i ∧ l.kind = .channel := by
  obtain ⟨l, hl⟩ := h
  obtain ⟨s, hs, rfl, hside⟩ := link?_eq_some.mp hl
  refine ⟨s.label, by rw [getElem?_labels, hs]; rfl, rfl, ?_⟩
  rw [Stream.label, hside]
  rfl

theorem serves_of_label {l : Label} (h : c.labels[j]? = some l) (hk : l.kind = .channel) :
    c.Serves l.interaction j := by
  rw [getElem?_labels, Option.map_eq_some_iff] at h
  obtain ⟨⟨id, i, side⟩, hs, rfl⟩ := h
  cases side with
  | channel l => exact ⟨l, link?_of_side hs rfl⟩
  | request | detached => cases hk

/-- What a stream object is has changed, but not its label. -/
theorem labels_setSide {s : Stream} {side : Side} (hs : c.streams[j]? = some s)
    (hk : side.kind = s.side.kind) : (c.setSide j s side).labels = c.labels := by
  have hlabel : ({ s with side := side } : Stream).label = s.label := by
    rw [Stream.label, hk, Stream.label]
  refine List.ext_getElem? fun k => ?_
  rw [getElem?_labels, getElem?_labels, setSide, Array.getElem?_setIfInBounds]
  by_cases hjk : j = k
  · subst hjk
    obtain ⟨hj, -⟩ := Array.getElem?_eq_some_iff.mp hs
    rw [if_pos rfl, if_pos hj, hs, Option.map_some, Option.map_some, hlabel]
  · rw [if_neg hjk]

/-! ## Events that change nothing else -/

/-- But for what the stream objects are and for what is written, and unless the connection fails,
the connections are the same. -/
structure Agrees (c c' : Connection) : Prop where
  number : c'.number = c.number
  nextStream : c'.nextStream = c.nextStream
  labels : c'.labels = c.labels
  routes : c'.routes = c.routes
  closed : c'.closed = c.closed

theorem Agrees.refl (c : Connection) : c.Agrees c :=
  ⟨rfl, rfl, rfl, rfl, rfl⟩

theorem Agrees.trans {c' c'' : Connection} (h : c.Agrees c') (h' : c'.Agrees c'') : c.Agrees c'' :=
  ⟨h'.number.trans h.number, h'.nextStream.trans h.nextStream, h'.labels.trans h.labels,
    h'.routes.trans h.routes, h'.closed.trans h.closed⟩

theorem agrees_setSide {s : Stream} {side : Side} (hs : c.streams[j]? = some s)
    (hk : side.kind = s.side.kind) : c.Agrees (c.setSide j s side) :=
  ⟨rfl, rfl, labels_setSide hs hk, rfl, rfl⟩

theorem agrees_sendOr (f : Frame) (o : Fault → List (Call Step)) (c : Connection) :
    c.Agrees (c.sendOr f o).1 := by
  rw [sendOr_eq]
  split
  · exact ⟨rfl, rfl, rfl, rfl, rfl⟩
  · exact .refl c

theorem agrees_atStream {f : Stream → Connection → Result}
    (hf : ∀ s, c.streams[j]? = some s → c.Agrees (f s c).1) : c.Agrees (c.atStream j f).1 := by
  unfold atStream
  split
  · exact .refl c
  · exact hf _ ‹_›

theorem agrees_atLink {f : Stream → Link → Connection → Result}
    (hf : ∀ s l, c.streams[j]? = some s → s.side = .channel l → c.Agrees (f s l c).1) :
    c.Agrees (c.atLink j f).1 := by
  refine agrees_atStream fun s hs => ?_
  split
  · exact hf s _ hs ‹_›
  · exact .refl c

/-- A section of a link that makes another link of it. -/
theorem agrees_setLink {s : Stream} {l l' : Link} (hs : c.streams[j]? = some s)
    (hl : s.side = .channel l) : c.Agrees (c.setSide j s (.channel l')) :=
  agrees_setSide hs (by rw [hl]; rfl)

theorem agrees_writeLink (j : Nat) (d : UInt32 → Link → Link × Option Frame)
    (o : UInt32 → Fault → List (Call Step)) (c : Connection) :
    c.Agrees (c.writeLink j d o).1 := by
  refine agrees_atLink fun s l hs hl => ?_
  split
  · exact agrees_setLink hs hl
  · exact (agrees_setLink hs hl).trans (agrees_sendOr ..)

theorem agrees_asked (j : Nat) (a : Ask) (c : Connection) : c.Agrees (c.asked j a).1 := by
  refine agrees_atStream fun s hs => ?_
  split
  · rename_i r n hr
    exact agrees_setSide hs (by rw [hr]; rfl)
  · rename_i r hr
    exact agrees_setSide hs (by rw [hr]; rfl)
  · exact agrees_writeLink ..
  · rename_i l hl
    split <;> exact agrees_setLink hs hl
  · exact .refl c

theorem agrees_attached (j : Nat) (c : Connection) : c.Agrees (c.attached j).1 :=
  agrees_atLink fun _ _ hs hl => agrees_setLink hs hl

theorem agrees_heard (j : Nat) (s : Signal Payload) (c : Connection) :
    c.Agrees (c.heard j s).1 := by
  cases s <;> exact agrees_writeLink ..

theorem agrees_writeMessage (i : Nat) (f : Frame) (c : Connection) :
    c.Agrees (c.step (.writeMessage i f)).1 := by
  rw [step, send_eq]
  cases c.refusal? f with
  | none => exact ⟨rfl, rfl, rfl, rfl, rfl⟩
  | some fault => exact .refl c

theorem agrees_cancelProducer (j : Nat) (c : Connection) :
    c.Agrees (c.step (.cancelProducer j)).1 :=
  agrees_atLink fun _ _ hs hl => agrees_setLink hs hl

theorem agrees_askProducer (j n : Nat) (c : Connection) :
    c.Agrees (c.step (.askProducer j n)).1 :=
  agrees_atLink fun _ _ _ _ => .refl c

/-! ## Labels -/

/-- The label of the stream object that is added on an event. -/
def newLabel? (e : Event Step) (c : Connection) : Option Label :=
  match e with
  | .opened _ .fireAndForget _ i => some { id := 0, interaction := i, kind := .detached }
  | .opened _ _ _ i => some { id := c.nextStream, interaction := i, kind := .request }
  | .openedChannel _ i => some { id := c.nextStream, interaction := i, kind := .channel }
  | _ => none

theorem labels_push (s : Stream) (id : UInt32) (c : Connection) :
    ({ c with nextStream := id, streams := c.streams.push s } : Connection).labels =
      c.labels ++ [s.label] := by
  rw [labels, Array.toList_push, List.map_append, labels]
  rfl

theorem labels_step (s : Step) (c : Connection) : (c.step s).1.labels = c.labels := by
  by_cases hs : ∃ k, s = .cancelProducer k
  · obtain ⟨k, rfl⟩ := hs
    exact (agrees_cancelProducer k c).labels
  · exact labels_congr (streams_step (fun k hk => hs ⟨k, hk⟩) c)

/-- **Stream objects are added at the end, and keep their labels.** -/
theorem labels_react (e : Event Step) (c : Connection) :
    (c.react e).1.labels = c.labels ++ (c.newLabel? e).toList := by
  cases e with
  | opened n kind p i => cases kind <;> exact labels_push _ _ c
  | openedChannel n i => exact labels_push _ _ c
  | asked h a => exact (agrees_asked h.stream a c).labels.trans (List.append_nil _).symm
  | attached r i => exact (agrees_attached r.stream c).labels.trans (List.append_nil _).symm
  | heard r s => exact (agrees_heard r.stream s c).labels.trans (List.append_nil _).symm
  | resumed s => exact (labels_step s c).trans (List.append_nil _).symm
  | copied | released => exact (List.append_nil _).symm

/-- A stream object keeps its label. -/
theorem label_react {l : Label} (h : c.labels[j]? = some l) (e : Event Step) :
    (c.react e).1.labels[j]? = some l := by
  rw [labels_react, List.getElem?_append_left (List.getElem?_eq_some_iff.mp h).1, h]

/-- A stream object that is there after an event was there before, or was added by it. -/
theorem label_or_new {l : Label} (h : (c.react e).1.labels[j]? = some l) :
    c.labels[j]? = some l ∨ c.newLabel? e = some l := by
  rw [labels_react, List.getElem?_append] at h
  split at h
  · exact Or.inl h
  · exact Or.inr (Option.mem_toList.mp (List.mem_of_getElem? h))

/-! ## Numbers, and the end -/

theorem nextStream_step (s : Step) (c : Connection) :
    (c.step s).1.nextStream = c.nextStream + if allots (.resumed s) then 2 else 0 := by
  have hsame {c' : Connection} (h : c.Agrees c') : c'.nextStream = c.nextStream + 0 :=
    h.nextStream.trans (UInt32.add_zero _).symm
  cases s with
  | register k =>
    show (c.atStream k _).1.nextStream = c.nextStream + 0
    rw [UInt32.add_zero]
    unfold atStream
    split <;> rfl
  | write f => exact hsame (agrees_sendOr ..)
  | writeCancel id => exact hsame (agrees_sendOr ..)
  | writeMessage i f => exact hsame (agrees_writeMessage i f c)
  | receive f => cases f <;> exact (UInt32.add_zero _).symm
  | cancelProducer k => exact hsame (agrees_cancelProducer k c)
  | askProducer k n => exact hsame (agrees_askProducer k n c)
  | post i p => rfl
  | detach | fail | detachLink | close | drain => exact (UInt32.add_zero _).symm

/-- **Numbers are handed out in steps of two.** -/
theorem nextStream_react (e : Event Step) (c : Connection) :
    (c.react e).1.nextStream = c.nextStream + if allots e then 2 else 0 := by
  have hsame {c' : Connection} (h : c.Agrees c') : c'.nextStream = c.nextStream + 0 :=
    h.nextStream.trans (UInt32.add_zero _).symm
  cases e with
  | opened n kind p i =>
    cases kind with
    | fireAndForget => exact (UInt32.add_zero _).symm
    | requestResponse | requestStream | requestSubscription => rfl
  | openedChannel n i => rfl
  | asked h a => exact hsame (agrees_asked h.stream a c)
  | attached r i => exact hsame (agrees_attached r.stream c)
  | heard r s => exact hsame (agrees_heard r.stream s c)
  | resumed s => exact nextStream_step s c
  | copied | released => exact (UInt32.add_zero _).symm

theorem closed_step (s : Step) (c : Connection) :
    (c.step s).1.closed = (c.closed || closes (.resumed s)) := by
  have hsame {c' : Connection} (h : c.Agrees c') : c'.closed = (c.closed || false) :=
    h.closed.trans (Bool.or_false _).symm
  cases s with
  | register k =>
    show (c.atStream k _).1.closed = (c.closed || false)
    rw [Bool.or_false]
    unfold atStream
    split <;> rfl
  | write f => exact hsame (agrees_sendOr ..)
  | writeCancel id => exact hsame (agrees_sendOr ..)
  | writeMessage i f => exact hsame (agrees_writeMessage i f c)
  | receive f => cases f <;> exact (Bool.or_false _).symm
  | cancelProducer k => exact hsame (agrees_cancelProducer k c)
  | askProducer k n => exact hsame (agrees_askProducer k n c)
  | close reason => exact (Bool.or_true _).symm
  | detach | fail | post | detachLink | drain => exact (Bool.or_false _).symm

/-- **A connection is closed by the reader only, and stays closed.** -/
theorem closed_react (e : Event Step) (c : Connection) :
    (c.react e).1.closed = (c.closed || closes e) := by
  have hsame {c' : Connection} (h : c.Agrees c') : c'.closed = (c.closed || false) :=
    h.closed.trans (Bool.or_false _).symm
  cases e with
  | opened n kind p i => cases kind <;> exact (Bool.or_false _).symm
  | asked h a => exact hsame (agrees_asked h.stream a c)
  | attached r i => exact hsame (agrees_attached r.stream c)
  | heard r s => exact hsame (agrees_heard r.stream s c)
  | resumed s => exact closed_step s c
  | openedChannel | copied | released => exact (Bool.or_false _).symm

/-! ## The route table -/

/-- The table after an event. -/
def routesAfter (e : Event Step) (c : Connection) : Routes :=
  match e with
  | .resumed (.register j) =>
    match c.labels[j]? with
    | none => c.routes
    | some l => c.routes.insert l.id (l.route j)
  | .resumed (.detach id) | .resumed (.fail id _) | .resumed (.receive (.complete id)) |
    .resumed (.receive (.error id _)) => (c.routes.takeInbound id).1
  | .resumed (.detachLink id) => (c.routes.takeOutbound id).1
  | .resumed (.drain _) => {}
  | _ => c.routes

theorem routes_register (j : Nat) (c : Connection) :
    (c.step (.register j)).1.routes = c.routesAfter (.resumed (.register j)) := by
  show (c.atStream j _).1.routes = _
  rw [atStream, routesAfter, getElem?_labels]
  cases c.streams[j]? with
  | none => rfl
  | some s =>
    rcases s with ⟨id, i, r | l | _⟩ <;> rfl

/-- **What becomes of the route table.** -/
theorem routes_react (e : Event Step) (c : Connection) :
    (c.react e).1.routes = c.routesAfter e := by
  cases e with
  | opened n kind p i => cases kind <;> rfl
  | asked h a => exact (agrees_asked h.stream a c).routes
  | attached r i => exact (agrees_attached r.stream c).routes
  | heard r s => exact (agrees_heard r.stream s c).routes
  | openedChannel | copied | released => rfl
  | resumed s =>
    cases s with
    | register j => exact routes_register j c
    | write f => exact (agrees_sendOr ..).routes
    | writeCancel id => exact (agrees_sendOr ..).routes
    | writeMessage i f => exact (agrees_writeMessage i f c).routes
    | receive f => cases f <;> rfl
    | cancelProducer k => exact (agrees_cancelProducer k c).routes
    | askProducer k n => exact (agrees_askProducer k n c).routes
    | detach | fail | post | detachLink | close | drain => rfl

end Connection
end Client
end StreamConformance
