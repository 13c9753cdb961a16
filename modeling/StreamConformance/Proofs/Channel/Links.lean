import StreamConformance.Client.Connection

/-!
# The links of a connection

What happens to the link of a channel is decided by the events that concern it: items, the end of
its producer, the producer's subscription, and the steps with which the reader cancels the
producer.  All other events leave it as it is, whatever else they do to the connection.

* `Link.Becomes`: what an event makes of a link.
* `Connection.link?`: the link of a stream object, and the interaction that it serves.
* `Connection.moves_react`: every event makes of every link what `Link.Becomes` says.
* `Connection.refusal?_eq`: why a frame cannot be written.
-/

namespace StreamConformance

open Wire (Frame)

/-- A frame that opens a channel. -/
def Wire.Frame.isOpening : Frame → Bool
  | .requestChannel .. => true
  | _ => false

/-- The item of a channel that a frame carries. -/
def Wire.Frame.item? : Frame → Option Payload
  | .requestChannel _ _ p => some p
  | .next _ p => some p
  | _ => none

theorem Wire.Frame.isOpening_of_item? {f : Frame} (h : f.item? = none) : f.isOpening = false := by
  cases f <;> first | rfl | cases h

namespace Client

/-! ## What an event is to a link -/

/-- The stream object that an event concerns. -/
def concerned? : Event Step → Option Nat
  | .asked h _ => some h.stream
  | .attached r _ => some r.stream
  | .heard r _ => some r.stream
  | .resumed (.cancelProducer j) => some j
  | _ => none

/-- The item that an event has for the link of the stream object `j`. -/
def item? (j : Nat) : Event Step → Option Payload
  | .heard r (.next p) => if r.stream = j then some p else none
  | _ => none

/-- The end of a producer, as the link of the stream object `j` learns of it. -/
def ends (j : Nat) : Event Step → Bool
  | .heard r s => s.isTerminal && r.stream == j
  | _ => false

/-- The reader cancels the producer of the stream object `j`. -/
def dismisses (j : Nat) : Event Step → Bool
  | .resumed (.cancelProducer k) => k == j
  | _ => false

/-- A producer gives its subscription to the stream object `j`. -/
def attaches (j : Nat) : Event Step → Bool
  | .attached r _ => r.stream == j
  | _ => false

/-- An event that is nothing to the producer's side of the stream object `j`. -/
def IsSilent (j : Nat) (e : Event Step) : Prop :=
  item? j e = none ∧ ends j e = false ∧ dismisses j e = false ∧ attaches j e = false

/-- What an event makes of the link `l` of the stream object `j`. -/
structure Link.Becomes (j : Nat) (e : Event Step) (l l' : Link) : Prop where
  opened : l'.opened = (l.opened || (!l.outboundDone && (item? j e).isSome))
  outboundDone : l'.outboundDone = (l.outboundDone || ends j e || dismisses j e)
  attached : (l.outboundDone = true → l.attached = false) →
    l'.attached = ((l.attached || (!l.outboundDone && attaches j e)) && !(ends j e || dismisses j e))

section Becomes

variable {j : Nat} {e : Event Step} {l : Link}

theorem Link.Becomes.of_isSilent (h : IsSilent j e) : l.Becomes j e l := by
  obtain ⟨hitem, hends, hdismisses, hattaches⟩ := h
  constructor
  · simp [hitem]
  · simp [hends, hdismisses]
  · simp [hends, hdismisses, hattaches]

theorem isSilent_of_not_concerned (h : concerned? e ≠ some j) : IsSilent j e := by
  cases e with
  | attached r i => simpa [IsSilent, item?, ends, dismisses, attaches, concerned?] using h
  | heard r s => cases s <;> simp_all [IsSilent, item?, ends, dismisses, attaches, concerned?]
  | resumed s =>
    cases s <;> simp_all [IsSilent, item?, ends, dismisses, attaches, concerned?]
  | opened | openedChannel | asked | copied | released =>
    simp [IsSilent, item?, ends, dismisses, attaches]

theorem Link.becomes_asked (h : Handle) (a : Ask) {l' : Link} (hopened : l'.opened = l.opened)
    (hdone : l'.outboundDone = l.outboundDone) (hattached : l'.attached = l.attached) :
    l.Becomes j (.asked h a) l' := by
  constructor
  · simp [item?, hopened]
  · simp [ends, dismisses, hdone]
  · simp [ends, dismisses, attaches, hattached]

theorem Link.becomes_attach (r : Handle) (i : Nat) :
    l.Becomes r.stream (.attached r i) l.attach.1 := by
  unfold Link.attach
  constructor <;> cases hd : l.outboundDone <;> cases ha : l.attached <;>
    simp [item?, ends, dismisses, attaches, hd, ha]

theorem Link.becomes_send (r : Handle) (p : Payload) (id : UInt32) :
    l.Becomes r.stream (.heard r (.next p)) (l.send id p).1 := by
  unfold Link.send
  constructor <;> cases hd : l.outboundDone <;> cases ho : l.opened <;>
    simp [item?, ends, dismisses, attaches, Signal.isTerminal, hd, ho]

theorem Link.becomes_finish (r : Handle) {s : Signal Payload} (hs : s.isTerminal = true)
    (id : UInt32) (message : Option String) :
    l.Becomes r.stream (.heard r s) (l.finish id message).1 := by
  have hsends : item? r.stream (.heard r s) = none := by
    cases s with
    | next p => cases hs
    | complete | error => rfl
  unfold Link.finish
  constructor <;> cases hd : l.outboundDone <;>
    simp_all [ends, dismisses, attaches]

theorem Link.becomes_cancelOutbound :
    l.Becomes j (.resumed (.cancelProducer j)) l.cancelOutbound.1 := by
  constructor <;> simp [Link.cancelOutbound, item?, ends, dismisses, attaches]

end Becomes

/-! ## Links in their places -/

/-- The interaction of a stream and its link, if it has one. -/
def Stream.link? (s : Stream) : Option (Nat × Link) :=
  match s.side with
  | .channel l => some (s.interaction, l)
  | _ => none

/-- What an event makes of the link of the stream object `j`, if there is one. -/
inductive Link.Moves (j : Nat) (e : Event Step) :
    Option (Nat × Link) → Option (Nat × Link) → Prop where
  | kept {i : Nat} {l l' : Link} (h : l.Becomes j e l') : Link.Moves j e (some (i, l)) (some (i, l'))
  | absent : Link.Moves j e none none
  | fresh (i : Nat) : Link.Moves j e none (some (i, {}))

theorem Link.Moves.of_not_concerned {j : Nat} {e : Event Step} (h : concerned? e ≠ some j)
    (x : Option (Nat × Link)) : Link.Moves j e x x := by
  cases x with
  | none => exact .absent
  | some x => exact .kept (.of_isSilent (isSilent_of_not_concerned h))

namespace Connection

variable {c : Connection} {i j k : Nat} {l : Link} {e : Event Step}

/-- The interaction and the link of a stream object. -/
def link? (j : Nat) (c : Connection) : Option (Nat × Link) :=
  (c.streams[j]?).bind Stream.link?

/-- The link of a stream object, or the new one that it gets if there is none yet. -/
def linkAt (j : Nat) (c : Connection) : Link :=
  ((c.link? j).map Prod.snd).getD {}

theorem link?_eq_some : c.link? j = some (i, l) ↔
    ∃ s, c.streams[j]? = some s ∧ s.interaction = i ∧ s.side = .channel l := by
  rw [link?, Option.bind_eq_some_iff]
  refine exists_congr fun s => and_congr_right fun _ => ?_
  rcases s with ⟨id, i', r | l' | _⟩ <;> simp [Stream.link?]

theorem link?_of_side {s : Stream} (hs : c.streams[j]? = some s) (hl : s.side = .channel l) :
    c.link? j = some (s.interaction, l) :=
  link?_eq_some.mpr ⟨s, hs, rfl, hl⟩

theorem linkAt_of_link? (h : c.link? j = some (i, l)) : c.linkAt j = l := by
  rw [linkAt, h]
  rfl

theorem link?_congr {c' : Connection} (h : c'.streams = c.streams) (j : Nat) :
    c'.link? j = c.link? j := by
  rw [link?, h, link?]

theorem link?_setSide {s : Stream} (hs : c.streams[k]? = some s) (side : Side) (j : Nat) :
    (c.setSide k s side).link? j =
      if k = j then ({ s with side := side } : Stream).link? else c.link? j := by
  obtain ⟨hk, -⟩ := Array.getElem?_eq_some_iff.mp hs
  rw [link?, setSide, Array.getElem?_setIfInBounds, link?]
  by_cases hkj : k = j
  · rw [if_pos hkj, if_pos hkj, if_pos hk]
    rfl
  · rw [if_neg hkj, if_neg hkj]

/-- A new stream object leaves the links that there are as they are. -/
theorem link?_push (s : Stream) (id : UInt32) (j : Nat) :
    ({ c with nextStream := id, streams := c.streams.push s } : Connection).link? j =
      if j = c.streams.size then s.link? else c.link? j := by
  rw [link?, Array.getElem?_push, link?]
  by_cases hj : j = c.streams.size
  · rw [if_pos hj, if_pos hj]
    rfl
  · rw [if_neg hj, if_neg hj]

theorem link?_size (c : Connection) : c.link? c.streams.size = none := by
  rw [link?, Array.getElem?_eq_none (Nat.le_refl _)]
  rfl

/-! ## Writing -/

/-- Why a frame cannot be written. -/
def refusal? (f : Frame) (c : Connection) : Option Fault :=
  match c.send f with
  | .ok _ => none
  | .error fault => some fault

/-- Nothing can be written any more. -/
def IsDead (c : Connection) : Prop :=
  c.closed = true ∨ c.severed.isSome = true

theorem send_eq (f : Frame) (c : Connection) : c.send f =
    match c.refusal? f with
    | none => .ok { c with written := c.written ++ [f] }
    | some fault => .error fault := by
  unfold refusal? send
  split
  · rfl
  · cases f.encode <;> cases c.severed <;> rfl

theorem sendOr_eq (f : Frame) (otherwise : Fault → List (Call Step)) (c : Connection) :
    c.sendOr f otherwise =
      match c.refusal? f with
      | none => ({ c with written := c.written ++ [f] }, [])
      | some fault => (c, otherwise fault) := by
  rw [sendOr, send_eq]
  cases c.refusal? f <;> rfl

/-- A frame cannot be written if it is too large, and on a dead connection none can. -/
theorem refusal?_eq (f : Frame) (c : Connection) : c.refusal? f =
    if c.closed then some .connectionClosed
    else
      match f.encode, c.severed with
      | .error fault, _ => some fault
      | .ok _, some cause => some (.broken cause)
      | .ok _, none => none := by
  unfold refusal? send
  by_cases hc : c.closed = true
  · rw [if_pos hc, if_pos hc]
  · rw [if_neg hc, if_neg hc]
    cases f.encode <;> cases c.severed <;> rfl

@[simp] theorem refusal?_setSide (j : Nat) (s : Stream) (side : Side) (f : Frame)
    (c : Connection) : (c.setSide j s side).refusal? f = c.refusal? f := by
  rw [refusal?_eq, refusal?_eq]
  rfl

theorem refusal?_of_isDead (h : c.IsDead) (f : Frame) : c.refusal? f ≠ none := by
  rw [refusal?_eq]
  rcases h with h | h
  · simp [h]
  · obtain ⟨cause, hcause⟩ := Option.isSome_iff_exists.mp h
    rw [hcause]
    split
    · simp
    · cases f.encode <;> simp

/-- A frame is refused for its size, or because the connection is dead. -/
theorem isDead_of_refusal? {f : Frame} {fault : Fault} (h : c.refusal? f = some fault)
    (hsize : ∀ n, fault ≠ .frameTooLarge n) : c.IsDead := by
  rw [refusal?_eq] at h
  split at h
  · exact Or.inl ‹_›
  · split at h
    · rename_i x hx
      obtain rfl := Option.some.inj h
      rw [Frame.encode, Wire.frameBytes] at hx
      split at hx
      · cases hx
        exact absurd rfl (hsize _)
      · cases hx
    · rename_i cause hcause
      exact Or.inr (by rw [hcause]; rfl)
    · cases h

theorem streams_sendOr (f : Frame) (o : Fault → List (Call Step)) (c : Connection) :
    (c.sendOr f o).1.streams = c.streams := by
  rw [sendOr_eq]
  cases c.refusal? f <;> rfl

/-- What a section of a link comes to that may write a frame. -/
theorem writeLink_eq {s : Stream} (hs : c.streams[j]? = some s) (hl : s.side = .channel l)
    (decision : UInt32 → Link → Link × Option Frame)
    (otherwise : UInt32 → Fault → List (Call Step)) :
    c.writeLink j decision otherwise =
      match (decision s.id l).2 with
      | none => (c.setSide j s (.channel (decision s.id l).1), [])
      | some f => (c.setSide j s (.channel (decision s.id l).1)).sendOr f (otherwise s.id) := by
  simp only [writeLink, atLink, atStream, hs, hl]
  rcases decision s.id l with ⟨l', _ | f⟩ <;> rfl

theorem writeLink_of_none (h : c.link? j = none) (decision : UInt32 → Link → Link × Option Frame)
    (otherwise : UInt32 → Fault → List (Call Step)) :
    c.writeLink j decision otherwise = (c, []) := by
  unfold writeLink atLink atStream
  split
  · rfl
  · dsimp only
    split
    · rename_i s hs _ l hl
      rw [link?_of_side hs hl] at h
      cases h
    · rfl

theorem streams_writeLink {s : Stream} (hs : c.streams[j]? = some s) (hl : s.side = .channel l)
    (decision : UInt32 → Link → Link × Option Frame)
    (otherwise : UInt32 → Fault → List (Call Step)) :
    (c.writeLink j decision otherwise).1.streams =
      (c.setSide j s (.channel (decision s.id l).1)).streams := by
  rw [writeLink_eq hs hl]
  split
  · rfl
  · exact streams_sendOr ..

/-! ## What an event makes of the links -/

theorem link?_of_not_channel {s : Stream} (hs : c.streams[j]? = some s)
    (hl : ∀ l, s.side ≠ .channel l) : c.link? j = none := by
  rw [link?, hs, Option.bind_some, Stream.link?]
  split
  · exact absurd ‹_› (hl _)
  · rfl

section Moves

variable (he : concerned? e = some k)
include he

/-- A section that leaves everything as it is makes nothing of a link if there is none. -/
theorem moves_self (hk : c.link? k = none) : Link.Moves j e (c.link? j) (c.link? j) := by
  by_cases hkj : k = j
  · rw [← hkj, hk]
    exact .absent
  · exact .of_not_concerned (by rw [he]; simpa using hkj) _

theorem moves_setLink {s : Stream} {l' : Link} (hs : c.streams[k]? = some s)
    (hl : s.side = .channel l) (hb : l.Becomes k e l') :
    Link.Moves j e (c.link? j) ((c.setSide k s (.channel l')).link? j) := by
  rw [link?_setSide hs]
  by_cases hkj : k = j
  · subst hkj
    rw [if_pos rfl, link?_of_side hs hl]
    exact .kept hb
  · rw [if_neg hkj]
    exact .of_not_concerned (by rw [he]; simpa using hkj) _

theorem moves_setSide {s : Stream} {side : Side} (hs : c.streams[k]? = some s)
    (hl : ∀ l, s.side ≠ .channel l) (hl' : ∀ l, side ≠ .channel l) :
    Link.Moves j e (c.link? j) ((c.setSide k s side).link? j) := by
  rw [link?_setSide hs]
  by_cases hkj : k = j
  · subst hkj
    have hnone : ({ s with side := side } : Stream).link? = none := by
      rw [Stream.link?]
      split
      · exact absurd ‹_› (hl' _)
      · rfl
    rw [if_pos rfl, hnone, link?_of_not_channel hs hl]
    exact .absent
  · rw [if_neg hkj]
    exact .of_not_concerned (by rw [he]; simpa using hkj) _

theorem moves_atStream {f : Stream → Connection → Result}
    (hf : ∀ s, c.streams[k]? = some s → Link.Moves j e (c.link? j) ((f s c).1.link? j)) :
    Link.Moves j e (c.link? j) ((c.atStream k f).1.link? j) := by
  unfold atStream
  split
  · rename_i hs
    exact moves_self he (by rw [link?, hs]; rfl)
  · exact hf _ ‹_›

theorem moves_atLink {f : Stream → Link → Connection → Result}
    (hf : ∀ s l, c.streams[k]? = some s → s.side = .channel l →
      Link.Moves j e (c.link? j) ((f s l c).1.link? j)) :
    Link.Moves j e (c.link? j) ((c.atLink k f).1.link? j) := by
  refine moves_atStream he fun s hs => ?_
  split
  · exact hf s _ hs ‹_›
  · rename_i hl
    exact moves_self he (link?_of_not_channel hs hl)

theorem moves_writeLink {decision : UInt32 → Link → Link × Option Frame}
    {otherwise : UInt32 → Fault → List (Call Step)}
    (hb : ∀ (id : UInt32) (l : Link), l.Becomes k e (decision id l).1) :
    Link.Moves j e (c.link? j) ((c.writeLink k decision otherwise).1.link? j) := by
  cases hk : c.link? k with
  | none =>
    rw [writeLink_of_none hk]
    exact moves_self he hk
  | some x =>
    obtain ⟨s, hs, -, hl⟩ := link?_eq_some.mp hk
    rw [link?_congr (streams_writeLink hs hl decision otherwise)]
    exact moves_setLink he hs hl (hb _ _)

end Moves

theorem moves_addStream {side : Side} (he : concerned? e = none)
    (hside : ∀ l, side = .channel l → l = {}) (next : Nat → Handle → List (Call Step)) :
    Link.Moves j e (c.link? j) ((c.addStream i side next).1.link? j) := by
  have hpush := link?_push (c := c) { id := c.nextStream, interaction := i, side := side }
    (c.nextStream + 2) j
  rw [addStream, hpush]
  by_cases hj : j = c.streams.size
  · rw [if_pos hj, hj, link?_size, Stream.link?]
    split
    · rename_i l hl
      rw [hside l hl]
      exact .fresh i
    · exact .absent
  · rw [if_neg hj]
    exact .of_not_concerned (by rw [he]; simp) _

theorem moves_asked (h : Handle) (a : Ask) :
    Link.Moves j (.asked h a) (c.link? j) ((c.asked h.stream a).1.link? j) := by
  have he : concerned? (.asked h a) = some h.stream := rfl
  refine moves_atStream he fun s hs => ?_
  split
  · rename_i r n hr
    exact moves_setSide he hs (by simp [hr]) (by simp)
  · rename_i r hr
    exact moves_setSide he hs (by simp [hr]) (by simp)
  · rename_i n
    refine moves_writeLink he fun id l => ?_
    unfold Link.grant
    split
    · exact Link.becomes_asked _ _ rfl rfl rfl
    · split <;> exact Link.becomes_asked _ _ rfl rfl rfl
  · rename_i l hl
    unfold Link.cancelInbound
    split
    · rename_i hc
      split at hc <;> cases hc
      exact moves_setLink he hs hl (Link.becomes_asked _ _ rfl rfl rfl)
    · rename_i hc
      split at hc <;> cases hc
      exact moves_setLink he hs hl (Link.becomes_asked _ _ rfl rfl rfl)
  · rename_i hl
    exact moves_self he (link?_of_not_channel hs (by simp [hl]))

theorem moves_heard (r : Handle) (s : Signal Payload) :
    Link.Moves j (.heard r s) (c.link? j) ((c.heard r.stream s).1.link? j) := by
  have he : concerned? (.heard r s) = some r.stream := rfl
  cases s with
  | next p => exact moves_writeLink he fun id l => Link.becomes_send r p id
  | complete => exact moves_writeLink he fun id l => Link.becomes_finish r rfl id none
  | error m => exact moves_writeLink he fun id l => Link.becomes_finish r rfl id (some m)

theorem streams_receive (f : Frame) (c : Connection) : (c.receive f).1.streams = c.streams := by
  cases f <;> rfl

/-- Of the steps of a connection, only the cancellation of a producer changes a link. -/
theorem streams_step {s : Step} (hs : ∀ k, s ≠ .cancelProducer k) (c : Connection) :
    (c.step s).1.streams = c.streams := by
  cases s with
  | register k =>
    show (c.atStream k _).1.streams = _
    unfold atStream
    split <;> rfl
  | write f => exact streams_sendOr ..
  | writeCancel stream => exact streams_sendOr ..
  | writeMessage i f =>
    rw [step, send_eq]
    cases c.refusal? f <;> rfl
  | receive f => exact streams_receive f c
  | cancelProducer k => exact absurd rfl (hs k)
  | askProducer k n =>
    show (c.atLink k _).1.streams = _
    unfold atLink atStream
    split
    · rfl
    · dsimp only
      split <;> rfl
  | detach | fail | post | detachLink | close | drain => rfl

theorem moves_cancelProducer (k : Nat) :
    Link.Moves j (.resumed (.cancelProducer k)) (c.link? j)
      ((c.step (.cancelProducer k)).1.link? j) :=
  moves_atLink rfl fun _ _ hs hl => moves_setLink rfl hs hl Link.becomes_cancelOutbound

/-- **Every event makes of every link what `Link.Becomes` says.** -/
theorem moves_react (e : Event Step) (c : Connection) (j : Nat) :
    Link.Moves j e (c.link? j) ((c.react e).1.link? j) := by
  cases e with
  | opened k kind p i =>
    show Link.Moves j _ _ ((c.opened kind p i).1.link? j)
    cases kind with
    | fireAndForget =>
      have hpush := link?_push (c := c) { id := 0, interaction := i, side := .detached }
        c.nextStream j
      show Link.Moves j _ _ (link? j { c with
        streams := c.streams.push { id := 0, interaction := i, side := .detached } })
      rw [hpush]
      by_cases hj : j = c.streams.size
      · rw [if_pos hj, hj, link?_size]
        exact .absent
      · rw [if_neg hj]
        exact .of_not_concerned (by simp [concerned?]) _
    | requestResponse | requestStream | requestSubscription =>
      exact moves_addStream rfl (by simp) _
  | openedChannel k i => exact moves_addStream rfl (by rintro l ⟨⟩; rfl) _
  | asked h a => exact moves_asked h a
  | attached r i =>
    exact moves_atLink rfl fun _ _ hs hl => moves_setLink rfl hs hl (Link.becomes_attach r i)
  | heard r s => exact moves_heard r s
  | copied | released => exact .of_not_concerned (by simp [concerned?]) _
  | resumed s =>
    by_cases hs : ∃ k, s = .cancelProducer k
    · obtain ⟨k, rfl⟩ := hs
      exact moves_cancelProducer k
    · have hne : ∀ k, s ≠ .cancelProducer k := fun k hk => hs ⟨k, hk⟩
      have he : concerned? (.resumed s) ≠ some j := by
        cases s with
        | cancelProducer k => exact absurd rfl (hne k)
        | _ => simp [concerned?]
      show Link.Moves j _ _ ((c.step s).1.link? j)
      rw [link?_congr (streams_step hne c)]
      exact .of_not_concerned he _

theorem link?_react (e : Event Step) (h : c.link? j = some (i, l)) :
    ∃ l', (c.react e).1.link? j = some (i, l') ∧ l.Becomes j e l' := by
  have hmoves := moves_react e c j
  rw [h] at hmoves
  generalize (c.react e).1.link? j = x at hmoves
  cases hmoves with
  | kept hb => exact ⟨_, rfl, hb⟩

/-- Nothing happens to a link that is still to come. -/
theorem linkAt_react (h : c.link? j = none → IsSilent j e) :
    (c.linkAt j).Becomes j e ((c.react e).1.linkAt j) := by
  have hmoves := moves_react e c j
  rw [linkAt, linkAt]
  generalize (c.react e).1.link? j = x at hmoves
  cases hx : c.link? j with
  | some y =>
    rw [hx] at hmoves
    cases hmoves with
    | kept hb => exact hb
  | none =>
    rw [hx] at hmoves
    cases hmoves with
    | absent => exact .of_isSilent (h hx)
    | fresh i => exact .of_isSilent (h hx)

end Connection
end Client
end StreamConformance
