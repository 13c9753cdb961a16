import StreamConformance.Proofs.Channel.Links

/-!
# What a connection tries to write

At most one frame is to be written on an event.  Whether it can be, the connection finds out then
and there: an attempt is a frame with what became of it.

* `Connection.attempt?`: what an event makes a connection try to write.
* `Connection.written_react`: what is written are the frames that are tried and not refused.
* `Connection.isDead_react`: a connection on which nothing can be written stays that way.
* `Connection.attempt_cases`: what the attempts of a link are, by the state of the link.
-/

namespace StreamConformance

open Wire (Frame)

namespace Client
namespace Connection

variable {c : Connection} {i j k : Nat} {l : Link} {e : Event Step}

/-- The frame that a link decides to write on an event. -/
def linkFrame? (e : Event Step) (c : Connection) : Option Frame :=
  let atLink (j : Nat) (decision : UInt32 → Link → Link × Option Frame) : Option Frame :=
    match c.streams[j]? with
    | some { id := id, side := .channel l, .. } => (decision id l).2
    | _ => none
  match e with
  | .asked h (.request n) => atLink h.stream fun id => Link.grant id n
  | .heard r (.next payload) => atLink r.stream fun id => Link.send id payload
  | .heard r .complete => atLink r.stream fun id => Link.finish id none
  | .heard r (.error message) => atLink r.stream fun id => Link.finish id (some message)
  | _ => none

/-- A frame that was to be written. -/
structure Attempt where
  /-- The stream object whose link decided on the frame. -/
  link : Option Nat
  frame : Frame
  /-- Why it could not be written. -/
  fault : Option Fault
  deriving DecidableEq

/-- The frame, if it was written. -/
def Attempt.written? (a : Attempt) : Option Frame :=
  match a.fault with
  | none => some a.frame
  | some _ => none

/-- The frame that is to be written on an event, and the link that decides on it. -/
def frame? (e : Event Step) (c : Connection) : Option (Option Nat × Frame) :=
  match e with
  | .resumed (.write f) => some (none, f)
  | .resumed (.writeCancel stream) => some (none, .cancel stream)
  | .resumed (.writeMessage _ f) => some (none, f)
  | e => (c.linkFrame? e).map fun f => (concerned? e, f)

/-- What an event makes a connection try to write. -/
def attempt? (e : Event Step) (c : Connection) : Option Attempt :=
  (c.frame? e).map fun x => { link := x.1, frame := x.2, fault := c.refusal? x.2 }

/-- What a link decides on an event. -/
def decision (e : Event Step) : Option (UInt32 → Link → Link × Option Frame) :=
  match e with
  | .asked _ (.request n) => some fun id => Link.grant id n
  | .heard _ (.next payload) => some fun id => Link.send id payload
  | .heard _ .complete => some fun id => Link.finish id none
  | .heard _ (.error message) => some fun id => Link.finish id (some message)
  | _ => none

theorem linkFrame?_of_link {s : Stream} (he : concerned? e = some j)
    (hs : c.streams[j]? = some s) (hl : s.side = .channel l) :
    c.linkFrame? e = (decision e).bind fun d => (d s.id l).2 := by
  obtain ⟨id, i, side⟩ := s
  obtain rfl : side = .channel l := hl
  cases e with
  | asked h a =>
    obtain rfl : h.stream = j := Option.some.inj he
    cases a <;> simp [linkFrame?, decision, hs]
  | heard r s =>
    obtain rfl : r.stream = j := Option.some.inj he
    cases s <;> simp [linkFrame?, decision, hs]
  | resumed s => rfl
  | opened | openedChannel | attached | copied | released => rfl

theorem linkFrame?_of_none (hl : ∀ j, concerned? e = some j → c.link? j = none) :
    c.linkFrame? e = none := by
  have hmatch : ∀ (j : Nat) (d : UInt32 → Link → Link × Option Frame), c.link? j = none →
      (match c.streams[j]? with
        | some { id := id, side := .channel l, .. } => (d id l).2
        | _ => none) = none := by
    intro j d hj
    split
    · rename_i id i l hs
      rw [link?_of_side hs rfl] at hj
      cases hj
    · rfl
  cases e with
  | asked h a =>
    cases a with
    | request n => exact hmatch _ _ (hl _ rfl)
    | cancel => rfl
  | heard r s => cases s <;> exact hmatch _ _ (hl _ rfl)
  | opened | openedChannel | attached | copied | released | resumed => rfl

/-- The frame, if it can be written. -/
def deliver? (f : Frame) (c : Connection) : Option Frame :=
  match c.refusal? f with
  | none => some f
  | some _ => none

theorem written?_attempt (e : Event Step) (c : Connection) :
    (c.attempt? e).bind Attempt.written? = (c.frame? e).bind fun x => c.deliver? x.2 := by
  rw [attempt?]
  cases c.frame? e with
  | none => rfl
  | some x =>
    rw [Option.map_some, Option.bind_some, Option.bind_some, Attempt.written?, deliver?]

theorem written_sendOr (f : Frame) (otherwise : Fault → List (Call Step)) (c : Connection) :
    (c.sendOr f otherwise).1.written = c.written ++ (c.deliver? f).toList := by
  rw [sendOr_eq, deliver?]
  cases c.refusal? f with
  | none => rfl
  | some fault => exact (List.append_nil _).symm

theorem written_writeLink (he : concerned? e = some k)
    {d : UInt32 → Link → Link × Option Frame} (hd : decision e = some d)
    (otherwise : UInt32 → Fault → List (Call Step)) (c : Connection) :
    (c.writeLink k d otherwise).1.written =
      c.written ++ ((c.linkFrame? e).bind fun f => c.deliver? f).toList := by
  cases hk : c.link? k with
  | none =>
    have hnone : c.linkFrame? e = none := by
      refine linkFrame?_of_none fun j hj => ?_
      obtain rfl : k = j := Option.some.inj (he.symm.trans hj)
      exact hk
    rw [writeLink_of_none hk, hnone]
    exact (List.append_nil _).symm
  | some x =>
    obtain ⟨s, hs, -, hl⟩ := link?_eq_some.mp hk
    rw [writeLink_eq hs hl, linkFrame?_of_link he hs hl, hd, Option.bind_some]
    cases (d s.id x.2).2 with
    | none => exact (List.append_nil _).symm
    | some f =>
      have hdeliver : (c.setSide k s (.channel (d s.id x.2).1)).deliver? f = c.deliver? f := by
        rw [deliver?, refusal?_setSide, deliver?]
      show ((c.setSide k s _).sendOr f (otherwise s.id)).1.written = _
      rw [written_sendOr, hdeliver]
      rfl

theorem written_asked (h : Handle) (a : Ask) (c : Connection) :
    (c.asked h.stream a).1.written =
      c.written ++ ((c.linkFrame? (.asked h a)).bind fun f => c.deliver? f).toList := by
  have hnone (hl : c.link? h.stream = none) : c.linkFrame? (.asked h a) = none := by
    refine linkFrame?_of_none fun j hj => ?_
    obtain rfl : h.stream = j := Option.some.inj hj
    exact hl
  rw [asked, atStream]
  split
  · rename_i hs
    rw [hnone (by rw [link?, hs]; rfl)]
    exact (List.append_nil _).symm
  · rename_i s hs
    split
    · rename_i r n hr
      rw [hnone (link?_of_not_channel hs (by simp [hr]))]
      exact (List.append_nil _).symm
    · rename_i r hr
      rw [hnone (link?_of_not_channel hs (by simp [hr]))]
      exact (List.append_nil _).symm
    · exact written_writeLink rfl rfl _ c
    · split <;> exact (List.append_nil _).symm
    · rename_i hl
      rw [hnone (link?_of_not_channel hs (by simp [hl]))]
      exact (List.append_nil _).symm

theorem written_heard (r : Handle) (s : Signal Payload) (c : Connection) :
    (c.heard r.stream s).1.written =
      c.written ++ ((c.linkFrame? (.heard r s)).bind fun f => c.deliver? f).toList := by
  cases s <;> exact written_writeLink rfl rfl _ c

theorem written_atLink {f : Stream → Link → Connection → Result}
    (hf : ∀ s l, (f s l c).1.written = c.written) (k : Nat) :
    (c.atLink k f).1.written = c.written := by
  unfold atLink atStream
  split
  · rfl
  · dsimp only
    split
    · exact hf _ _
    · rfl

theorem written_step (s : Step) (c : Connection) :
    (c.step s).1.written =
      c.written ++ ((c.frame? (.resumed s)).bind fun x => c.deliver? x.2).toList := by
  cases s with
  | register k =>
    refine Eq.trans ?_ (List.append_nil _).symm
    show (c.atStream k _).1.written = _
    unfold atStream
    split <;> rfl
  | write f => exact written_sendOr ..
  | writeCancel stream => exact written_sendOr ..
  | writeMessage i f =>
    show (c.step (.writeMessage i f)).1.written = c.written ++ (c.deliver? f).toList
    rw [step, send_eq, deliver?]
    cases c.refusal? f with
    | none => rfl
    | some fault => exact (List.append_nil _).symm
  | receive f => cases f <;> exact (List.append_nil _).symm
  | cancelProducer k =>
    refine Eq.trans ?_ (List.append_nil _).symm
    exact written_atLink (fun _ _ => rfl) k
  | askProducer k n =>
    refine Eq.trans ?_ (List.append_nil _).symm
    exact written_atLink (fun _ _ => rfl) k
  | detach | fail | post | detachLink | close | drain => exact (List.append_nil _).symm

/-- **What is written are the frames that are tried and not refused.** -/
theorem written_react (e : Event Step) (c : Connection) :
    (c.react e).1.written = c.written ++ ((c.attempt? e).bind Attempt.written?).toList := by
  have hlink (he : c.frame? e = (c.linkFrame? e).map fun f => (concerned? e, f)) :
      ((c.frame? e).bind fun x => c.deliver? x.2) = (c.linkFrame? e).bind fun f => c.deliver? f := by
    rw [he]
    cases c.linkFrame? e <;> rfl
  rw [written?_attempt]
  cases e with
  | opened k kind p i => cases kind <;> exact (List.append_nil _).symm
  | asked h a =>
    rw [hlink rfl]
    exact written_asked h a c
  | attached r i =>
    refine Eq.trans ?_ (List.append_nil _).symm
    exact written_atLink (fun _ _ => rfl) r.stream
  | heard r s =>
    rw [hlink rfl]
    exact written_heard r s c
  | resumed s => exact written_step s c
  | openedChannel | copied | released => exact (List.append_nil _).symm

/-! ## Dead connections -/

theorem IsDead.congr {c' : Connection} (h : c.IsDead) (hc : c'.closed = c.closed)
    (hs : c'.severed = c.severed) : c'.IsDead := by
  rw [IsDead, hc, hs]
  exact h

theorem isDead_sendOr (h : c.IsDead) (f : Frame) (otherwise : Fault → List (Call Step)) :
    (c.sendOr f otherwise).1.IsDead := by
  rw [sendOr_eq]
  cases c.refusal? f <;> exact h.congr rfl rfl

theorem isDead_atStream {f : Stream → Connection → Result} (h : c.IsDead)
    (hf : ∀ s, c.streams[k]? = some s → (f s c).1.IsDead) : (c.atStream k f).1.IsDead := by
  unfold atStream
  split
  · exact h
  · exact hf _ ‹_›

theorem isDead_atLink {f : Stream → Link → Connection → Result} (h : c.IsDead)
    (hf : ∀ s l, (f s l c).1.IsDead) : (c.atLink k f).1.IsDead := by
  refine isDead_atStream h fun s _ => ?_
  split
  · exact hf _ _
  · exact h

theorem isDead_writeLink (h : c.IsDead) (d : UInt32 → Link → Link × Option Frame)
    (otherwise : UInt32 → Fault → List (Call Step)) :
    (c.writeLink k d otherwise).1.IsDead := by
  refine isDead_atLink h fun s l => ?_
  split
  · exact h.congr rfl rfl
  · have hset (l' : Link) : (c.setSide k s (.channel l')).IsDead := h.congr rfl rfl
    exact isDead_sendOr (hset _) _ _

theorem isDead_step (h : c.IsDead) (s : Step) : (c.step s).1.IsDead := by
  cases s with
  | register k => exact isDead_atStream h fun _ _ => h.congr rfl rfl
  | write f => exact isDead_sendOr h ..
  | writeCancel stream => exact isDead_sendOr h ..
  | writeMessage i f =>
    rw [step, send_eq]
    cases c.refusal? f <;> exact h.congr rfl rfl
  | receive f => cases f <;> exact h.congr rfl rfl
  | cancelProducer k => exact isDead_atLink h fun _ _ => h.congr rfl rfl
  | askProducer k n => exact isDead_atLink h fun _ _ => h
  | close reason => exact Or.inl rfl
  | detach | fail | post | detachLink | drain => exact h.congr rfl rfl

/-- **A dead connection stays dead.** -/
theorem isDead_react (h : c.IsDead) (e : Event Step) : (c.react e).1.IsDead := by
  cases e with
  | opened k kind p i => cases kind <;> exact h.congr rfl rfl
  | asked g a =>
    refine isDead_atStream h fun s _ => ?_
    split
    · exact h.congr rfl rfl
    · exact h.congr rfl rfl
    · exact isDead_writeLink h ..
    · split <;> exact h.congr rfl rfl
    · exact h
  | attached r i => exact isDead_atLink h fun _ _ => h.congr rfl rfl
  | heard r s => cases s <;> exact isDead_writeLink h ..
  | released k => exact Or.inr rfl
  | resumed s => exact isDead_step h s
  | openedChannel | copied => exact h.congr rfl rfl

/-! ## The attempts of a link -/

/-- A frame that a link decides on, by the state of the link. -/
inductive FitsLink (j : Nat) (e : Event Step) (l : Link) (f : Frame) : Prop where
  /-- An item goes out as long as the link is not done, and the first one opens the channel. -/
  | item {p : Payload} (he : item? j e = some p) (hdone : l.outboundDone = false)
      (hitem : f.item? = some p) (hopen : f.isOpening = !l.opened)
  /-- Anything else goes out on an open channel only. -/
  | other (he : item? j e = none) (hitem : f.item? = none) (hopen : l.opened = true)

theorem fitsLink_of_decision {d : UInt32 → Link → Link × Option Frame} {id : UInt32} {f : Frame}
    (he : concerned? e = some j) (hd : decision e = some d) (hf : (d id l).2 = some f) :
    FitsLink j e l f := by
  cases e with
  | asked h a =>
    cases a with
    | cancel => cases hd
    | request n =>
      cases hd
      simp only [Link.grant] at hf
      split at hf
      · cases hf
      · split at hf
        · cases hf
          exact .other rfl rfl ‹_›
        · cases hf
  | heard r s =>
    obtain rfl : r.stream = j := Option.some.inj he
    have hfinish {s : Signal Payload} {m : Option String} (hs : s.isTerminal = true)
        (hf : (l.finish id m).2 = some f) : FitsLink r.stream (.heard r s) l f := by
      have hnone : item? r.stream (.heard r s) = none := by
        cases s with
        | next p => cases hs
        | complete | error => rfl
      unfold Link.finish at hf
      split at hf
      · cases hf
      · simp only at hf
        split at hf
        · cases m <;> (cases hf; exact .other hnone rfl ‹_›)
        · cases hf
    cases s with
    | next p =>
      cases hd
      have hitem : item? r.stream (.heard r (.next p)) = some p := if_pos rfl
      simp only [Link.send] at hf
      split at hf
      · cases hf
      · rename_i hdone
        have hdone : l.outboundDone = false := by simpa using hdone
        split at hf
        · rename_i hopened
          cases hf
          exact .item hitem hdone rfl (by rw [hopened]; rfl)
        · rename_i hopened
          cases hf
          exact .item hitem hdone rfl (by rw [Bool.not_eq_true] at hopened; rw [hopened]; rfl)
    | complete =>
      cases hd
      exact hfinish rfl hf
    | error m =>
      cases hd
      exact hfinish rfl hf
  | opened | openedChannel | attached | copied | released | resumed => cases hd

theorem fitsLink_of_linkFrame? {f : Frame} (h : c.linkFrame? e = some f) :
    ∃ j i l, concerned? e = some j ∧ c.link? j = some (i, l) ∧ FitsLink j e l f := by
  cases hj : concerned? e with
  | none =>
    rw [linkFrame?_of_none fun j hj' => by rw [hj] at hj'; cases hj'] at h
    cases h
  | some j =>
    cases hx : c.link? j with
    | none =>
      rw [linkFrame?_of_none fun k hk => by rwa [← Option.some.inj (hj.symm.trans hk)]] at h
      cases h
    | some x =>
      obtain ⟨s, hs, -, hl⟩ := link?_eq_some.mp hx
      rw [linkFrame?_of_link hj hs hl, Option.bind_eq_some_iff] at h
      obtain ⟨d, hd, hf⟩ := h
      exact ⟨j, x.1, x.2, rfl, hx, fitsLink_of_decision hj hd hf⟩

/-- **The attempts of a connection** are those of its steps and those of its links. -/
theorem attempt_cases {a : Attempt} (h : c.attempt? e = some a) :
    (a.link = none ∧ ∃ s, e = .resumed s) ∨
      ∃ j i l, a.link = some j ∧ concerned? e = some j ∧ c.link? j = some (i, l) ∧
        FitsLink j e l a.frame := by
  rw [attempt?, Option.map_eq_some_iff] at h
  obtain ⟨⟨k, f⟩, hf, rfl⟩ := h
  have hlink (he : c.frame? e = (c.linkFrame? e).map fun f => (concerned? e, f)) :
      ∃ j i l, k = some j ∧ concerned? e = some j ∧ c.link? j = some (i, l) ∧
        FitsLink j e l f := by
    rw [he, Option.map_eq_some_iff] at hf
    obtain ⟨f', hf', heq⟩ := hf
    obtain ⟨rfl, rfl⟩ := Prod.mk.inj heq
    obtain ⟨j, i, l, hj, hl, hfits⟩ := fitsLink_of_linkFrame? hf'
    exact ⟨j, i, l, hj, hj, hl, hfits⟩
  cases e with
  | resumed s =>
    refine Or.inl ⟨?_, s, rfl⟩
    cases s with
    | write | writeCancel | writeMessage =>
      cases hf
      rfl
    | _ => cases hf
  | opened | openedChannel | asked | attached | heard | copied | released => exact Or.inr (hlink rfl)

theorem fault_of_attempt {a : Attempt} (h : c.attempt? e = some a) :
    a.fault = c.refusal? a.frame := by
  rw [attempt?, Option.map_eq_some_iff] at h
  obtain ⟨x, -, rfl⟩ := h
  rfl

/-- An item that is sent to a link goes out unless the link is done. -/
theorem attempt_of_item {p : Payload} (he : item? j e = some p) (hl : c.link? j = some (i, l))
    (hdone : l.outboundDone = false) : ∃ a, c.attempt? e = some a ∧ a.link = some j := by
  unfold item? at he
  split at he
  · rename_i r q
    split at he
    · rename_i hr
      subst hr
      obtain ⟨s, hs, -, hside⟩ := link?_eq_some.mp hl
      have hframe : c.linkFrame? (.heard r (.next q)) = (l.send s.id q).2 :=
        linkFrame?_of_link rfl hs hside
      have hsome : (l.send s.id q).2.isSome = true := by
        unfold Link.send
        rw [if_neg (by simp [hdone])]
        split <;> rfl
      obtain ⟨f, hf⟩ := Option.isSome_iff_exists.mp hsome
      refine ⟨{ link := some r.stream, frame := f, fault := c.refusal? f }, ?_, rfl⟩
      show ((c.linkFrame? (.heard r (.next q))).map _).map _ = _
      rw [hframe, hf]
      rfl
    · cases he
  · cases he

end Connection
end Client
end StreamConformance
