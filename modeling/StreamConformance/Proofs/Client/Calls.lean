import StreamConformance.Proofs.Channel.Attempts
import StreamConformance.Proofs.Client.Streams

/-!
# The calls of a connection

What a connection calls on an event is said here once: the signals to consumers as a list
(`Connection.signals_react`), and every call by the reasons for which there may be one
(`Connection.Makes`, `Connection.makes_of_mem`).

Nobody is taken out of the route table without a call (`Connection.inbound?_react`,
`Connection.outbound?_react`), and nobody comes into it but by being entered
(`Connection.inbound?_of_react`, `Connection.outbound?_of_react`).
-/

namespace StreamConformance

open Wire (Frame)

/-- The consumer that gets a signal by a call, and the signal. -/
def Call.signal? {τ : Type} : Call τ → Option (Nat × Signal Payload)
  | .signal i s => some (i, s)
  | _ => none

namespace Client

/-- A request of the peer to have nothing more on a stream from the near producer. -/
def detachesLink (id : UInt32) : Frame → Prop
  | .error id' _ => id' = id
  | .cancel id' => id' = id
  | _ => False

namespace Connection

variable {c : Connection} {i j : Nat} {e : Event Step} {cl : Call Step}

/-! ## Signals -/

/-- The signal `s` for the consumer of a stream, if there is one. -/
def toInbound (id : UInt32) (s : Signal Payload) (c : Connection) : List (Nat × Signal Payload) :=
  ((c.routes.inbound? id).map fun i => (i, s)).toList

/-- How a message without answers ends. -/
def messageEnd (f : Frame) (c : Connection) : Signal Payload :=
  match c.refusal? f with
  | none => .complete
  | some fault => .error fault.message

/-- The signals to consumers on an event, in order. -/
def signalsOn (e : Event Step) (c : Connection) : List (Nat × Signal Payload) :=
  match e with
  | .resumed (.receive (.next id p)) => c.toInbound id (.next p)
  | .resumed (.receive (.complete id)) => c.toInbound id .complete
  | .resumed (.receive (.error id message)) => c.toInbound id (.error message)
  | .resumed (.fail id fault) => c.toInbound id (.error fault.message)
  | .resumed (.writeMessage i f) => [(i, c.messageEnd f)]
  | .resumed (.drain reason) =>
    c.routes.entries.filterMap fun e => e.2.inbound.map fun i => (i, .error reason)
  | _ => []

theorem calls_endInbound (id : UInt32) (s : Signal Payload) (c : Connection) :
    (c.endInbound id s).2 = ((c.routes.inbound? id).map fun i => .signal i s).toList := by
  rw [← Routes.snd_takeInbound]
  rfl

theorem calls_detachLink (id : UInt32) (c : Connection) :
    (c.step (.detachLink id)).2 =
      ((c.routes.outbound? id).map fun j => .resume (.cancelProducer j)).toList := by
  rw [← Routes.snd_takeOutbound]
  rfl

theorem signal?_endInbound (id : UInt32) (s : Signal Payload) (c : Connection) :
    (c.endInbound id s).2.filterMap Call.signal? = c.toInbound id s := by
  rw [calls_endInbound, toInbound]
  cases c.routes.inbound? id <;> rfl

theorem signal?_sendOr (f : Frame) {o : Fault → List (Call Step)}
    (ho : ∀ fault, (o fault).filterMap Call.signal? = []) (c : Connection) :
    (c.sendOr f o).2.filterMap Call.signal? = [] := by
  rw [sendOr_eq]
  split
  · rfl
  · exact ho _

theorem signal?_atLink {f : Stream → Link → Connection → Result}
    (hf : ∀ s l, (f s l c).2.filterMap Call.signal? = []) (j : Nat) :
    (c.atLink j f).2.filterMap Call.signal? = [] := by
  unfold atLink atStream
  split
  · rfl
  · dsimp only
    split
    · exact hf _ _
    · rfl

theorem signal?_writeLink (j : Nat) (d : UInt32 → Link → Link × Option Frame)
    {o : UInt32 → Fault → List (Call Step)}
    (ho : ∀ id fault, (o id fault).filterMap Call.signal? = []) (c : Connection) :
    (c.writeLink j d o).2.filterMap Call.signal? = [] := by
  refine signal?_atLink (fun s l => ?_) j
  split
  · rfl
  · exact signal?_sendOr _ (ho _) _

theorem signal?_asked (j : Nat) (a : Ask) (c : Connection) :
    (c.asked j a).2.filterMap Call.signal? = [] := by
  unfold asked atStream
  split
  · rfl
  · dsimp only
    split
    · dsimp only
      cases (Request.request _ _ _).2 <;> rfl
    · split <;> rfl
    · exact signal?_writeLink _ _ (fun _ _ => rfl) c
    · split
      · rfl
      · dsimp only
        split <;> rfl
    · rfl

theorem signal?_drain (reason : String) (l : List (UInt32 × Route)) :
    (l.flatMap fun e => endRoute reason e.2).filterMap Call.signal? =
      l.filterMap fun e => e.2.inbound.map fun i => (i, .error reason) := by
  induction l with
  | nil => rfl
  | cons e l ih =>
    obtain ⟨id, inbound, outbound⟩ := e
    rw [List.flatMap_cons, List.filterMap_append, ih]
    cases inbound <;> cases outbound <;> rfl

theorem signal?_step (s : Step) (c : Connection) :
    (c.step s).2.filterMap Call.signal? = c.signalsOn (.resumed s) := by
  cases s with
  | register k =>
    show (c.atStream k _).2.filterMap Call.signal? = []
    unfold atStream
    split <;> rfl
  | write f => exact signal?_sendOr f (fun _ => rfl) c
  | writeCancel id => exact signal?_sendOr _ (fun _ => rfl) c
  | fail id fault => exact signal?_endInbound ..
  | writeMessage i f =>
    rw [step, send_eq, signalsOn, messageEnd]
    cases c.refusal? f <;> rfl
  | receive f =>
    cases f with
    | next id p =>
      show (Option.toList _).filterMap Call.signal? = c.toInbound id (.next p)
      rw [toInbound, Routes.inbound?]
      cases (c.routes.find? id).bind (·.inbound) <;> rfl
    | complete id => exact signal?_endInbound ..
    | error id m =>
      show ((c.endInbound id (.error m)).2 ++ _).filterMap Call.signal? = c.toInbound id (.error m)
      rw [List.filterMap_append, signal?_endInbound]
      exact List.append_nil _
    | requestN id n =>
      show (Option.toList _).filterMap Call.signal? = []
      cases (c.routes.find? id).bind (·.outbound) <;> rfl
    | cancel | requestResponse | requestStream | requestSubscription | fireAndForget
    | requestChannel => rfl
  | detachLink id =>
    rw [calls_detachLink]
    cases c.routes.outbound? id <;> rfl
  | cancelProducer k =>
    refine signal?_atLink (fun s l => ?_) k
    dsimp only
    split <;> rfl
  | askProducer k n =>
    refine signal?_atLink (fun s l => ?_) k
    dsimp only
    split <;> rfl
  | drain reason => exact signal?_drain reason c.routes.entries
  | detach | post | close => rfl

/-- **The signals to consumers on an event.** -/
theorem signals_react (e : Event Step) (c : Connection) :
    (c.react e).2.filterMap Call.signal? = c.signalsOn e := by
  cases e with
  | opened n kind p i => cases kind <;> rfl
  | asked h a => exact signal?_asked h.stream a c
  | attached r i => exact signal?_atLink (fun _ _ => rfl) r.stream
  | heard r s => cases s <;> exact signal?_writeLink _ _ (fun _ _ => rfl) c
  | resumed s => exact signal?_step s c
  | openedChannel | copied | released => rfl

theorem mem_signalsOn {s : Signal Payload} :
    (i, s) ∈ c.signalsOn e ↔ .signal i s ∈ (c.react e).2 := by
  rw [← signals_react, List.mem_filterMap]
  constructor
  · rintro ⟨cl, hcl, hs⟩
    unfold Call.signal? at hs
    split at hs
    · cases hs
      exact hcl
    · cases hs
  · exact fun h => ⟨_, h, rfl⟩

/-! ## All calls -/

/-- Why a connection makes a call on an event. -/
inductive Makes (c : Connection) : Event Step → Call Step → Prop where
  | subscribed {e : Event Step} {l : Label} (h : c.newLabel? e = some l) :
      Makes c e (.subscribed l.interaction ⟨c.number, c.labels.length⟩)
  | register {e : Event Step} {l : Label} (h : c.newLabel? e = some l) (hk : l.kind ≠ .detached) :
      Makes c e (.resume (.register c.labels.length))
  | attach (n i : Nat) : Makes c (.openedChannel n i) (.attach i ⟨c.number, c.labels.length⟩)
  | post (n : Nat) (p : Payload) (i : Nat) :
      Makes c (.opened n .fireAndForget p i) (.resume (.post i p))
  | signal {e : Event Step} {i : Nat} {s : Signal Payload} (h : (i, s) ∈ c.signalsOn e) :
      Makes c e (.signal i s)
  | write (h : Handle) (n : Nat) (f : Frame) : Makes c (.asked h (.request n)) (.resume (.write f))
  | detach {h : Handle} {l : Label} (hl : c.labels[h.stream]? = some l) :
      Makes c (.asked h .cancel) (.resume (.detach l.id))
  | writeCancel {h : Handle} {l : Label} (hl : c.labels[h.stream]? = some l) :
      Makes c (.asked h .cancel) (.resume (.writeCancel l.id))
  /-- A frame of a stream was refused. -/
  | fail {e : Event Step} {a : Attempt} {fault : Fault} (h : c.attempt? e = some a)
      (ha : a.fault = some fault) : Makes c e (.resume (.fail a.frame.stream fault))
  | message (i : Nat) (p : Payload) :
      Makes c (.resumed (.post i p)) (.resume (.writeMessage i (.fireAndForget c.nextStream p)))
  | detachLink {f : Frame} {id : UInt32} (h : detachesLink id f) :
      Makes c (.resumed (.receive f)) (.resume (.detachLink id))
  | cancelProducer {id : UInt32} {j : Nat} (h : c.routes.outbound? id = some j) :
      Makes c (.resumed (.detachLink id)) (.resume (.cancelProducer j))
  | askProducer {id : UInt32} {j : Nat} (n : Nat) (h : c.routes.outbound? id = some j) :
      Makes c (.resumed (.receive (.requestN id n))) (.resume (.askProducer j n))
  | ask {e : Event Step} {j i : Nat} {l : Link} (he : concerned? e = some j)
      (hl : c.link? j = some (i, l)) (h : ∃ r n, e = .attached r n) : Makes c e (.ask i l.attach.2)
  | askCancel {j i : Nat} {l : Link} (hl : c.link? j = some (i, l)) (h : l.attached = true) :
      Makes c (.resumed (.cancelProducer j)) (.ask i .cancel)
  | askRequest {j i n : Nat} {l : Link} (hl : c.link? j = some (i, l)) (h : l.attached = true) :
      Makes c (.resumed (.askProducer j n)) (.ask i (.request n))
  | drain (reason : String) : Makes c (.resumed (.close reason)) (.resume (.drain reason))
  | drainLink {reason : String} {x : UInt32 × Route} {j : Nat} (hx : x ∈ c.routes.entries)
      (hj : x.2.outbound = some j) :
      Makes c (.resumed (.drain reason)) (.resume (.cancelProducer j))

/-- A link decides on frames of its own stream only. -/
theorem stream_of_decision {d : UInt32 → Link → Link × Option Frame} {id : UInt32} {l : Link}
    {f : Frame} (hd : decision e = some d) (hf : (d id l).2 = some f) : f.stream = id := by
  cases e with
  | asked h a =>
    cases a with
    | cancel => cases hd
    | request n =>
      cases hd
      simp only [Link.grant] at hf
      split at hf
      · cases hf
      · split at hf <;> cases hf
        rfl
  | heard r s =>
    cases s with
    | next p =>
      cases hd
      simp only [Link.send] at hf
      split at hf
      · cases hf
      · split at hf <;> (cases hf; rfl)
    | complete | error =>
      cases hd
      simp only [Link.finish] at hf
      split at hf
      · cases hf
      · dsimp only at hf
        split at hf <;> cases hf
        rfl
  | opened | openedChannel | attached | copied | released | resumed => cases hd

/-- What is left when a link could not write its frame. -/
theorem makes_of_mem_writeLink (he : concerned? e = some j)
    (hframe : c.frame? e = (c.linkFrame? e).map fun f => (concerned? e, f))
    {d : UInt32 → Link → Link × Option Frame} (hd : decision e = some d)
    (h : cl ∈ (c.writeLink j d failStream).2) : c.Makes e cl := by
  cases hx : c.link? j with
  | none =>
    rw [writeLink_of_none hx] at h
    cases h
  | some x =>
    obtain ⟨s, hs, -, hl⟩ := link?_eq_some.mp hx
    rw [writeLink_eq hs hl] at h
    split at h
    · cases h
    · rename_i f hf
      rw [sendOr_eq, refusal?_setSide] at h
      split at h
      · cases h
      · rename_i fault hfault
        rw [List.mem_singleton.mp h, ← stream_of_decision hd hf]
        have hattempt : c.attempt? e = some { link := some j, frame := f, fault := some fault } := by
          rw [attempt?, hframe, linkFrame?_of_link he hs hl, hd, Option.bind_some, hf, he, ← hfault]
          rfl
        exact .fail hattempt rfl

theorem makes_of_mem_asked {h : Handle} {a : Ask} (hcl : cl ∈ (c.asked h.stream a).2) :
    c.Makes (.asked h a) cl := by
  cases hs : c.streams[h.stream]? with
  | none =>
    rw [asked, atStream, hs] at hcl
    cases hcl
  | some s =>
    have hlabel : c.labels[h.stream]? = some s.label := by
      rw [getElem?_labels, hs]
      rfl
    have hcancel {b : Bool} (hcl : cl ∈ (Call.resume (.detach s.id) ::
        if b then [Call.resume (.writeCancel s.id)] else [])) : c.Makes (.asked h .cancel) cl := by
      rcases List.mem_cons.mp hcl with rfl | hcl
      · exact .detach hlabel
      · split at hcl
        · rw [List.mem_singleton.mp hcl]
          exact .writeCancel hlabel
        · cases hcl
    rw [asked, atStream, hs] at hcl
    dsimp only at hcl
    split at hcl
    · rw [Option.mem_toList, Option.map_eq_some_iff] at hcl
      obtain ⟨f, -, rfl⟩ := hcl
      exact .write h _ f
    · exact hcancel hcl
    · exact makes_of_mem_writeLink (e := .asked h (.request _)) rfl rfl rfl hcl
    · split at hcl
      · cases hcl
      · exact hcancel hcl
    · cases hcl

theorem makes_of_mem_endInbound {id : UInt32} {s : Signal Payload}
    (he : c.toInbound id s = c.signalsOn e) (h : cl ∈ (c.endInbound id s).2) : c.Makes e cl := by
  rw [calls_endInbound, Option.mem_toList, Option.map_eq_some_iff] at h
  obtain ⟨i, hi, rfl⟩ := h
  refine .signal ?_
  rw [← he, toInbound, hi]
  exact List.mem_singleton_self _

theorem makes_of_mem_receive {f : Frame} (h : cl ∈ (c.receive f).2) :
    c.Makes (.resumed (.receive f)) cl := by
  cases f with
  | next id p =>
    rw [receive, Option.mem_toList, Option.map_eq_some_iff] at h
    obtain ⟨i, hi, rfl⟩ := h
    refine .signal ?_
    rw [signalsOn, toInbound, Routes.inbound?, hi]
    exact List.mem_singleton_self _
  | complete id => exact makes_of_mem_endInbound rfl h
  | error id m =>
    rcases List.mem_append.mp h with h | h
    · exact makes_of_mem_endInbound rfl h
    · rw [List.mem_singleton.mp h]
      exact .detachLink rfl
  | requestN id n =>
    rw [receive, Option.mem_toList, Option.map_eq_some_iff] at h
    obtain ⟨j, hj, rfl⟩ := h
    exact .askProducer n hj
  | cancel id =>
    rw [List.mem_singleton.mp h]
    exact .detachLink rfl
  | requestResponse | requestStream | requestSubscription | fireAndForget | requestChannel =>
    cases h

theorem makes_of_mem_drain {reason : String} (h : cl ∈ (c.step (.drain reason)).2) :
    c.Makes (.resumed (.drain reason)) cl := by
  obtain ⟨x, hx, h⟩ := List.mem_flatMap.mp h
  rcases List.mem_append.mp h with h | h
  · rw [Option.mem_toList, Option.map_eq_some_iff] at h
    obtain ⟨i, hi, rfl⟩ := h
    exact .signal (List.mem_filterMap.mpr ⟨x, hx, by rw [hi]; rfl⟩)
  · rw [Option.mem_toList, Option.map_eq_some_iff] at h
    obtain ⟨j, hj, rfl⟩ := h
    exact .drainLink hx hj

theorem makes_of_mem_step {s : Step} (h : cl ∈ (c.step s).2) : c.Makes (.resumed s) cl := by
  cases s with
  | register k =>
    rw [step, atStream] at h
    split at h <;> cases h
  | write f =>
    rw [step, sendOr_eq] at h
    split at h
    · cases h
    · rename_i fault hfault
      rw [List.mem_singleton.mp h]
      have hattempt : c.attempt? (.resumed (.write f)) =
          some { link := none, frame := f, fault := some fault } := by
        rw [← hfault]
        rfl
      exact .fail hattempt rfl
  | writeCancel id =>
    obtain ⟨fault, h⟩ := mem_sendOr h
    cases h
  | fail id fault => exact makes_of_mem_endInbound rfl h
  | post i p =>
    rw [List.mem_singleton.mp h]
    exact .message i p
  | writeMessage i f =>
    refine (?_ : cl = .signal i (c.messageEnd f)) ▸ .signal (List.mem_singleton_self _)
    rw [step, send_eq] at h
    rw [messageEnd]
    cases hf : c.refusal? f <;> (rw [hf] at h; exact List.mem_singleton.mp h)
  | receive f => exact makes_of_mem_receive h
  | detachLink id =>
    rw [calls_detachLink, Option.mem_toList, Option.map_eq_some_iff] at h
    obtain ⟨j, hj, rfl⟩ := h
    exact .cancelProducer hj
  | cancelProducer k =>
    obtain ⟨s, l, hs, hl, h⟩ := mem_atLink h
    dsimp only at h
    split at h
    · rw [List.mem_singleton.mp h]
      exact .askCancel (link?_of_side hs hl) ‹_›
    · cases h
  | askProducer k n =>
    obtain ⟨s, l, hs, hl, h⟩ := mem_atLink h
    dsimp only at h
    split at h
    · rw [List.mem_singleton.mp h]
      exact .askRequest (link?_of_side hs hl) ‹_›
    · cases h
  | close reason =>
    rw [List.mem_singleton.mp h]
    exact .drain reason
  | drain reason => exact makes_of_mem_drain h
  | detach id => cases h

/-- **Every call is made for one of the reasons.** -/
theorem makes_of_mem (h : cl ∈ (c.react e).2) : c.Makes e cl := by
  cases e with
  | opened n kind p i =>
    cases kind with
    | fireAndForget =>
      rcases List.mem_cons.mp h with rfl | h
      · rw [← length_labels]
        exact .subscribed (l := { id := 0, interaction := i, kind := .detached }) rfl
      · rw [List.mem_singleton.mp h]
        exact .post n p i
    | requestResponse | requestStream | requestSubscription =>
      rcases List.mem_cons.mp h with rfl | h
      · rw [← length_labels]
        exact .register rfl (by simp)
      · rw [List.mem_singleton.mp h, ← length_labels]
        exact .subscribed (l := { id := c.nextStream, interaction := i, kind := .request }) rfl
  | openedChannel n i =>
    simp only [react, openedChannel, addStream, List.mem_cons, List.not_mem_nil, or_false] at h
    rw [← length_labels] at h
    rcases h with rfl | rfl | rfl
    · exact .register rfl (by simp)
    · exact .subscribed (l := { id := c.nextStream, interaction := i, kind := .channel }) rfl
    · exact .attach n i
  | asked h' a => exact makes_of_mem_asked h
  | attached r i =>
    obtain ⟨s, l, hs, hl, h⟩ := mem_atLink h
    rw [List.mem_singleton.mp h]
    exact .ask rfl (link?_of_side hs hl) ⟨r, i, rfl⟩
  | heard r s =>
    cases s with
    | next p => exact makes_of_mem_writeLink (e := .heard r (.next p)) rfl rfl rfl h
    | complete | error =>
      obtain ⟨id, fault, h⟩ := mem_writeLink h
      cases h
  | resumed s => exact makes_of_mem_step h
  | copied | released => cases h

/-! ## Who is taken out of the table -/

/-- **A consumer in the table stays there**, unless it is told the end of its stream, or is taken out
because it has canceled, or another one is entered for the same stream. -/
theorem inbound?_react {id : UInt32} (h : c.routes.inbound? id = some i) (e : Event Step) :
    (c.react e).1.routes.inbound? id = some i ∨
      (∃ s, s.isTerminal = true ∧ (i, s) ∈ c.signalsOn e) ∨ e = .resumed (.detach id) ∨
      ∃ j l, e = .resumed (.register j) ∧ c.labels[j]? = some l ∧ l.id = id := by
  have htake {id' : UInt32} {s : Signal Payload} (hs : s.isTerminal = true)
      (hroutes : c.routesAfter e = (c.routes.takeInbound id').1)
      (hsignals : c.signalsOn e = c.toInbound id' s) :
      (c.routesAfter e).inbound? id = some i ∨
        ∃ s, s.isTerminal = true ∧ (i, s) ∈ c.signalsOn e := by
    by_cases hid : id' = id
    · subst hid
      refine Or.inr ⟨s, hs, ?_⟩
      rw [hsignals, toInbound, h]
      exact List.mem_singleton_self _
    · rw [hroutes, Routes.inbound?_takeInbound, if_neg hid]
      exact Or.inl h
  rw [routes_react]
  cases e with
  | resumed s =>
    cases s with
    | register j =>
      rw [routesAfter]
      cases hl : c.labels[j]? with
      | none => exact Or.inl h
      | some l =>
        by_cases hid : l.id = id
        · exact Or.inr (Or.inr (Or.inr ⟨j, l, rfl, hl, hid⟩))
        · refine Or.inl ?_
          dsimp only
          rw [Routes.inbound?_insert, if_neg hid]
          exact h
    | detach id' =>
      by_cases hid : id' = id
      · exact Or.inr (Or.inr (Or.inl (by rw [hid])))
      · refine Or.inl ?_
        rw [routesAfter, Routes.inbound?_takeInbound, if_neg hid]
        exact h
    | fail id' fault => exact (htake rfl rfl rfl).imp_right Or.inl
    | receive f =>
      cases f with
      | complete id' => exact (htake rfl rfl rfl).imp_right Or.inl
      | error id' m => exact (htake rfl rfl rfl).imp_right Or.inl
      | next | requestN | cancel | requestResponse | requestStream | requestSubscription
      | fireAndForget | requestChannel => exact Or.inl h
    | detachLink id' =>
      rw [routesAfter, Routes.inbound?_takeOutbound]
      exact Or.inl h
    | drain reason =>
      obtain ⟨r, hr, hi⟩ := Routes.inbound?_eq_some.mp h
      refine Or.inr (Or.inl ⟨.error reason, rfl, ?_⟩)
      exact List.mem_filterMap.mpr ⟨_, Routes.mem_of_find? hr, by rw [hi]; rfl⟩
    | write | writeCancel | post | writeMessage | cancelProducer | askProducer | close =>
      exact Or.inl h
  | opened | openedChannel | asked | attached | heard | copied | released => exact Or.inl h

/-- **A link in the table stays there**, unless its producer is to be canceled, or another stream
object is entered for the same stream. -/
theorem outbound?_react {id : UInt32} (h : c.routes.outbound? id = some j) (e : Event Step) :
    (c.react e).1.routes.outbound? id = some j ∨ .resume (.cancelProducer j) ∈ (c.react e).2 ∨
      ∃ j' l, e = .resumed (.register j') ∧ c.labels[j']? = some l ∧ l.id = id := by
  rw [routes_react]
  cases e with
  | resumed s =>
    cases s with
    | register j' =>
      rw [routesAfter]
      cases hl : c.labels[j']? with
      | none => exact Or.inl h
      | some l =>
        by_cases hid : l.id = id
        · exact Or.inr (Or.inr ⟨j', l, rfl, hl, hid⟩)
        · refine Or.inl ?_
          dsimp only
          rw [Routes.outbound?_insert, if_neg hid]
          exact h
    | detachLink id' =>
      by_cases hid : id' = id
      · subst hid
        refine Or.inr (Or.inl ?_)
        rw [react, calls_detachLink, h]
        exact List.mem_singleton_self _
      · refine Or.inl ?_
        rw [routesAfter, Routes.outbound?_takeOutbound, if_neg hid]
        exact h
    | drain reason =>
      obtain ⟨r, hr, hj⟩ := Routes.outbound?_eq_some.mp h
      refine Or.inr (Or.inl (List.mem_flatMap.mpr ⟨_, Routes.mem_of_find? hr, ?_⟩))
      refine List.mem_append_right _ ?_
      rw [hj]
      exact List.mem_singleton_self _
    | detach id' | fail id' fault =>
      rw [routesAfter, Routes.outbound?_takeInbound]
      exact Or.inl h
    | receive f =>
      cases f with
      | complete | error =>
        rw [routesAfter, Routes.outbound?_takeInbound]
        exact Or.inl h
      | next | requestN | cancel | requestResponse | requestStream | requestSubscription
      | fireAndForget | requestChannel => exact Or.inl h
    | write | writeCancel | post | writeMessage | cancelProducer | askProducer | close =>
      exact Or.inl h
  | opened | openedChannel | asked | attached | heard | copied | released => exact Or.inl h

/-- Who is in the table was there before, or has just been entered. -/
theorem inbound?_of_react {id : UInt32} (h : (c.react e).1.routes.inbound? id = some i) :
    c.routes.inbound? id = some i ∨
      ∃ j l, e = .resumed (.register j) ∧ c.labels[j]? = some l ∧ l.id = id ∧ l.interaction = i := by
  have htake {id' : UInt32} (h : (c.routes.takeInbound id').1.inbound? id = some i) :
      c.routes.inbound? id = some i := by
    rw [Routes.inbound?_takeInbound] at h
    split at h
    · cases h
    · exact h
  rw [routes_react] at h
  cases e with
  | resumed s =>
    cases s with
    | register j =>
      rw [routesAfter] at h
      cases hl : c.labels[j]? with
      | none =>
        rw [hl] at h
        exact Or.inl h
      | some l =>
        rw [hl] at h
        dsimp only at h
        rw [Routes.inbound?_insert] at h
        split at h
        · exact Or.inr ⟨j, l, rfl, hl, ‹_›, Option.some.inj h⟩
        · exact Or.inl h
    | detach | fail => exact Or.inl (htake h)
    | receive f =>
      cases f with
      | complete | error => exact Or.inl (htake h)
      | next | requestN | cancel | requestResponse | requestStream | requestSubscription
      | fireAndForget | requestChannel => exact Or.inl h
    | detachLink id' =>
      rw [routesAfter, Routes.inbound?_takeOutbound] at h
      exact Or.inl h
    | drain reason => cases h
    | write | writeCancel | post | writeMessage | cancelProducer | askProducer | close =>
      exact Or.inl h
  | opened | openedChannel | asked | attached | heard | copied | released => exact Or.inl h

/-- A link that is in the table was there before, or has just been entered. -/
theorem outbound?_of_react {id : UInt32} (h : (c.react e).1.routes.outbound? id = some j) :
    c.routes.outbound? id = some j ∨
      ∃ l, e = .resumed (.register j) ∧ c.labels[j]? = some l ∧ l.id = id := by
  rw [routes_react] at h
  cases e with
  | resumed s =>
    cases s with
    | register j' =>
      rw [routesAfter] at h
      cases hl : c.labels[j']? with
      | none =>
        rw [hl] at h
        exact Or.inl h
      | some l =>
        rw [hl] at h
        dsimp only at h
        rw [Routes.outbound?_insert] at h
        split at h
        · obtain ⟨-, hj⟩ := Option.ite_none_right_eq_some.mp h
          obtain rfl := Option.some.inj hj
          exact Or.inr ⟨l, rfl, hl, ‹_›⟩
        · exact Or.inl h
    | detach | fail =>
      rw [routesAfter, Routes.outbound?_takeInbound] at h
      exact Or.inl h
    | receive f =>
      cases f with
      | complete | error =>
        rw [routesAfter, Routes.outbound?_takeInbound] at h
        exact Or.inl h
      | next | requestN | cancel | requestResponse | requestStream | requestSubscription
      | fireAndForget | requestChannel => exact Or.inl h
    | detachLink id' =>
      rw [routesAfter, Routes.outbound?_takeOutbound] at h
      split at h
      · cases h
      · exact Or.inl h
    | drain reason => cases h
    | write | writeCancel | post | writeMessage | cancelProducer | askProducer | close =>
      exact Or.inl h
  | opened | openedChannel | asked | attached | heard | copied | released => exact Or.inl h

/-- A stream object is entered for its consumer, and a channel for its link as well. -/
theorem routes_of_register {l : Label} (h : c.labels[j]? = some l) :
    (c.react (.resumed (.register j))).1.routes.inbound? l.id = some l.interaction ∧
      (l.kind = .channel → (c.react (.resumed (.register j))).1.routes.outbound? l.id = some j) := by
  rw [routes_react, routesAfter, h]
  dsimp only
  rw [Routes.inbound?_insert, if_pos rfl, Routes.outbound?_insert, if_pos rfl]
  exact ⟨rfl, fun hk => if_pos hk⟩

end Connection
end Client
end StreamConformance
