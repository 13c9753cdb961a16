import StreamConformance.Proofs.Channel.Links

/-!
# What is left to be done names links that there are

A connection leaves calls to be made, among them steps of its own that come back to it later.
Such a step may name a link, and a handle that was given to a producer names one as well.  All of
them name links that there are: a link comes before its handle, and stays.

* `Connection.AllowsTask`: what is left to be done fits the connection.
* `Connection.RoutesFit`: the route table names links that there are.
* `Connection.allowsCall_of_mem_react`: a connection makes only calls that fit it.
* `Connection.AllowsTask.react`: what fits a connection fits it ever after.
-/

namespace StreamConformance

open Wire (Frame)

namespace Client

/-! ## Routes -/

namespace Routes

/-- Every link in the table has the property `P`. -/
def Every (P : Nat → Prop) (t : Routes) : Prop :=
  ∀ x ∈ t.entries, ∀ j, x.2.outbound = some j → P j

variable {P : Nat → Prop} {t : Routes} {r : Route} {stream : UInt32}

theorem Every.mono {Q : Nat → Prop} (h : t.Every P) (hPQ : ∀ j, P j → Q j) : t.Every Q :=
  fun x hx j hj => hPQ j (h x hx j hj)

theorem Every.erase (h : t.Every P) (stream : UInt32) : (t.erase stream).Every P :=
  fun x hx => h x (List.mem_filter.mp hx).1

theorem Every.insert (h : t.Every P) (hr : ∀ j, r.outbound = some j → P j) (stream : UInt32) :
    (t.insert stream r).Every P := by
  intro x hx
  rcases List.mem_cons.mp hx with rfl | hx
  · exact hr
  · exact h.erase stream x hx

theorem Every.put (h : t.Every P) (hr : ∀ j, r.outbound = some j → P j) (stream : UInt32) :
    (t.put stream r).Every P := by
  unfold Routes.put
  split
  · exact h.erase stream
  · exact h.insert hr stream

theorem Every.find? (h : t.Every P) (hr : t.find? stream = some r) :
    ∀ j, r.outbound = some j → P j := by
  obtain ⟨x, hx, rfl⟩ := Option.map_eq_some_iff.mp hr
  exact h x (List.mem_of_find?_eq_some hx)

theorem Every.takeInbound (h : t.Every P) (stream : UInt32) :
    (t.takeInbound stream).1.Every P := by
  unfold Routes.takeInbound
  split
  · exact h
  · rename_i r hr
    have hout : ∀ j, r.outbound = some j → P j := h.find? hr
    exact Every.put (r := { r with inbound := none }) h hout stream

theorem Every.takeOutbound (h : t.Every P) (stream : UInt32) :
    (t.takeOutbound stream).1.Every P ∧
      ∀ j, (t.takeOutbound stream).2 = some j → P j := by
  unfold Routes.takeOutbound
  split
  · exact ⟨h, by rintro j ⟨⟩⟩
  · exact ⟨h.put (by rintro j ⟨⟩) stream, h.find? ‹_›⟩

end Routes

/-! ## What fits a connection -/

namespace Connection

variable {c : Connection} {i j k : Nat} {l : Link} {e : Event Step}

/-- The link of the stream object `j` serves the interaction `i`. -/
def Serves (i j : Nat) (c : Connection) : Prop :=
  ∃ l, c.link? j = some (i, l)

/-- The route table names links that there are. -/
def RoutesFit (c : Connection) : Prop :=
  c.routes.Every fun j => ∃ i, c.Serves i j

/-- A step that was left to be done: items go out through links only, and a link that is
named is there. -/
def AllowsStep (c : Connection) : Step → Prop
  | .write f => f.item? = none
  | .writeMessage _ f => f.item? = none
  | .cancelProducer j => ∃ i, c.Serves i j
  | _ => True

/-- An event whose link is there. -/
def AllowsEvent (c : Connection) : Event Step → Prop
  | .attached r i => c.Serves i r.stream
  | .heard r _ => ∃ i, c.Serves i r.stream
  | .resumed s => c.AllowsStep s
  | _ => True

/-- A call whose link is there. -/
def AllowsCall (c : Connection) : Call Step → Prop
  | .attach i r => c.Serves i r.stream
  | .resume s => c.AllowsStep s
  | .raise _ => False
  | _ => True

/-- A task whose link is there. -/
def AllowsTask (c : Connection) : Task Step → Prop
  | .call cl => c.AllowsCall cl
  | .tell e => c.AllowsEvent e
  | _ => True

theorem isSilent_of_allowsEvent (h : c.AllowsEvent e) (hj : c.link? j = none) :
    IsSilent j e := by
  have hne (i k : Nat) (hk : c.Serves i k) : k ≠ j := by
    rintro rfl
    obtain ⟨l, hl⟩ := hk
    rw [hj] at hl
    cases hl
  cases e with
  | attached r i => exact isSilent_of_not_concerned (by simpa [concerned?] using hne _ _ h)
  | heard r s =>
    obtain ⟨i, hi⟩ := h
    exact isSilent_of_not_concerned (by simpa [concerned?] using hne _ _ hi)
  | resumed s =>
    cases s with
    | cancelProducer k =>
      obtain ⟨i, hi⟩ := h
      exact isSilent_of_not_concerned (by simpa [concerned?] using hne _ _ hi)
    | _ => exact isSilent_of_not_concerned (by simp [concerned?])
  | asked h a => exact ⟨rfl, rfl, rfl, rfl⟩
  | opened | openedChannel | copied | released =>
    exact isSilent_of_not_concerned (by simp [concerned?])

/-- What becomes of a link, if it is there already or still to come. -/
theorem linkAt_react_of_allowsEvent (h : c.AllowsEvent e) (j : Nat) :
    (c.linkAt j).Becomes j e ((c.react e).1.linkAt j) :=
  linkAt_react (isSilent_of_allowsEvent h)

/-! ### What fits goes on to fit -/

section Mono

variable {c' : Connection} (hc : ∀ i j, c.Serves i j → c'.Serves i j)
include hc

theorem AllowsStep.mono {s : Step} (h : c.AllowsStep s) : c'.AllowsStep s := by
  cases s with
  | cancelProducer j =>
    obtain ⟨i, hi⟩ := h
    exact ⟨i, hc i j hi⟩
  | _ => exact h

theorem AllowsEvent.mono (h : c.AllowsEvent e) : c'.AllowsEvent e := by
  cases e with
  | attached r i => exact hc _ _ h
  | heard r s =>
    obtain ⟨i, hi⟩ := h
    exact ⟨i, hc _ _ hi⟩
  | resumed s => exact AllowsStep.mono hc h
  | _ => exact h

theorem AllowsCall.mono {cl : Call Step} (h : c.AllowsCall cl) : c'.AllowsCall cl := by
  cases cl with
  | attach i r => exact hc _ _ h
  | resume s => exact AllowsStep.mono hc h
  | _ => exact h

theorem AllowsTask.mono {t : Task Step} (h : c.AllowsTask t) : c'.AllowsTask t := by
  cases t with
  | call cl => exact AllowsCall.mono hc h
  | tell e => exact AllowsEvent.mono hc h
  | _ => exact h

end Mono

theorem Serves.react (h : c.Serves i j) (e : Event Step) : (c.react e).1.Serves i j := by
  obtain ⟨l, hl⟩ := h
  obtain ⟨l', hl', -⟩ := link?_react e hl
  exact ⟨l', hl'⟩

/-! ### What a connection makes of its table -/

theorem routes_sendOr (f : Frame) (o : Fault → List (Call Step)) (c : Connection) :
    (c.sendOr f o).1.routes = c.routes := by
  rw [sendOr_eq]
  cases c.refusal? f <;> rfl

theorem routes_atLink {f : Stream → Link → Connection → Result}
    (hf : ∀ s l, (f s l c).1.routes = c.routes) (k : Nat) :
    (c.atLink k f).1.routes = c.routes := by
  unfold atLink atStream
  split
  · rfl
  · dsimp only
    split
    · exact hf _ _
    · rfl

theorem routes_writeLink (k : Nat) (d : UInt32 → Link → Link × Option Frame)
    (o : UInt32 → Fault → List (Call Step)) (c : Connection) :
    (c.writeLink k d o).1.routes = c.routes := by
  refine routes_atLink (fun s l => ?_) k
  split
  · rfl
  · exact routes_sendOr ..

theorem routes_asked (k : Nat) (a : Ask) (c : Connection) :
    (c.asked k a).1.routes = c.routes := by
  unfold asked atStream
  split
  · rfl
  · dsimp only
    split
    · rfl
    · rfl
    · exact routes_writeLink ..
    · split <;> rfl
    · rfl

theorem every_routes_step {P : Nat → Prop} (h : c.routes.Every P) (s : Step)
    (hs : ∀ j, s = .register j → (∃ i, c.Serves i j) → P j) : (c.step s).1.routes.Every P := by
  cases s with
  | register k =>
    show (c.atStream k _).1.routes.Every P
    unfold atStream
    split
    · exact h
    · rename_i s hk
      refine h.insert (fun j hj => ?_) _
      dsimp only at hj
      split at hj
      · rename_i l hl
        obtain rfl := Option.some.inj hj
        exact hs k rfl ⟨_, l, link?_of_side hk hl⟩
      · cases hj
  | write f =>
    rw [step, routes_sendOr]
    exact h
  | writeCancel stream =>
    rw [step, routes_sendOr]
    exact h
  | writeMessage i f =>
    rw [step, send_eq]
    cases c.refusal? f <;> exact h
  | receive f =>
    cases f with
    | complete | error => exact h.takeInbound _
    | _ => exact h
  | detach stream => exact h.takeInbound stream
  | fail stream fault => exact h.takeInbound stream
  | detachLink stream => exact (h.takeOutbound stream).1
  | cancelProducer k =>
    rw [step, routes_atLink fun _ _ => rfl]
    exact h
  | askProducer k n =>
    rw [step, routes_atLink fun _ _ => rfl]
    exact h
  | drain reason => exact fun x hx => by cases hx
  | post | close => exact h

theorem every_routes_react {P : Nat → Prop} (h : c.routes.Every P) (e : Event Step)
    (he : ∀ j, e = .resumed (.register j) → (∃ i, c.Serves i j) → P j) :
    (c.react e).1.routes.Every P := by
  cases e with
  | opened k kind p i => cases kind <;> exact h
  | asked g a =>
    rw [react, routes_asked]
    exact h
  | attached r i =>
    rw [react, attached, routes_atLink fun _ _ => rfl]
    exact h
  | heard r s =>
    rw [react]
    cases s <;> (rw [heard, routes_writeLink]; exact h)
  | resumed s => exact every_routes_step h s fun j hj => he j (congrArg _ hj)
  | openedChannel | copied | released => exact h

/-- **The table names links that there are**, whatever happens. -/
theorem RoutesFit.react (h : c.RoutesFit) (e : Event Step) : (c.react e).1.RoutesFit := by
  have hmono (j : Nat) : (∃ i, c.Serves i j) → ∃ i, (c.react e).1.Serves i j :=
    fun ⟨i, hi⟩ => ⟨i, hi.react e⟩
  exact every_routes_react (h.mono hmono) e fun j _ => hmono j

/-! ### What a connection leaves to be done -/

theorem mem_sendOr {f : Frame} {o : Fault → List (Call Step)} {cl : Call Step}
    (h : cl ∈ (c.sendOr f o).2) : ∃ fault, cl ∈ o fault := by
  rw [sendOr_eq] at h
  split at h
  · cases h
  · exact ⟨_, h⟩

theorem mem_atLink {f : Stream → Link → Connection → Result} {cl : Call Step}
    (h : cl ∈ (c.atLink k f).2) :
    ∃ s l, c.streams[k]? = some s ∧ s.side = .channel l ∧ cl ∈ (f s l c).2 := by
  unfold atLink atStream at h
  split at h
  · cases h
  · dsimp only at h
    split at h
    · exact ⟨_, _, ‹_›, ‹_›, h⟩
    · cases h

theorem mem_writeLink {d : UInt32 → Link → Link × Option Frame}
    {o : UInt32 → Fault → List (Call Step)} {cl : Call Step}
    (h : cl ∈ (c.writeLink k d o).2) : ∃ id fault, cl ∈ o id fault := by
  obtain ⟨s, l, -, -, h⟩ := mem_atLink h
  split at h
  · cases h
  · obtain ⟨fault, h⟩ := mem_sendOr h
    exact ⟨_, fault, h⟩

theorem allowsCall_of_mem_failStream {id : UInt32} {fault : Fault} {cl : Call Step}
    (h : cl ∈ failStream id fault) : c.AllowsCall cl := by
  rw [List.mem_singleton.mp h]
  trivial

/-- The frames of a request are not those of a channel. -/
theorem item?_of_request {r : Request} {id : UInt32} {n : Nat} {f : Frame}
    (h : (r.request id n).2 = some f) : f.item? = none := by
  unfold Request.request at h
  split at h
  · cases h
  · split at h
    · cases h
      cases r.kind <;> rfl
    · dsimp only at h
      split at h
      · cases h
      · cases h
        rfl
    · cases h

theorem allowsCall_of_mem_asked {a : Ask} {cl : Call Step} (h : cl ∈ (c.asked k a).2) :
    c.AllowsCall cl := by
  unfold asked atStream at h
  split at h
  · cases h
  · dsimp only at h
    split at h
    · rw [Option.mem_toList, Option.map_eq_some_iff] at h
      obtain ⟨f, hf, rfl⟩ := h
      exact item?_of_request hf
    · rcases List.mem_cons.mp h with rfl | h
      · trivial
      · split at h
        · rw [List.mem_singleton.mp h]
          trivial
        · cases h
    · obtain ⟨id, fault, h⟩ := mem_writeLink h
      exact allowsCall_of_mem_failStream h
    · split at h
      · cases h
      · rcases List.mem_cons.mp h with rfl | h
        · trivial
        · split at h
          · rw [List.mem_singleton.mp h]
            trivial
          · cases h
    · cases h

theorem allowsCall_of_mem_heard {s : Signal Payload} {cl : Call Step}
    (h : cl ∈ (c.heard k s).2) : c.AllowsCall cl := by
  cases s <;> obtain ⟨id, fault, h⟩ := mem_writeLink h
  · exact allowsCall_of_mem_failStream h
  · cases h
  · cases h

theorem allowsCall_of_mem_endInbound {stream : UInt32} {s : Signal Payload} {cl : Call Step}
    (h : cl ∈ (c.endInbound stream s).2) : c.AllowsCall cl := by
  rw [endInbound, Option.mem_toList, Option.map_eq_some_iff] at h
  obtain ⟨i, -, rfl⟩ := h
  trivial

theorem allowsCall_of_mem_receive {f : Frame} {cl : Call Step} (h : cl ∈ (c.receive f).2) :
    c.AllowsCall cl := by
  cases f with
  | next stream p =>
    rw [receive, Option.mem_toList, Option.map_eq_some_iff] at h
    obtain ⟨i, -, rfl⟩ := h
    trivial
  | requestN stream n =>
    rw [receive, Option.mem_toList, Option.map_eq_some_iff] at h
    obtain ⟨i, -, rfl⟩ := h
    trivial
  | complete stream => exact allowsCall_of_mem_endInbound h
  | error stream m =>
    rcases List.mem_append.mp h with h | h
    · exact allowsCall_of_mem_endInbound h
    · rw [List.mem_singleton.mp h]
      trivial
  | cancel stream =>
    rw [List.mem_singleton.mp h]
    trivial
  | requestResponse | requestStream | requestSubscription | fireAndForget | requestChannel =>
    cases h

theorem allowsCall_of_mem_endRoute {reason : String} {r : Route} {cl : Call Step}
    (hr : ∀ j, r.outbound = some j → ∃ i, c.Serves i j) (h : cl ∈ endRoute reason r) :
    c.AllowsCall cl := by
  rcases List.mem_append.mp h with h | h
  · rw [Option.mem_toList, Option.map_eq_some_iff] at h
    obtain ⟨i, -, rfl⟩ := h
    trivial
  · rw [Option.mem_toList, Option.map_eq_some_iff] at h
    obtain ⟨j, hj, rfl⟩ := h
    exact hr j hj

theorem allowsCall_of_mem_step (hr : c.RoutesFit) {s : Step} {cl : Call Step}
    (h : cl ∈ (c.step s).2) : c.AllowsCall cl := by
  cases s with
  | register k =>
    rw [step, atStream] at h
    split at h <;> cases h
  | write f =>
    obtain ⟨fault, h⟩ := mem_sendOr h
    exact allowsCall_of_mem_failStream h
  | writeCancel stream =>
    obtain ⟨fault, h⟩ := mem_sendOr h
    cases h
  | fail stream fault => exact allowsCall_of_mem_endInbound h
  | post i p =>
    rw [List.mem_singleton.mp h]
    exact rfl
  | writeMessage i f =>
    rw [step] at h
    split at h <;> (rw [List.mem_singleton.mp h]; trivial)
  | receive f => exact allowsCall_of_mem_receive h
  | detachLink stream =>
    rw [step, Option.mem_toList, Option.map_eq_some_iff] at h
    obtain ⟨j, hj, rfl⟩ := h
    exact (Routes.Every.takeOutbound hr stream).2 j hj
  | cancelProducer k =>
    obtain ⟨s, l, -, -, h⟩ := mem_atLink h
    dsimp only at h
    split at h
    · rw [List.mem_singleton.mp h]
      trivial
    · cases h
  | askProducer k n =>
    obtain ⟨s, l, -, -, h⟩ := mem_atLink h
    dsimp only at h
    split at h
    · rw [List.mem_singleton.mp h]
      trivial
    · cases h
  | close reason =>
    rw [List.mem_singleton.mp h]
    trivial
  | drain reason =>
    obtain ⟨x, hx, h⟩ := List.mem_flatMap.mp h
    exact allowsCall_of_mem_endRoute (hr x hx) h
  | detach => cases h

/-- **A connection makes only calls that fit it.** -/
theorem allowsCall_of_mem_react (hr : c.RoutesFit) {cl : Call Step} (h : cl ∈ (c.react e).2) :
    (c.react e).1.AllowsCall cl := by
  have hmono := fun i j (hs : c.Serves i j) => hs.react e
  cases e with
  | opened n kind p i =>
    refine AllowsCall.mono hmono ?_
    cases kind <;>
    · rcases List.mem_cons.mp h with rfl | h
      · trivial
      · rw [List.mem_singleton.mp h]
        trivial
  | openedChannel n i =>
    have hlink : (c.openedChannel i).1.link? c.streams.size = some (i, {}) := by
      have hpush := link?_push (c := c)
        { id := c.nextStream, interaction := i, side := .channel {} } (c.nextStream + 2)
        c.streams.size
      rw [if_pos rfl] at hpush
      exact hpush
    simp only [react, openedChannel, addStream, List.mem_cons, List.not_mem_nil, or_false] at h
    rcases h with rfl | rfl | rfl
    · trivial
    · trivial
    · exact ⟨_, hlink⟩
  | asked g a => exact AllowsCall.mono hmono (allowsCall_of_mem_asked h)
  | attached r i =>
    obtain ⟨s, l, -, -, h⟩ := mem_atLink h
    rw [List.mem_singleton.mp h]
    trivial
  | heard r s => exact AllowsCall.mono hmono (allowsCall_of_mem_heard h)
  | resumed s => exact AllowsCall.mono hmono (allowsCall_of_mem_step hr h)
  | copied | released => cases h

/-! ### Producers that are told to stop -/

/-- A producer that comes too late is told so. -/
theorem ask_of_attached {r : Handle} {n : Nat} (hl : c.link? r.stream = some (i, l))
    (h : l.outboundDone = true ∨ l.attached = true) :
    .ask i .cancel ∈ (c.react (.attached r n)).2 := by
  obtain ⟨s, hs, rfl, hside⟩ := link?_eq_some.mp hl
  have hcond : (l.outboundDone || l.attached) = true := by
    rw [Bool.or_eq_true]
    exact h
  simp [react, attached, atLink, atStream, hs, hside, Link.attach, hcond]

/-- A producer whose subscription is in use is told when it is no longer wanted. -/
theorem ask_of_cancelProducer (hl : c.link? j = some (i, l)) (h : l.attached = true) :
    .ask i .cancel ∈ (c.react (.resumed (.cancelProducer j))).2 := by
  obtain ⟨s, hs, rfl, hside⟩ := link?_eq_some.mp hl
  simp [react, step, atLink, atStream, hs, hside, Link.cancelOutbound, h]

end Connection
end Client
end StreamConformance
