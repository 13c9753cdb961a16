import StreamConformance.Proofs.Channel.History
import StreamConformance.Proofs.Client.Numbers

/-!
# A connection that is told things in any order

What the program around a connection does is left open here.  Consumers open streams and ask for
items as they like, producers signal what they like, any frame may arrive, and the steps that the
connection has left to be done are taken one by one in any order, each of them some time after the
section that left it.  All that holds of such traffic holds however threads are scheduled.

Every frame carries a number that was handed out.  So as long as a number is handed out once, it is
only the stream with this number whose frames carry it.

* `Traffic`, `Traffic.Turn`, `Traffic.Run`: a connection, its steps to be taken, and what happens.
* `Connection.issues_of_mem`, `Connection.frame?_cases`: how a step comes about that writes a frame,
  and which frames are written on an event.
* `Link.input?`, `Chronicle.history`: what an event is to a link, and all that has happened to it.
* `Chronicle.handedOut`, `Chronicle.Exclusive`: the numbers that were handed out.
* `Traffic.Sound`, `Traffic.sound_of_run`: what holds of a connection at any time.
* `Traffic.play`, `Traffic.run_play`: given events, one after another.
-/

namespace StreamConformance

/-- The step that a call comes back with. -/
def Call.step? {τ : Type} : Call τ → Option τ
  | .resume s => some s
  | _ => none

/-- The step that is taken on an event. -/
def Event.step? {τ : Type} : Event τ → Option τ
  | .resumed s => some s
  | _ => none

theorem Event.count_step?_eq_zero {τ : Type} [DecidableEq τ] {s : τ} {e : Event τ}
    (h : e ≠ .resumed s) : e.step?.toList.count s = 0 := by
  rw [List.count_eq_zero, Option.mem_toList]
  intro hmem
  cases e with
  | resumed s' =>
    cases hmem
    exact h rfl
  | _ => cases hmem

theorem Call.mem_filterMap_step? {τ : Type} {s : τ} {cls : List (Call τ)} :
    s ∈ cls.filterMap Call.step? ↔ .resume s ∈ cls := by
  rw [List.mem_filterMap]
  constructor
  · rintro ⟨cl, hcl, hs⟩
    unfold Call.step? at hs
    split at hs <;> cases hs
    exact hcl
  · exact fun h => ⟨_, h, rfl⟩

namespace Client

open Wire (Frame)

/-! ## Steps that write a frame -/

/-- The frame that is written by a step. -/
def Step.frame? : Step → Option Frame
  | .write f => some f
  | .writeCancel id => some (.cancel id)
  | .writeMessage _ f => some f
  | _ => none

/-- A request goes out on its own stream. -/
theorem Request.stream_of_request {r : Request} {id : UInt32} {n : Nat} {f : Frame}
    (h : (r.request id n).2 = some f) : f.stream = id := by
  unfold Request.request at h
  split at h
  · cases h
  · split at h
    · cases h
      cases r.kind <;> rfl
    · dsimp only at h
      split at h <;> cases h
      rfl
    · cases h

namespace Connection

variable {c : Connection} {i j : Nat} {e : Event Step} {s : Step} {f : Frame}

theorem frame?_resumed (s : Step) (c : Connection) :
    c.frame? (.resumed s) = s.frame?.map fun f => (none, f) := by
  cases s <;> rfl

/-- How a step comes about that writes a frame. -/
inductive Issues (c : Connection) : Event Step → Step → Frame → Prop where
  | request {g : Handle} {a : Ask} {l : Label} {s : Step} {f : Frame}
      (hl : c.labels[g.stream]? = some l) (hk : l.kind = .request) (hid : f.stream = l.id) :
      Issues c (.asked g a) s f
  | cancel {g : Handle} {l : Label} (hl : c.labels[g.stream]? = some l) (hk : l.kind = .channel) :
      Issues c (.asked g .cancel) (.writeCancel l.id) (.cancel l.id)
  | message (i : Nat) (p : Payload) :
      Issues c (.resumed (.post i p)) (.writeMessage i (.fireAndForget c.nextStream p))
        (.fireAndForget c.nextStream p)

theorem issues_of_mem_asked {g : Handle} {a : Ask} (h : .resume s ∈ (c.asked g.stream a).2)
    (hf : s.frame? = some f) : c.Issues (.asked g a) s f := by
  cases hs : c.streams[g.stream]? with
  | none =>
    rw [asked, atStream, hs] at h
    cases h
  | some x =>
    have hlabel : c.labels[g.stream]? = some x.label := by
      rw [getElem?_labels, hs]
      rfl
    have hcancel {b : Bool} (hcl : Call.resume s ∈ (Call.resume (.detach x.id) ::
        if b then [Call.resume (.writeCancel x.id)] else [])) : s = .writeCancel x.id := by
      rcases List.mem_cons.mp hcl with heq | hcl
      · cases heq
        cases hf
      · split at hcl
        · cases List.mem_singleton.mp hcl
          rfl
        · cases hcl
    rw [asked, atStream, hs] at h
    dsimp only at h
    split at h
    · rename_i r n hr
      rw [Option.mem_toList, Option.map_eq_some_iff] at h
      obtain ⟨f', hf', heq⟩ := h
      cases heq
      cases hf
      exact .request hlabel (by rw [Stream.label, hr]; rfl) (Request.stream_of_request hf')
    · rename_i r hr
      obtain rfl := hcancel h
      cases hf
      exact .request hlabel (by rw [Stream.label, hr]; rfl) rfl
    · obtain ⟨id, fault, h⟩ := mem_writeLink h
      cases List.mem_singleton.mp h
      cases hf
    · rename_i l hr
      split at h
      · cases h
      · obtain rfl := hcancel h
        cases hf
        exact .cancel hlabel (by rw [Stream.label, hr]; rfl)
    · cases h

/-- **How a step comes about that writes a frame**: by a request, by the consumer of an open channel
that cancels, or by a message. -/
theorem issues_of_mem (h : .resume s ∈ (c.react e).2) (hf : s.frame? = some f) :
    c.Issues e s f := by
  by_cases hasked : ∃ g a, e = .asked g a
  · obtain ⟨g, a, rfl⟩ := hasked
    exact issues_of_mem_asked h hf
  · cases makes_of_mem h with
    | write g n => exact absurd ⟨g, _, rfl⟩ hasked
    | @writeCancel g => exact absurd ⟨g, _, rfl⟩ hasked
    | message i p =>
      cases hf
      exact .message i p
    | _ => cases hf

/-- **Which frames are written on an event**: those of the steps, and those on which the link
decides that the event concerns. -/
theorem frame?_cases {k : Option Nat} (h : c.frame? e = some (k, f)) :
    (k = none ∧ ∃ s, e = .resumed s ∧ s.frame? = some f) ∨
      ∃ j l, k = some j ∧ concerned? e = some j ∧ c.labels[j]? = some l ∧ l.kind = .channel ∧
        f.stream = l.id := by
  have hlink (he : c.frame? e = (c.linkFrame? e).map fun f => (concerned? e, f)) :
      ∃ j l, k = some j ∧ concerned? e = some j ∧ c.labels[j]? = some l ∧ l.kind = .channel ∧
        f.stream = l.id := by
    rw [he, Option.map_eq_some_iff] at h
    obtain ⟨f', hf', heq⟩ := h
    obtain ⟨rfl, rfl⟩ := Prod.mk.inj heq
    obtain ⟨j, i, l, hj, hl, -⟩ := fitsLink_of_linkFrame? hf'
    obtain ⟨s, hs, -, hside⟩ := link?_eq_some.mp hl
    rw [linkFrame?_of_link hj hs hside, Option.bind_eq_some_iff] at hf'
    obtain ⟨d, hd, hdf⟩ := hf'
    refine ⟨j, s.label, hj, hj, by rw [getElem?_labels, hs]; rfl,
      by rw [Stream.label, hside]; rfl, ?_⟩
    exact stream_of_decision hd hdf
  cases e with
  | resumed s =>
    rw [frame?_resumed, Option.map_eq_some_iff] at h
    obtain ⟨f', hf', heq⟩ := h
    obtain ⟨rfl, rfl⟩ := Prod.mk.inj heq
    exact Or.inl ⟨rfl, s, rfl, hf'⟩
  | opened | openedChannel | asked | attached | heard | copied | released =>
    exact Or.inr (hlink rfl)

end Connection

/-! ## What happens to a link -/

/-- What an event is to the link of the stream object `j`. -/
def Link.input? (j : Nat) : Event Step → Option Link.Input
  | .asked g (.request n) => if g.stream = j then some (.grant n) else none
  | .asked g .cancel => if g.stream = j then some .cancel else none
  | .attached r _ => if r.stream = j then some .attach else none
  | .heard r (.next p) => if r.stream = j then some (.item p) else none
  | .heard r .complete => if r.stream = j then some (.finish none) else none
  | .heard r (.error message) => if r.stream = j then some (.finish (some message)) else none
  | .resumed (.cancelProducer k) => if k = j then some .dismiss else none
  | _ => none

/-- An event, and what it is to the link of a stream object. -/
inductive Link.Brings : Nat → Event Step → Link.Input → Prop where
  | grant (g : Handle) (n : Nat) : Link.Brings g.stream (.asked g (.request n)) (.grant n)
  | cancel (g : Handle) : Link.Brings g.stream (.asked g .cancel) .cancel
  | attach (r : Handle) (i : Nat) : Link.Brings r.stream (.attached r i) .attach
  | item (r : Handle) (p : Payload) : Link.Brings r.stream (.heard r (.next p)) (.item p)
  | complete (r : Handle) : Link.Brings r.stream (.heard r .complete) (.finish none)
  | error (r : Handle) (message : String) :
      Link.Brings r.stream (.heard r (.error message)) (.finish (some message))
  | dismiss (j : Nat) : Link.Brings j (.resumed (.cancelProducer j)) .dismiss

theorem Link.brings_of_input? {j : Nat} {e : Event Step} {x : Link.Input}
    (h : Link.input? j e = some x) : Link.Brings j e x := by
  have hbrings {P : Prop} [Decidable P] {y : Link.Input} (hP : P → Link.Brings j e y)
      (h : (if P then some y else none) = some x) : Link.Brings j e x := by
    obtain ⟨hp, hy⟩ := Option.ite_none_right_eq_some.mp h
    rw [← Option.some.inj hy]
    exact hP hp
  unfold Link.input? at h
  split at h
  · exact hbrings (fun hj => hj ▸ .grant ..) h
  · exact hbrings (fun hj => hj ▸ .cancel ..) h
  · exact hbrings (fun hj => hj ▸ .attach ..) h
  · exact hbrings (fun hj => hj ▸ .item ..) h
  · exact hbrings (fun hj => hj ▸ .complete ..) h
  · exact hbrings (fun hj => hj ▸ .error ..) h
  · exact hbrings (fun hj => hj ▸ .dismiss ..) h
  · cases h

/-- An event concerns a link to which it is something. -/
theorem Link.input?_isSome_iff {j : Nat} {e : Event Step} :
    (∃ x, Link.input? j e = some x) ↔ concerned? e = some j := by
  cases e with
  | asked g a => cases a <;> simp [Link.input?, concerned?]
  | heard r s => cases s <;> simp [Link.input?, concerned?]
  | resumed s => cases s <;> simp [Link.input?, concerned?]
  | opened | openedChannel | attached | copied | released => simp [Link.input?, concerned?]

/-- A step that is taken without being left to be done: the reader takes it of its own accord. -/
def Step.isFree : Step → Bool
  | .receive _ => true
  | .close _ => true
  | _ => false

/-- An event that may come from outside: it concerns what is there, and no step is taken that has
not been left to be done. -/
def Connection.Expects (c : Connection) : Event Step → Prop
  | .asked g _ => g.stream < c.labels.length
  | .resumed s => s.isFree = true
  | e => c.AllowsEvent e

namespace Chronicle

variable {r : Chronicle} {e : Event Step} {id : UInt32} {j : Nat} {l : Label}

/-- What has happened to the link of the stream object `j`, in order. -/
def history (j : Nat) (r : Chronicle) : List Link.Input :=
  r.told.filterMap (Link.input? j)

theorem history_react (e : Event Step) (r : Chronicle) (j : Nat) :
    (r.react e).1.history j = r.history j ++ (Link.input? j e).toList := by
  rw [history, react, List.filterMap_append, history]
  cases h : Link.input? j e <;> simp [h]

/-! ## Numbers that were handed out -/

/-- The numbers that were handed out, in order. -/
def handedOut (r : Chronicle) : List UInt32 :=
  (List.range r.allotted).map streamNumber

/-- A number was handed out once at most. -/
def Exclusive (id : UInt32) (r : Chronicle) : Prop :=
  r.handedOut.count id ≤ 1

instance (id : UInt32) (r : Chronicle) : Decidable (r.Exclusive id) :=
  inferInstanceAs (Decidable (_ ≤ _))

/-- As long as there are enough numbers, none is handed out twice. -/
theorem exclusive_of_allotted_le (h : r.allotted ≤ 2 ^ 31) (id : UInt32) : r.Exclusive id :=
  List.nodup_iff_count_le_one.mp (nodup_streamNumber h) id

theorem handedOut_react (h : r.Numbered) (e : Event Step) :
    (r.react e).1.handedOut =
      r.handedOut ++ if allots e then [r.connection.nextStream] else [] := by
  rw [handedOut, allotted_react, handedOut]
  cases allots e with
  | false => exact (List.append_nil _).symm
  | true => rw [if_pos rfl, if_pos rfl, List.range_succ, List.map_append, h.next]; rfl

theorem mem_handedOut_react (h : r.Numbered) (hid : id ∈ r.handedOut) :
    id ∈ (r.react e).1.handedOut := by
  rw [handedOut_react h]
  exact List.mem_append_left _ hid

theorem nextStream_mem_handedOut (h : r.Numbered) (he : allots e = true) :
    r.connection.nextStream ∈ (r.react e).1.handedOut := by
  rw [handedOut_react h, he]
  exact List.mem_append_right _ (List.mem_singleton_self _)

theorem Exclusive.of_react (hex : (r.react e).1.Exclusive id) (h : r.Numbered) :
    r.Exclusive id := by
  rw [Exclusive, handedOut_react h, List.count_append] at hex
  exact Nat.le_trans (Nat.le_add_right _ _) hex

/-- A number that was handed out once is not handed out again. -/
theorem Exclusive.ne_nextStream (hex : (r.react e).1.Exclusive id) (h : r.Numbered)
    (he : allots e = true) (hid : id ∈ r.handedOut) : r.connection.nextStream ≠ id := by
  rintro rfl
  rw [Exclusive, handedOut_react h, he, List.count_append] at hex
  have hone : (if true = true then [r.connection.nextStream] else []).count
      r.connection.nextStream = 1 := by simp
  have hpos := List.count_pos_iff.mpr hid
  omega

/-- A stream object has a number that was handed out. -/
theorem Numbered.mem_handedOut (h : r.Numbered) (hl : r.connection.labels[j]? = some l)
    (hk : l.kind ≠ .detached) : l.id ∈ r.handedOut :=
  h.numbers.subset <| List.mem_map_of_mem <|
    List.mem_filter.mpr ⟨List.mem_of_getElem? hl, by simpa using hk⟩

/-- No stream object shares a number that was handed out once. -/
theorem Numbered.unshared (h : r.Numbered) (hl : r.connection.labels[j]? = some l)
    (hk : l.kind ≠ .detached) (hex : r.Exclusive l.id) : r.connection.Unshared j := by
  intro j' m l' hm hl' hid
  obtain rfl := Option.some.inj (hl.symm.trans hm)
  have hk' : l'.kind ≠ .detached := by
    intro hdetached
    have hmem := h.mem_handedOut hl hk
    rw [← hid, h.detached l' (List.mem_of_getElem? hl') hdetached] at hmem
    obtain ⟨n, -, hn⟩ := List.mem_map.mp hmem
    have hodd := odd_streamNumber n
    rw [hn] at hodd
    cases hodd
  have hone : r.connection.labels.countP (fun m => m.id == l.id && m.kind != .detached) ≤ 1 := by
    have hcount : r.numbers.count l.id ≤ 1 := Nat.le_trans (h.numbers.count_le l.id) hex
    rwa [Chronicle.numbers, List.count, List.countP_map, List.countP_filter] at hcount
  have hle := not_lt_of_countP_le_one hone hl hl' (by simp [hk]) (by simp [hk', hid])
  have hge := not_lt_of_countP_le_one hone hl' hl (by simp [hk', hid]) (by simp [hk])
  omega

/-! ## What fits a connection -/

/-- A step that may be taken. -/
structure FitsStep (r : Chronicle) (s : Step) : Prop where
  allows : r.connection.AllowsStep s
  stream : ∀ f, s.frame? = some f → f.stream ∈ r.handedOut

/-- An event that may happen. -/
def FitsEvent (r : Chronicle) : Event Step → Prop
  | .resumed s => r.FitsStep s
  | e => r.connection.Expects e

theorem fitsEvent_of_expects (h : r.connection.Expects e) : r.FitsEvent e := by
  cases e with
  | resumed s =>
    cases s with
    | receive f => exact ⟨trivial, by rintro f ⟨⟩⟩
    | close reason => exact ⟨trivial, by rintro f ⟨⟩⟩
    | _ => cases h
  | _ => exact h

theorem FitsEvent.allowsEvent (h : r.FitsEvent e) : r.connection.AllowsEvent e := by
  cases e with
  | resumed s => exact FitsStep.allows h
  | asked => trivial
  | _ => exact h

/-- What happens to a link happens to one that is there. -/
theorem FitsEvent.lt_length (h : r.FitsEvent e) (hj : concerned? e = some j) :
    j < r.connection.labels.length := by
  have hserves {i : Nat} (hs : r.connection.Serves i j) : j < r.connection.labels.length := by
    obtain ⟨l, hl, -⟩ := Connection.exists_label_of_serves hs
    exact (List.getElem?_eq_some_iff.mp hl).1
  cases e with
  | asked g a =>
    cases hj
    exact h
  | attached g i =>
    cases hj
    exact hserves h
  | heard g s =>
    cases hj
    obtain ⟨i, hi⟩ : ∃ i, r.connection.Serves i g.stream := h
    exact hserves hi
  | resumed s =>
    cases s with
    | cancelProducer k =>
      obtain rfl : k = j := Option.some.inj hj
      obtain ⟨i, hi⟩ : ∃ i, r.connection.Serves i k := FitsStep.allows h
      exact hserves hi
    | _ => cases hj
  | opened | openedChannel | copied | released => cases hj

theorem FitsStep.react {s : Step} (h : r.FitsStep s) (hnum : r.Numbered) (e : Event Step) :
    (r.react e).1.FitsStep s where
  allows := h.allows.mono fun _ _ hs => hs.react e
  stream f hf := mem_handedOut_react hnum (h.stream f hf)

/-- What is left to be done may be done. -/
theorem fitsStep_of_mem_react {s : Step} (hroutes : r.connection.RoutesFit) (hnum : r.Numbered)
    (h : .resume s ∈ (r.react e).2) : (r.react e).1.FitsStep s where
  allows := Connection.allowsCall_of_mem_react hroutes h
  stream f hf := by
    cases Connection.issues_of_mem h hf with
    | request hl hk hid =>
      rw [hid]
      exact mem_handedOut_react hnum (hnum.mem_handedOut hl (by simp [hk]))
    | cancel hl hk => exact mem_handedOut_react hnum (hnum.mem_handedOut hl (by simp [hk]))
    | message i p => exact nextStream_mem_handedOut hnum rfl

/-- Every frame carries a number that was handed out. -/
theorem FitsEvent.stream_mem (h : r.FitsEvent e) (hnum : r.Numbered) {a : Connection.Attempt}
    (ha : r.connection.attempt? e = some a) : a.frame.stream ∈ r.handedOut := by
  obtain ⟨⟨k, f⟩, hf, rfl⟩ := Option.map_eq_some_iff.mp ha
  obtain ⟨-, s, rfl, hs⟩ | ⟨j, l, -, -, hl, hk, hid⟩ := Connection.frame?_cases hf
  · exact FitsStep.stream h f hs
  · show f.stream ∈ r.handedOut
    rw [hid]
    exact hnum.mem_handedOut hl (by simp [hk])

end Chronicle

/-! ## Traffic -/

/-- A connection, and the steps that it has left to be done. -/
structure Traffic where
  far : Chronicle := {}
  todo : List Step := []

namespace Traffic

variable {t t' : Traffic} {e : Event Step} {rest : List Step}

/-- The connection is told an event, with the steps `rest` still to be taken. -/
def tell (e : Event Step) (rest : List Step) (t : Traffic) : Traffic where
  far := (t.far.react e).1
  todo := rest ++ (t.far.react e).2.filterMap Call.step?

/-- What happens next. -/
inductive Turn (t : Traffic) : Traffic → Prop where
  | told {e : Event Step} (h : t.far.connection.Expects e) : Turn t (t.tell e t.todo)
  /-- A step is taken that was left to be done. -/
  | taken {s : Step} (h : s ∈ t.todo) : Turn t (t.tell (.resumed s) (t.todo.erase s))
  /-- From now on nothing can be written. -/
  | severed (cause : String) : Turn t { t with far := t.far.sever cause }

/-- One thing happens after another. -/
abbrev Run : Traffic → Traffic → Prop :=
  Relation.ReflTransGen Turn

/-- What holds of a connection at any time. -/
structure Sound (t : Traffic) : Prop where
  routes : t.far.connection.RoutesFit
  numbered : t.far.Numbered
  faithful : t.far.Faithful
  todo : ∀ s ∈ t.todo, t.far.FitsStep s
  attempts : ∀ a ∈ t.far.attempts, a.frame.stream ∈ t.far.handedOut
  told : ∀ e ∈ t.far.told, ∀ j, concerned? e = some j → j < t.far.connection.labels.length

theorem sound_nil : Sound {} where
  routes := by rintro x ⟨⟩
  numbered := Chronicle.numbered_nil
  faithful := Chronicle.faithful_nil
  todo := by rintro s ⟨⟩
  attempts := by rintro a ⟨⟩
  told := by rintro e ⟨⟩

theorem Sound.tell (h : t.Sound) (he : t.far.FitsEvent e) (hrest : ∀ s ∈ rest, s ∈ t.todo) :
    (t.tell e rest).Sound where
  routes := h.routes.react e
  numbered := h.numbered.react e
  faithful := h.faithful.react he.allowsEvent
  todo := by
    intro s hs
    rcases List.mem_append.mp hs with hs | hs
    · exact (h.todo s (hrest s hs)).react h.numbered e
    · exact Chronicle.fitsStep_of_mem_react h.routes h.numbered (Call.mem_filterMap_step?.mp hs)
  attempts := by
    intro a ha
    refine Chronicle.mem_handedOut_react h.numbered ?_
    rcases List.mem_append.mp ha with ha | ha
    · exact h.attempts a ha
    · exact he.stream_mem h.numbered (Option.mem_toList.mp ha)
  told := by
    intro e' he' j hj
    have hmore : t.far.connection.labels.length ≤ (t.tell e rest).far.connection.labels.length := by
      show _ ≤ (t.far.connection.react e).1.labels.length
      rw [Connection.labels_react, List.length_append]
      exact Nat.le_add_right _ _
    refine Nat.lt_of_lt_of_le ?_ hmore
    rcases List.mem_append.mp he' with he' | he'
    · exact h.told e' he' j hj
    · rw [List.mem_singleton.mp he'] at hj
      exact he.lt_length hj

theorem Sound.sever (h : t.Sound) (cause : String) :
    Sound { t with far := t.far.sever cause } where
  routes := h.routes
  numbered := ⟨h.numbered.next, h.numbered.numbers, h.numbered.detached⟩
  faithful := h.faithful.sever cause
  todo s hs := ⟨(h.todo s hs).allows, (h.todo s hs).stream⟩
  attempts := h.attempts
  told := h.told

/-- A turn in which the connection is told something. -/
structure Tells (t : Traffic) (e : Event Step) (rest : List Step) : Prop where
  fits : t.far.FitsEvent e
  subset : ∀ s ∈ rest, s ∈ t.todo
  /-- No step is forgotten. -/
  kept : ∀ s ∈ t.todo, s ∈ rest ∨ e = .resumed s
  expected : t.far.connection.Expects e ∨ ∃ s ∈ t.todo, e = .resumed s
  /-- The step that is taken is taken once. -/
  count : ∀ s, s.frame?.isSome = true →
    rest.count s + e.step?.toList.count s = t.todo.count s

theorem tells_of_expects (h : t.far.connection.Expects e) : t.Tells e t.todo where
  fits := Chronicle.fitsEvent_of_expects h
  subset _ hs := hs
  kept _ hs := Or.inl hs
  expected := Or.inl h
  count s hs := by
    have hnone : e ≠ .resumed s := by
      rintro rfl
      unfold Step.frame? at hs
      split at hs <;> first | cases h | cases hs
    rw [Event.count_step?_eq_zero hnone, Nat.add_zero]

theorem tells_of_mem {s : Step} (h : t.Sound) (hs : s ∈ t.todo) :
    t.Tells (.resumed s) (t.todo.erase s) where
  fits := h.todo s hs
  subset _ hs' := List.mem_of_mem_erase hs'
  kept s' hs' := by
    by_cases heq : s' = s
    · exact Or.inr (by rw [heq])
    · exact Or.inl ((List.mem_erase_of_ne heq).mpr hs')
  expected := Or.inr ⟨s, hs, rfl⟩
  count s' _ := by
    have hpos := List.count_pos_iff.mpr hs
    rw [List.count_erase, Event.step?, Option.toList_some, List.count_singleton]
    by_cases heq : s = s'
    · subst heq
      simp
      omega
    · simp [heq]

/-- What holds at the beginning and is kept by every turn holds at any time.  A turn is kept if it
is kept that the connection is told something, and that it fails. -/
theorem run_induction {P : Traffic → Prop} (h : Run {} t) (hnil : P {})
    (htell : ∀ {t e rest}, t.Sound → t.Tells e rest → P t → P (t.tell e rest))
    (hsever : ∀ {t} cause, t.Sound → P t → P { t with far := t.far.sever cause }) :
    t.Sound ∧ P t := by
  induction h with
  | refl => exact ⟨sound_nil, hnil⟩
  | tail _ hturn ih =>
    obtain ⟨hsound, hP⟩ := ih
    cases hturn with
    | told he =>
      have htells := tells_of_expects he
      exact ⟨hsound.tell htells.fits htells.subset, htell hsound htells hP⟩
    | taken hs =>
      have htells := tells_of_mem hsound hs
      exact ⟨hsound.tell htells.fits htells.subset, htell hsound htells hP⟩
    | severed cause => exact ⟨hsound.sever cause, hsever cause hsound hP⟩

theorem sound_of_run (h : Run {} t) : t.Sound :=
  (run_induction (P := fun _ => True) h trivial (fun _ _ _ => trivial) fun _ _ _ => trivial).1

/-! ### Traffic that is played -/

/-- Whether an event may come from outside. -/
def admits (e : Event Step) (t : Traffic) : Bool :=
  match e with
  | .asked g _ => g.stream < t.far.connection.labels.length
  | .attached r i => (t.far.connection.link? r.stream).any (·.1 == i)
  | .heard r _ => (t.far.connection.link? r.stream).isSome
  | .resumed s => s.isFree
  | _ => true

theorem expects_of_admits (h : t.admits e = true) : t.far.connection.Expects e := by
  cases e with
  | asked g a =>
    have hlt : g.stream < t.far.connection.labels.length := of_decide_eq_true h
    exact hlt
  | attached r i =>
    have hany : (t.far.connection.link? r.stream).any (·.1 == i) = true := h
    cases hl : t.far.connection.link? r.stream with
    | none =>
      rw [hl] at hany
      cases hany
    | some x =>
      rw [hl] at hany
      obtain rfl : x.1 = i := by simpa using hany
      exact ⟨x.2, hl⟩
  | heard r s => exact (Option.isSome_iff_exists.trans Prod.exists).mp h
  | resumed s => exact h
  | opened | openedChannel | copied | released => trivial

/-- Whether an event may be next: it comes from outside, or it is a step that is left to be done. -/
def mayBeNext (e : Event Step) (t : Traffic) : Bool :=
  t.admits e || e.step?.any (t.todo.contains ·)

/-- The connection is told an event next. -/
def next (e : Event Step) (t : Traffic) : Traffic :=
  t.tell e (e.step?.elim t.todo t.todo.erase)

theorem turn_next (h : t.mayBeNext e = true) : Turn t (t.next e) := by
  cases e with
  | resumed s =>
    by_cases hs : s ∈ t.todo
    · exact .taken hs
    · have heq : t.next (.resumed s) = t.tell (.resumed s) t.todo :=
        congrArg (t.tell _) (List.erase_of_not_mem hs)
      rw [heq]
      refine .told (expects_of_admits ?_)
      simpa [mayBeNext, Event.step?, hs] using h
  | opened | openedChannel | asked | attached | heard | copied | released =>
    exact .told (expects_of_admits (by simpa [mayBeNext, Event.step?] using h))

/-- Whether some events may come one after another. -/
def mayPlay : List (Event Step) → Traffic → Bool
  | [], _ => true
  | e :: es, t => t.mayBeNext e && mayPlay es (t.next e)

/-- The connection is told some events, one after another. -/
def play (es : List (Event Step)) (t : Traffic) : Traffic :=
  es.foldl (fun t e => t.next e) t

theorem run_play {es : List (Event Step)} (h : t.mayPlay es = true) : Run t (t.play es) := by
  induction es generalizing t with
  | nil => exact .refl
  | cons e es ih =>
    obtain ⟨he, hes⟩ := Bool.and_eq_true_iff.mp h
    exact .head (turn_next he) (ih hes)

theorem play_append (es later : List (Event Step)) (t : Traffic) :
    t.play (es ++ later) = (t.play es).play later :=
  List.foldl_append

theorem mayPlay_append {es later : List (Event Step)} :
    t.mayPlay (es ++ later) = (t.mayPlay es && (t.play es).mayPlay later) := by
  induction es generalizing t with
  | nil => rfl
  | cons e es ih =>
    rw [List.cons_append, mayPlay, mayPlay, ih, Bool.and_assoc]
    rfl

theorem tells_next (hsound : t.Sound) (h : t.mayBeNext e = true) :
    t.Tells e (e.step?.elim t.todo t.todo.erase) := by
  cases e with
  | resumed s =>
    by_cases hs : s ∈ t.todo
    · exact tells_of_mem hsound hs
    · have hrest : (Event.resumed s).step?.elim t.todo t.todo.erase = t.todo :=
        List.erase_of_not_mem hs
      rw [hrest]
      refine tells_of_expects (expects_of_admits ?_)
      simpa [mayBeNext, Event.step?, hs] using h
  | opened | openedChannel | asked | attached | heard | copied | released =>
    exact tells_of_expects (expects_of_admits (by simpa [mayBeNext, Event.step?] using h))

end Traffic
end Client
end StreamConformance
