import StreamConformance.Proofs.Request.Following

/-!
# What goes out on the stream of a request

As long as the consumer of a request makes its calls one after another, each of them is over before
the next: what it has decided to write is written, and whom it has taken out of the route table is
gone.  In between anything may happen: frames arrive, and other streams are used.

* `Traffic.Calm`, `Traffic.Orderly`: no call is under way; calls come one after another.
* `Traffic.Abides`, `Traffic.abides_of_orderly`: what is written, with what is pending behind it, is
  the tape of the calls, and a consumer that has canceled is gone from the table or is being taken
  out.
* `RequestLaw`, `Traffic.requestLaw_of_orderly`: what this comes to on the wire, and for the
  consumer.

What is left of this if calls overlap is said in `StreamConformance.Proofs.Request.WireOrder`.
-/

namespace StreamConformance

theorem eq_of_perm_of_length_le_one {α : Type*} {l l' : List α} (h : l.Perm l')
    (hlength : l'.length ≤ 1) : l = l' := by
  match l' with
  | [] => exact h.eq_nil
  | [a] => exact List.perm_singleton.mp h

namespace Client

open Wire (Frame onStream demandOf)

/-- Whether a step enters a stream object into the route table, takes the consumer of its stream out
of it, or writes on its stream. -/
def Step.isOf (j : Nat) (id : UInt32) (s : Step) : Bool :=
  s == .register j || s == .detach id || s.frame?.any (·.stream == id)

namespace Traffic

variable {t t' : Traffic} {e : Event Step} {rest : List Step} {j n i : Nat} {id : UInt32}
  {kind : Script.InteractionKind} {p : Payload}

/-- No call of the consumer of the stream object `j` is under way, on its stream `id`. -/
def isCalm (j : Nat) (id : UInt32) (t : Traffic) : Bool :=
  t.todo.all fun s => !s.isOf j id

/-- A turn in which the consumer of the stream object `j` makes no call while another one is under
way. -/
structure OrderlyTurn (j : Nat) (id : UInt32) (t t' : Traffic) : Prop where
  turn : Turn t t'
  calm : t'.far.callsOn j ≠ t.far.callsOn j → t.isCalm j id = true

/-- One thing happens after another, and so do the calls of the consumer. -/
abbrev Orderly (j : Nat) (id : UInt32) : Traffic → Traffic → Prop :=
  Relation.ReflTransGen (OrderlyTurn j id)

theorem run_of_orderly (h : Orderly j id t t') : Run t t' := by
  induction h with
  | refl => exact .refl
  | tail _ hturn ih => exact ih.tail hturn.turn

theorem register_not_mem_of_isCalm (h : t.isCalm j id = true) : .register j ∉ t.todo := by
  intro hmem
  have hof := List.all_eq_true.mp h _ hmem
  simp [Step.isOf] at hof

theorem pending_of_isCalm (h : t.isCalm j id = true) : t.pending id = [] := by
  refine Wire.onStream_eq_nil fun f hf hid => ?_
  obtain ⟨s, hs, hframe⟩ := List.mem_filterMap.mp hf
  have hof := List.all_eq_true.mp h s hs
  simp [Step.isOf, hframe, hid] at hof

theorem detach_not_mem_of_isCalm (h : t.isCalm j id = true) : .detach id ∉ t.todo := by
  intro hmem
  have hof := List.all_eq_true.mp h _ hmem
  simp [Step.isOf] at hof

/-- What the calls of a request have come to, if they are made one after another. -/
structure Abides (kind : Script.InteractionKind) (p : Payload) (id : UInt32) (j : Nat)
    (t : Traffic) : Prop where
  frames : t.far.framesOn id ++ t.pending id = Request.tape kind p id (t.far.callsOn j)
  length_pending : (t.pending id).length ≤ 1
  register : .cancel ∈ t.far.callsOn j → .register j ∉ t.todo
  detached : .cancel ∈ t.far.callsOn j →
    t.far.connection.routes.inbound? id = none ∨ .detach id ∈ t.todo

section Tell

variable (hcarries : t.Carries kind p id j) (hsound : t.Sound) (htells : t.Tells e rest)
  (hex : (t.tell e rest).far.Exclusive id) (h : t.Abides kind p id j)
  (hcalm : (t.tell e rest).far.callsOn j ≠ t.far.callsOn j → t.isCalm j id = true)
include hcarries hsound htells hex h hcalm

/-- What is written, with what is pending behind it, stays the tape of the calls. -/
theorem Abides.frames_tell :
    (t.tell e rest).far.framesOn id ++ (t.tell e rest).pending id =
        Request.tape kind p id ((t.tell e rest).far.callsOn j) ∧
      ((t.tell e rest).pending id).length ≤ 1 := by
  obtain ⟨decided, had⟩ := hcarries.advances hsound htells hex
  rw [had.framesOn, had.pending, had.tape, ← h.frames]
  have hkept := List.perm_append_comm.trans had.kept
  have hdecided := had.length_decided
  cases hcall : Request.call? j e with
  | none =>
    -- At most one frame is pending, and it is written or not.
    rw [hcall, Option.toList_none, List.length_nil, Nat.le_zero, List.length_eq_zero_iff] at hdecided
    have hpending := eq_of_perm_of_length_le_one hkept h.length_pending
    rw [hdecided, List.append_nil, List.append_nil, List.append_assoc, hpending]
    refine ⟨rfl, Nat.le_trans ?_ h.length_pending⟩
    rw [← hpending, List.length_append]
    exact Nat.le_add_left ..
  | some a =>
    -- Nothing is pending when a call is made.
    have hcalls := had.callsOn
    rw [hcall, Option.toList_some] at hcalls hdecided
    have hpending := pending_of_isCalm (hcalm (by rw [hcalls]; simp))
    rw [hpending] at hkept
    rw [hpending, List.append_nil]
    obtain ⟨hwritten, hnone⟩ := List.append_eq_nil_iff.mp hkept.eq_nil
    rw [hwritten, hnone, List.append_nil, List.nil_append]
    exact ⟨rfl, hdecided⟩

omit hsound in
/-- A consumer that has canceled is not entered into the table. -/
theorem Abides.register_tell (hcancel : .cancel ∈ (t.tell e rest).far.callsOn j) :
    .register j ∉ (t.tell e rest).todo := by
  intro hmem
  rcases mem_todo_tell.mp hmem with hold | hnew
  · have hold := htells.subset _ hold
    by_cases hcalls : (t.tell e rest).far.callsOn j = t.far.callsOn j
    · exact h.register (hcalls ▸ hcancel) hold
    · exact register_not_mem_of_isCalm (hcalm hcalls) hold
  · obtain ⟨l, hl, -, -⟩ := hcarries.exists_label
    cases Connection.makes_of_mem hnew with
    | register => exact absurd (List.getElem?_eq_some_iff.mp hl).1 (Nat.lt_irrefl _)

/-- A consumer that has canceled is gone from the table, or is being taken out. -/
theorem Abides.detached_tell (hcancel : .cancel ∈ (t.tell e rest).far.callsOn j) :
    (t.tell e rest).far.connection.routes.inbound? id = none ∨
      .detach id ∈ (t.tell e rest).todo := by
  by_cases hold : .cancel ∈ t.far.callsOn j
  · rcases h.detached hold with hnone | hdetach
    · refine Or.inl (Option.eq_none_iff_forall_ne_some.mpr fun i hi => ?_)
      rcases Connection.inbound?_of_react hi with hi | ⟨j', l', rfl, hl', hid', -⟩
      · rw [hnone] at hi
        cases hi
      · -- Only the stream object itself is entered on its stream, and that is over.
        obtain ⟨l, hl, hid, hk⟩ := hcarries.exists_label
        have hunshared := hsound.numbered.unshared hl (by simp [hk])
          (hid ▸ hex.of_react hsound.numbered)
        obtain rfl := hunshared j' l l' hl hl' (hid'.trans hid.symm)
        rcases htells.expected with hfree | ⟨s, hs, heq⟩
        · cases hfree
        · cases heq
          exact h.register hold hs
    · rcases htells.kept _ hdetach with hrest | rfl
      · exact Or.inr (mem_todo_tell.mpr (Or.inl hrest))
      · refine Or.inl ?_
        show (t.far.connection.react (.resumed (.detach id))).1.routes.inbound? id = none
        rw [Connection.routes_react, Connection.routesAfter, Routes.inbound?_takeInbound,
          if_pos rfl]
  · -- The consumer cancels now.
    have hcalls := Chronicle.callsOn_react e t.far j
    rw [tell, hcalls] at hcancel
    have hcall : Request.call? j e = some .cancel :=
      Option.mem_toList.mp ((List.mem_append.mp hcancel).resolve_left hold)
    obtain ⟨g, rfl, rfl⟩ := Request.call?_eq_some.mp hcall
    obtain ⟨s, hs, hid, hside⟩ := hcarries.stream
    refine Or.inr (mem_todo_tell.mpr (Or.inr ?_))
    simp only [Connection.react, Connection.asked, Connection.atStream, hs, hside, hid]
    exact List.mem_cons_self

theorem Abides.tell : (t.tell e rest).Abides kind p id j where
  frames := (h.frames_tell hcarries hsound htells hex hcalm).1
  length_pending := (h.frames_tell hcarries hsound htells hex hcalm).2
  register := h.register_tell hcarries htells hex hcalm
  detached := h.detached_tell hcarries hsound htells hex hcalm

end Tell

/-- A request that has just been opened. -/
theorem abides_of_opened (hcalls : t.far.callsOn j = []) (hcarries : t.Carries kind p id j) :
    t.Abides kind p id j where
  frames := by
    have hframes := hcarries.frames
    rw [hcalls] at hframes ⊢
    exact hframes.eq_nil
  length_pending := by
    have hframes := hcarries.frames
    rw [hcalls] at hframes
    rw [(List.append_eq_nil_iff.mp hframes.eq_nil).2]
    exact Nat.zero_le 1
  register hcancel := by
    rw [hcalls] at hcancel
    cases hcancel
  detached hcancel := by
    rw [hcalls] at hcancel
    cases hcancel

/-- **What is written on the stream of a request is the tape of its calls**, if they come one after
another. -/
theorem abides_of_orderly (hrun : Run {} t) (hk : kind ≠ .fireAndForget)
    (h : Orderly t.far.connection.labels.length t.far.connection.nextStream
      (t.tell (.opened n kind p i) t.todo) t')
    (hex : t'.far.Exclusive t.far.connection.nextStream) :
    t'.Abides kind p t.far.connection.nextStream t.far.connection.labels.length := by
  have hopened : Turn t (t.tell (.opened n kind p i) t.todo) := .told trivial
  induction h with
  | refl =>
    exact abides_of_opened (callsOn_of_opened (sound_of_run hrun))
      (carries_of_opened (sound_of_run hrun) hk hex)
  | @tail t' t'' hmid hturn ih =>
    have hmidrun := run_of_orderly hmid
    have hsound := sound_of_run ((hrun.tail hopened).trans hmidrun)
    have hexmid := (extends_of_run (.single hturn.turn)).exclusive hex
    have hcarries := carries_of_run hrun hk hmidrun hexmid
    have habides := ih hexmid
    obtain ⟨hturn, hcalm⟩ := hturn
    cases hturn with
    | told he => exact habides.tell hcarries hsound (tells_of_expects he) hex hcalm
    | taken hs => exact habides.tell hcarries hsound (tells_of_mem hsound hs) hex hcalm
    | severed cause =>
      exact ⟨habides.frames, habides.length_pending, habides.register, habides.detached⟩

end Traffic

/-! ## The law -/

/-- What holds of the stream `id` of a request, the stream object `j`, if its consumer makes its
calls one after another and everything can be written. -/
structure RequestLaw (kind : Script.InteractionKind) (p : Payload) (id : UInt32) (j : Nat)
    (t : Traffic) : Prop where
  /-- Whenever no call is under way, the frames on the wire are the tape of the calls: nothing before
  the first demand, the opening frame with it, a frame for each later demand unless there is a single
  answer, and one for a cancellation behind these; and nothing behind a cancellation. -/
  written : t.isCalm j id = true →
    onStream id t.far.connection.written = Request.tape kind p id (t.far.callsOn j)
  /-- While a call is under way, some of its frame may be missing, but the order is the same. -/
  begun : onStream id t.far.connection.written <+: Request.tape kind p id (t.far.callsOn j)
  /-- The demand on the wire is what was granted before a cancellation. -/
  demand : t.isCalm j id = true → kind = .requestStream ∨ kind = .requestSubscription →
    demandOf (onStream id t.far.connection.written) = (Request.granted (t.far.callsOn j)).sum
  /-- A stream without demand, or canceled before any, is never on the wire. -/
  unseen : Request.granted (t.far.callsOn j) = [] → onStream id t.far.connection.written = []
  /-- Once the consumer has canceled, it is not in the table, and no frame that arrives on the stream
  reaches a consumer. -/
  hushed : t.isCalm j id = true → .cancel ∈ t.far.callsOn j →
    t.far.connection.routes.inbound? id = none ∧
      ∀ f, f.stream = id → ∀ i s,
        .signal i s ∉ (t.far.connection.react (.resumed (.receive f))).2

namespace Traffic

variable {t t' : Traffic} {n i : Nat} {kind : Script.InteractionKind} {p : Payload}

/-- No frame reaches a consumer that is not in the table. -/
theorem signal_not_mem_of_inbound?_eq_none {c : Connection} {f : Frame}
    (h : c.routes.inbound? f.stream = none) (i : Nat) (s : Signal Payload) :
    .signal i s ∉ (c.react (.resumed (.receive f))).2 := by
  rw [← Connection.mem_signalsOn]
  cases f with
  | next id p | complete id | error id message =>
    have hnone : c.routes.inbound? id = none := h
    rw [Connection.signalsOn, Connection.toInbound, hnone]
    exact List.not_mem_nil
  | requestN | cancel | requestResponse | requestStream | requestSubscription | fireAndForget
  | requestChannel => exact List.not_mem_nil

/-- **What goes out on the stream of a request** that was opened at any time, if its consumer makes
its calls one after another. -/
theorem requestLaw_of_orderly (hrun : Run {} t) (hk : kind ≠ .fireAndForget)
    (h : Orderly t.far.connection.labels.length t.far.connection.nextStream
      (t.tell (.opened n kind p i) t.todo) t')
    (hex : t'.far.Exclusive t.far.connection.nextStream)
    (haccepted : ∀ a ∈ t'.far.attempts, a.frame.stream = t.far.connection.nextStream →
      a.isRefused = false) :
    RequestLaw kind p t.far.connection.nextStream t.far.connection.labels.length t' := by
  have habides := abides_of_orderly hrun hk h hex
  have hopened : Turn t (t.tell (.opened n kind p i) t.todo) := .told trivial
  have hsound := sound_of_run ((hrun.tail hopened).trans (run_of_orderly h))
  have hwritten := hsound.faithful.onStream_written haccepted
  have hbegun := habides.frames ▸ List.prefix_append ..
  have hcalm (hcalm : t'.isCalm t.far.connection.labels.length t.far.connection.nextStream = true) :
      t'.far.framesOn t.far.connection.nextStream = Request.tape kind p t.far.connection.nextStream
        (t'.far.callsOn t.far.connection.labels.length) := by
    have hframes := habides.frames
    rwa [pending_of_isCalm hcalm, List.append_nil] at hframes
  refine ⟨fun h => ?_, ?_, fun h hk => ?_, fun h => ?_, fun h hcancel => ?_⟩
  · rw [hwritten, hcalm h]
  · rw [hwritten]
    exact hbegun
  · rw [hwritten, hcalm h, Request.demandOf_tape hk]
  · rw [hwritten]
    rw [Request.tape_of_granted_eq_nil h] at hbegun
    exact List.prefix_nil.mp hbegun
  · have hnone := (habides.detached hcancel).resolve_right (detach_not_mem_of_isCalm h)
    exact ⟨hnone, fun f hf i s => signal_not_mem_of_inbound?_eq_none (hf ▸ hnone) i s⟩

/-! ### Traffic that is played in order -/

/-- Whether some events may come one after another, and so do the calls of the consumer. -/
def mayPlayOrderly (j : Nat) (id : UInt32) : List (Event Step) → Traffic → Bool
  | [], _ => true
  | e :: es, t =>
    t.mayBeNext e && ((Request.call? j e).isNone || t.isCalm j id) &&
      mayPlayOrderly j id es (t.next e)

theorem orderly_play {j : Nat} {id : UInt32} {es : List (Event Step)}
    (h : t.mayPlayOrderly j id es = true) : Orderly j id t (t.play es) := by
  induction es generalizing t with
  | nil => exact .refl
  | cons e es ih =>
    obtain ⟨hnext, hes⟩ := Bool.and_eq_true_iff.mp h
    obtain ⟨he, hcall⟩ := Bool.and_eq_true_iff.mp hnext
    refine .head ⟨turn_next he, fun hcalls => ?_⟩ (ih hes)
    refine (Bool.or_eq_true_iff.mp hcall).resolve_left fun hnone => hcalls ?_
    rw [next, tell, Chronicle.callsOn_react, Option.isNone_iff_eq_none.mp hnone, Option.toList_none,
      List.append_nil]

/-- A consumer asks for nothing, for three items and for two more, and cancels; behind that it asks
and cancels again. -/
def askedAndCanceled : List (Event Step) :=
  [.resumed (.register 0), .asked ⟨0, 0⟩ (.request 0), .asked ⟨0, 0⟩ (.request 3),
    .resumed (.write (.requestStream 1 3 ⟨"a", "b"⟩)), .resumed (.receive (.next 1 ⟨"c", "d"⟩)),
    .asked ⟨0, 0⟩ (.request 2), .resumed (.write (.requestN 1 2)), .asked ⟨0, 0⟩ .cancel,
    .resumed (.detach 1), .resumed (.receive (.next 1 ⟨"e", "f"⟩)), .resumed (.writeCancel 1),
    .asked ⟨0, 0⟩ (.request 4), .asked ⟨0, 0⟩ .cancel, .resumed (.detach 1)]

/-- A stream has just been opened, the first of its connection. -/
def firstOpened : Traffic :=
  tell (.opened 0 .requestStream ⟨"a", "b"⟩ 0) [] {}

theorem askedAndCanceled_eq :
    ((firstOpened.play askedAndCanceled).far.allotted,
        (firstOpened.play askedAndCanceled).far.attempts.all (!·.isRefused),
        (firstOpened.play askedAndCanceled).isCalm 0 1,
        (firstOpened.play askedAndCanceled).far.callsOn 0) =
      (1, true, true,
        [.request 0, .request 3, .request 2, .cancel, .request 4, .cancel]) := by
  decide +kernel

theorem requestLaw_askedAndCanceled :
    RequestLaw .requestStream ⟨"a", "b"⟩ 1 0 (firstOpened.play askedAndCanceled) ∧
      onStream 1 (firstOpened.play askedAndCanceled).far.connection.written =
        [.requestStream 1 3 ⟨"a", "b"⟩, .requestN 1 2, .cancel 1] := by
  obtain ⟨hallotted, haccepted, hcalm, hcalls⟩ := by
    simpa only [Prod.mk.injEq, List.all_eq_true] using askedAndCanceled_eq
  have hlaw : RequestLaw .requestStream ⟨"a", "b"⟩ 1 0 (firstOpened.play askedAndCanceled) :=
    requestLaw_of_orderly .refl (by decide) (orderly_play (by decide +kernel))
      (Chronicle.exclusive_of_allotted_le (by rw [hallotted]; decide) 1)
      fun a ha _ => by simpa using haccepted a ha
  refine ⟨hlaw, ?_⟩
  rw [hlaw.written hcalm, hcalls]
  rfl

end Traffic
end Client
end StreamConformance
