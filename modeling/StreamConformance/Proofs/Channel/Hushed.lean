import StreamConformance.Proofs.Channel.WireLaw

/-!
# What the peer of a channel hears when the consumer cancels

A consumer that cancels drops what comes, so the peer should not go on with demand that it was
granted. If the channel is open the peer is told. If it is not, the peer knows nothing of it; but
the producer may open the channel later, and the demand that was held for the opening frame goes out
with it all the same, though nobody waits for items and nobody says so.

* `Link.exists_frames_append`, `Link.beforeItem_append`: what a link writes once its consumer has
  canceled.
* `Hushed`: what the peer should hear.
* `Traffic.hushed_iff`: that is so exactly if the channel was open by then, or is never opened, or
  no demand was held.
-/

namespace StreamConformance
namespace Client

open Wire (Frame onStream onStream_append)

/-! ## What a link writes behind a cancellation -/

namespace Link

variable {id : UInt32} {h : List Input} {p : Payload}

theorem beforeCancel_append_cancel (hno : .cancel ∉ h) (h' : List Input) :
    beforeCancel (h ++ .cancel :: h') = h := by
  have hall : ∀ x ∈ h, (x != .cancel) = true := fun x hx => by
    simpa using fun heq : x = .cancel => hno (heq ▸ hx)
  rw [beforeCancel, List.takeWhile_append_of_pos hall, List.takeWhile_cons_of_neg (by simp),
    List.append_nil]

/-- What is granted behind a cancellation does not count. -/
theorem granted_append_cancel (hno : .cancel ∉ h) (h' : List Input) :
    granted (h ++ .cancel :: h') = granted h := by
  rw [granted, beforeCancel_append_cancel hno, granted, beforeCancel_eq_self hno]

/-- The peer is to be told exactly if the channel was open when the consumer canceled. -/
theorem owesCancel_append_cancel (hno : .cancel ∉ h) (h' : List Input) :
    OwesCancel (h ++ .cancel :: h') ↔ items h ≠ [] := by
  rw [OwesCancel, beforeCancel_append_cancel hno]
  exact and_iff_right (List.mem_append_right _ List.mem_cons_self)

/-- A link writes no demand once its consumer has canceled. -/
theorem exists_frames_append (id : UInt32) (hcancel : .cancel ∈ h) (h' : List Input) :
    ∃ gs, frames id (h ++ h') = frames id h ++ gs ∧ ∀ n, .requestN id n ∉ gs := by
  induction h' using List.reverseRecOn with
  | nil => exact ⟨[], by rw [List.append_nil, List.append_nil], fun _ => List.not_mem_nil⟩
  | append_singleton h' x ih =>
    obtain ⟨gs, hframes, hgs⟩ := ih
    refine ⟨gs ++ ((after id (h ++ h')).take id x).2.toList, ?_, fun n hmem => ?_⟩
    · rw [← List.append_assoc, frames_concat, hframes, List.append_assoc]
    · rcases List.mem_append.mp hmem with hmem | hmem
      · exact hgs n hmem
      · cases writes_of_take (Option.mem_toList.mp hmem) with
        | requestN hin =>
          rw [← Bool.not_eq_true, after_inboundDone] at hin
          exact hin (List.mem_append_left _ hcancel)

/-- If the first item goes out later there was none before. -/
theorem beforeItem_append {h' : List Input} (hnone : items h = []) (hsome : items (h ++ h') ≠ []) :
    beforeItem (h ++ h') = h ++ beforeItem h' := by
  have hself : h.takeWhile (fun x => !x.ends) = h := by
    by_contra hends
    refine hsome ?_
    rw [items, List.takeWhile_append, if_neg, ← items, hnone]
    exact fun hlength => hends ((List.takeWhile_prefix _).eq_of_length hlength)
  rw [items, hself, List.filterMap_eq_nil_iff] at hnone
  exact List.takeWhile_append_of_pos fun x hx => Option.isNone_iff_eq_none.mpr (hnone x hx)

end Link

/-! ## What the peer should hear -/

/-- What is written on the stream `id` of a channel after its consumer has canceled, `fs` before
that and `gs` since: the peer is granted no more demand, and if it has any it is told. -/
structure Hushed (id : UInt32) (fs gs : List Frame) : Prop where
  /-- If the channel was open, the peer is told once. -/
  told : fs ≠ [] → gs.count (.cancel id) = 1
  demand : ∀ n, .requestN id n ∉ gs
  /-- If the channel is opened later, this grants nothing, or the peer is told. -/
  opening : ∀ n p, .requestChannel id n p ∈ gs → n = 0 ∨ .cancel id ∈ gs

namespace Traffic

variable {t t' : Traffic} {e : Event Step} {rest : List Step} {j : Nat} {l : Label} {id : UInt32}

/-- What has happened to a connection remains so. -/
structure Extends (t t' : Traffic) : Prop where
  told : t.far.told <+: t'.far.told
  attempts : t.far.attempts <+: t'.far.attempts
  labels : t.far.connection.Keeps t'.far.connection

theorem Extends.refl (t : Traffic) : t.Extends t :=
  ⟨List.prefix_refl _, List.prefix_refl _, fun _ _ hl => hl⟩

theorem Extends.trans {t'' : Traffic} (h : t.Extends t') (h' : t'.Extends t'') : t.Extends t'' :=
  ⟨h.told.trans h'.told, h.attempts.trans h'.attempts,
    fun j l hl => h'.labels j l (h.labels j l hl)⟩

theorem extends_tell (e : Event Step) (rest : List Step) (t : Traffic) :
    t.Extends (t.tell e rest) :=
  ⟨List.prefix_append .., List.prefix_append .., fun _ _ hl => Connection.label_react hl e⟩

theorem extends_of_run (h : Run t t') : t.Extends t' := by
  induction h with
  | refl => exact .refl t
  | tail _ hturn ih =>
    refine ih.trans ?_
    cases hturn with
    | told | taken => exact extends_tell ..
    | severed cause => exact ⟨List.prefix_refl _, List.prefix_refl _, fun _ _ hl => hl⟩

/-- A number that is handed out once at most was so before. -/
theorem Extends.exclusive (h : t.Extends t') (hex : t'.far.Exclusive id) : t.far.Exclusive id := by
  have hallotted : t.far.allotted ≤ t'.far.allotted := h.told.sublist.countP_le
  have hsub : t.far.handedOut.Sublist t'.far.handedOut :=
    (List.range_sublist.mpr hallotted).map _
  exact Nat.le_trans (hsub.count_le id) hex

theorem Extends.exists_history (h : t.Extends t') (j : Nat) :
    ∃ h', t'.far.history j = t.far.history j ++ h' := by
  obtain ⟨told, htold⟩ := h.told
  exact ⟨told.filterMap (Link.input? j), by
    rw [Chronicle.history, ← htold, List.filterMap_append, Chronicle.history]⟩

/-- The frames that were written on a stream since the traffic was `t`. -/
def writtenSince (id : UInt32) (t t' : Traffic) : List Frame :=
  (onStream id t'.far.connection.written).drop (onStream id t.far.connection.written).length

/-- If nothing is refused, what was written remains, and what was written since is what was to be
written since. -/
theorem framesOn_eq (h : Run {} t) (hrun : Run t t')
    (haccepted : ∀ a ∈ t'.far.attempts, a.frame.stream = id → a.isRefused = false) :
    onStream id t.far.connection.written = t.far.framesOn id ∧
      t'.far.framesOn id = t.far.framesOn id ++ writtenSince id t t' := by
  have hext := extends_of_run hrun
  have hbefore := (sound_of_run h).faithful.onStream_written fun a ha =>
    haccepted a (hext.attempts.subset ha)
  have hafter := (sound_of_run (h.trans hrun)).faithful.onStream_written haccepted
  obtain ⟨as, has⟩ := hext.attempts
  refine ⟨hbefore, ?_⟩
  rw [writtenSince, hafter, hbefore, Chronicle.framesOn, ← has, List.map_append, onStream_append,
    ← Chronicle.framesOn, List.drop_left]

/-- Nothing is to be written on the stream of a channel until the first item goes out. -/
theorem Follows.framesOn_eq_nil_iff (h : t.Follows j l) :
    t.far.framesOn l.id = [] ↔ Link.items (t.far.history j) = [] := by
  constructor
  · exact h.items_eq_nil
  · intro hnone
    by_contra hne
    obtain ⟨f, fs, hcons⟩ := List.exists_cons_of_ne_nil hne
    obtain ⟨p, ps, hitems, -⟩ := h.wireLaw.opening f fs hcons
    rw [hnone] at hitems
    cases hitems

section Canceled

variable {gs : List Frame} {h' : List Link.Input}
  (hbefore : t.Follows j l) (hafter : t'.Follows j l) (hno : .cancel ∉ t.far.history j)
  (hhistory : t'.far.history j = t.far.history j ++ .cancel :: h')
  (hframes : t'.far.framesOn l.id = t.far.framesOn l.id ++ gs)

include hbefore hafter hhistory hframes in
/-- Behind the cancellation the peer is granted no more on an open channel. -/
theorem requestN_not_mem_since (n : Nat) : .requestN l.id n ∉ gs := by
  have hcancel : Link.frames l.id (t.far.history j ++ [.cancel]) =
      Link.frames l.id (t.far.history j) := by
    rw [Link.frames_concat]
    exact List.append_nil _
  obtain ⟨ls, hls, hnone⟩ := Link.exists_frames_append l.id (h := t.far.history j ++ [.cancel])
    (List.mem_append_right _ (List.mem_singleton_self _)) h'
  have hsince := hafter.frames
  rw [hframes, List.filter_append, hbefore.frames, hhistory, List.append_cons, hls, hcancel,
    List.append_cancel_left_eq] at hsince
  intro hmem
  refine hnone n ?_
  rw [← hsince]
  exact List.mem_filter.mpr ⟨hmem, by simp⟩

include hbefore hafter hno hhistory hframes in
/-- The peer of an open channel is told once that the consumer has canceled. -/
theorem count_cancel_since (hdone : .writeCancel l.id ∉ t'.todo)
    (hopen : t.far.framesOn l.id ≠ []) : gs.count (.cancel l.id) = 1 := by
  have howes : Link.OwesCancel (t'.far.history j) := by
    rw [hhistory, Link.owesCancel_append_cancel hno]
    exact mt hbefore.framesOn_eq_nil_iff.mpr hopen
  have hcount := hafter.cancels
  have hnone := List.count_eq_zero.mpr (hbefore.cancel_not_mem fun howes => hno howes.1)
  rw [if_pos howes, List.count_eq_zero.mpr hdone, hframes, List.count_append, hnone] at hcount
  omega

include hafter hframes in
/-- An open channel is not opened again. -/
theorem isOpening_since (hopen : t.far.framesOn l.id ≠ []) {g : Frame} (hg : g ∈ gs) :
    g.isOpening = false := by
  obtain ⟨f, fs, hcons⟩ := List.exists_cons_of_ne_nil hopen
  rw [hcons, List.cons_append] at hframes
  obtain ⟨p, ps, -, -, hothers⟩ := hafter.wireLaw.opening f (fs ++ gs) hframes
  exact hothers g (List.mem_append_right _ hg)

include hbefore hafter hno hhistory hframes in
/-- **The peer of a channel that was not open is never told that the consumer has canceled.** -/
theorem cancel_not_mem_since (hclosed : t.far.framesOn l.id = []) : .cancel l.id ∉ gs := by
  have hnot : ¬ Link.OwesCancel (t'.far.history j) := by
    rw [hhistory, Link.owesCancel_append_cancel hno, not_not]
    exact hbefore.framesOn_eq_nil_iff.mp hclosed
  have hmem := hafter.cancel_not_mem hnot
  rw [hframes] at hmem
  exact fun hgs => hmem (List.mem_append_right _ hgs)

include hbefore hafter hno hhistory hframes in
/-- **A channel that is opened behind the cancellation takes along all demand that was held.** -/
theorem eq_requestChannel_since (hclosed : t.far.framesOn l.id = []) (hgs : gs ≠ []) :
    ∃ p rest, gs =
        .requestChannel l.id (min (Link.granted (t.far.history j)) Demand.limit) p :: rest ∧
      ∀ g ∈ rest, g.isOpening = false := by
  obtain ⟨g, rest, rfl⟩ := List.exists_cons_of_ne_nil hgs
  rw [hclosed, List.nil_append] at hframes
  obtain ⟨p, ps, hitems, rfl, hrest⟩ := hafter.wireLaw.opening g rest hframes
  have hsome : Link.items (t.far.history j ++ .cancel :: h') ≠ [] := by
    rw [← hhistory, hitems]
    exact List.cons_ne_nil p ps
  have hbeforeItem : Link.beforeItem (t'.far.history j) =
      t.far.history j ++ .cancel :: Link.beforeItem h' := by
    rw [hhistory, Link.beforeItem_append (hbefore.framesOn_eq_nil_iff.mp hclosed) hsome]
    rfl
  rw [hbeforeItem, Link.granted_append_cancel hno]
  exact ⟨p, rest, rfl, hrest⟩

include hbefore hafter hno hhistory hframes in
/-- Demand that was held is what the peer should not have. -/
theorem or_of_hushed (h : Hushed l.id (t.far.framesOn l.id) gs) :
    t.far.framesOn l.id ≠ [] ∨ gs = [] ∨ Link.granted (t.far.history j) = 0 := by
  refine or_iff_not_imp_left.mpr fun hclosed => or_iff_not_imp_left.mpr fun hgs => ?_
  have hclosed := not_not.mp hclosed
  obtain ⟨p, rest, heq, -⟩ :=
    eq_requestChannel_since hbefore hafter hno hhistory hframes hclosed hgs
  have hlate := cancel_not_mem_since hbefore hafter hno hhistory hframes hclosed
  have hzero := (h.opening _ p (by rw [heq]; exact List.mem_cons_self)).resolve_right hlate
  have hlimit : 0 < Demand.limit := by decide
  omega

include hbefore hafter hno hhistory hframes in
theorem hushed_of_or (hdone : .writeCancel l.id ∉ t'.todo)
    (hfine : t.far.framesOn l.id ≠ [] ∨ gs = [] ∨ Link.granted (t.far.history j) = 0) :
    Hushed l.id (t.far.framesOn l.id) gs where
  told := count_cancel_since hbefore hafter hno hhistory hframes hdone
  demand := requestN_not_mem_since hbefore hafter hhistory hframes
  opening n p hmem := by
    by_cases hclosed : t.far.framesOn l.id = []
    · have hzero :=
        (hfine.resolve_left (not_not.mpr hclosed)).resolve_left (List.ne_nil_of_mem hmem)
      obtain ⟨q, rest, heq, hrest⟩ := eq_requestChannel_since hbefore hafter hno hhistory hframes
        hclosed (List.ne_nil_of_mem hmem)
      rw [heq, hzero] at hmem
      rcases List.mem_cons.mp hmem with hmem | hmem
      · cases hmem
        exact Or.inl rfl
      · cases hrest _ hmem
    · cases isOpening_since hafter hframes hclosed hmem

end Canceled

/-- **When the consumer of a channel cancels, the peer is left in peace exactly if the channel was
open by then, or is never opened, or no demand was held.**  Otherwise the peer gets all demand that
was held, with the opening frame, and is never told that nobody waits for items any more.

The consumer cancels for the first time in the traffic `t`; the traffic `t'` is any time later at
which it is not left to be done that the peer is told. -/
theorem hushed_iff (h : Run {} t) (hl : t.far.connection.labels[j]? = some l)
    (hk : l.kind = .channel) (hno : .cancel ∉ t.far.history j) {g : Handle} (hg : g.stream = j)
    (hrun : Run (t.tell (.asked g .cancel) t.todo) t') (hex : t'.far.Exclusive l.id)
    (haccepted : ∀ a ∈ t'.far.attempts, a.frame.stream = l.id → a.isRefused = false)
    (hdone : .writeCancel l.id ∉ t'.todo) :
    (Hushed l.id (onStream l.id t.far.connection.written) (writtenSince l.id t t') ↔
        onStream l.id t.far.connection.written ≠ [] ∨ writtenSince l.id t t' = [] ∨
          Link.granted (t.far.history j) = 0) ∧
      (onStream l.id t.far.connection.written = [] → writtenSince l.id t t' ≠ [] →
        .cancel l.id ∉ writtenSince l.id t t' ∧
          ∃ p rest, writtenSince l.id t t' = .requestChannel l.id
            (min (Link.granted (t.far.history j)) Demand.limit) p :: rest) := by
  have hcancels : Run t (t.tell (.asked g .cancel) t.todo) :=
    .single (.told (by rw [← hg] at hl; exact (List.getElem?_eq_some_iff.mp hl).1))
  have hext := extends_of_run (hcancels.trans hrun)
  have hbefore := follows_of_run h hl hk (hext.exclusive hex)
  have hafter := follows_of_run ((h.trans hcancels).trans hrun) (hext.labels j l hl) hk hex
  obtain ⟨h', hlater⟩ := (extends_of_run hrun).exists_history j
  have hhistory : t'.far.history j = t.far.history j ++ .cancel :: h' := by
    rw [hlater, tell, Chronicle.history_react, Link.input?, if_pos hg, List.append_assoc]
    rfl
  obtain ⟨hwritten, hframes⟩ := framesOn_eq h (hcancels.trans hrun) haccepted
  rw [hwritten]
  refine ⟨⟨or_of_hushed hbefore hafter hno hhistory hframes,
    hushed_of_or hbefore hafter hno hhistory hframes hdone⟩, fun hclosed hgs => ?_⟩
  obtain ⟨p, rest, heq, -⟩ :=
    eq_requestChannel_since hbefore hafter hno hhistory hframes hclosed hgs
  exact ⟨cancel_not_mem_since hbefore hafter hno hhistory hframes hclosed, p, rest, heq⟩

/-- A channel whose consumer has granted demand, and whose producer has given its subscription. -/
def awaitingItem : Traffic :=
  play [.openedChannel 0 0, .resumed (.register 0), .asked ⟨0, 0⟩ (.request 3),
    .attached ⟨0, 0⟩ 0] {}

/-- The same channel once it is open. -/
def openedInTime : Traffic :=
  awaitingItem.play [.heard ⟨0, 0⟩ (.next ⟨"a", "b"⟩)]

/-- The consumer of the open channel has canceled, and the producer has gone on. -/
def canceledOpen : Traffic :=
  (openedInTime.next (.asked ⟨0, 0⟩ .cancel)).play
    [.resumed (.writeCancel 1), .heard ⟨0, 0⟩ (.next ⟨"c", "d"⟩)]

/-- The consumer has canceled before the channel was open. -/
def canceledEarly : Traffic :=
  (awaitingItem.next (.asked ⟨0, 0⟩ .cancel)).play [.heard ⟨0, 0⟩ (.next ⟨"a", "b"⟩)]

theorem run_awaitingItem : Run {} awaitingItem :=
  run_play (by decide +kernel)

theorem hushed_canceledOpen :
    Hushed 1 [.requestChannel 1 3 ⟨"a", "b"⟩] [.cancel 1, .next 1 ⟨"c", "d"⟩] := by
  have hopened : Run {} openedInTime := run_awaitingItem.trans (run_play (by decide +kernel))
  have hrun : Run (openedInTime.tell (.asked ⟨0, 0⟩ .cancel) openedInTime.todo) canceledOpen :=
    run_play (by decide +kernel)
  have hbefore : (openedInTime.far.connection.labels[0]?, openedInTime.far.history 0,
      onStream 1 openedInTime.far.connection.written) =
        (some ⟨1, 0, .channel⟩, [.grant 3, .attach, .item ⟨"a", "b"⟩],
          [.requestChannel 1 3 ⟨"a", "b"⟩]) := by decide +kernel
  have hafter : (canceledOpen.far.allotted, canceledOpen.far.attempts.all (!·.isRefused),
      canceledOpen.todo.count (.writeCancel 1), writtenSince 1 openedInTime canceledOpen) =
        (1, true, 0, [.cancel 1, .next 1 ⟨"c", "d"⟩]) := by decide +kernel
  simp only [Prod.mk.injEq] at hbefore
  simp only [Prod.mk.injEq, List.all_eq_true, Bool.not_eq_true', List.count_eq_zero] at hafter
  obtain ⟨hlabel, hhistory, hwritten⟩ := hbefore
  obtain ⟨hallotted, haccepted, hdone, hsince⟩ := hafter
  have hexclusive : canceledOpen.far.Exclusive 1 :=
    Chronicle.exclusive_of_allotted_le (by rw [hallotted]; decide) 1
  have hhushed := (hushed_iff hopened hlabel rfl (by rw [hhistory]; decide) rfl hrun hexclusive
    (fun a ha _ => haccepted a ha) hdone).1
  rw [hwritten, hsince] at hhushed
  exact hhushed.mpr (Or.inl (List.cons_ne_nil _ _))

/-- The first item opens the channel behind the cancellation, with the demand that was granted. -/
theorem not_hushed_canceledEarly :
    Run {} awaitingItem ∧ awaitingItem.far.connection.labels[0]? = some ⟨1, 0, .channel⟩ ∧
      .cancel ∉ awaitingItem.far.history 0 ∧
      Run (awaitingItem.tell (.asked ⟨0, 0⟩ .cancel) awaitingItem.todo) canceledEarly ∧
      canceledEarly.far.Exclusive 1 ∧
      (∀ a ∈ canceledEarly.far.attempts, a.frame.stream = 1 → a.isRefused = false) ∧
      .writeCancel 1 ∉ canceledEarly.todo ∧
      ¬ Hushed 1 (onStream 1 awaitingItem.far.connection.written)
        (writtenSince 1 awaitingItem canceledEarly) := by
  have hbefore : (awaitingItem.far.connection.labels[0]?, awaitingItem.far.history 0) =
      (some ⟨1, 0, .channel⟩, [.grant 3, .attach]) := by decide +kernel
  have hafter : (canceledEarly.far.allotted, canceledEarly.far.attempts.all (!·.isRefused),
      canceledEarly.todo.count (.writeCancel 1), writtenSince 1 awaitingItem canceledEarly) =
        (1, true, 0, [.requestChannel 1 3 ⟨"a", "b"⟩]) := by decide +kernel
  simp only [Prod.mk.injEq] at hbefore
  simp only [Prod.mk.injEq, List.all_eq_true, Bool.not_eq_true', List.count_eq_zero] at hafter
  obtain ⟨hlabel, hhistory⟩ := hbefore
  obtain ⟨hallotted, haccepted, hdone, hsince⟩ := hafter
  refine ⟨run_awaitingItem, hlabel, by rw [hhistory]; decide, run_play (by decide +kernel),
    Chronicle.exclusive_of_allotted_le (by rw [hallotted]; decide) 1,
    fun a ha _ => haccepted a ha, hdone, fun hhushed => ?_⟩
  rw [hsince] at hhushed
  rcases hhushed.opening 3 ⟨"a", "b"⟩ (List.mem_singleton_self _) with hzero | hcancel
  · cases hzero
  · cases List.mem_singleton.mp hcancel

end Traffic
end Client
end StreamConformance
