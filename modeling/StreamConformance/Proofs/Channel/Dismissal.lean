import StreamConformance.Proofs.Channel.Following
import StreamConformance.Proofs.Client.Reader

/-!
# When the producer of a channel is dismissed

The link of a channel is told that its producer is dismissed because of a frame of its own stream by
which the peer wants no more items.  The reader looks for the link when it has such a frame, and
dismisses the producer later, in a step of its own.

* `Traffic.WantsNoMore`: the peer has said so.
* `Traffic.Grounded`, `Traffic.grounded_of_run`: the steps that take away are left to be done with
  reason, so no producer is dismissed without such a frame.
* `Traffic.Obeys`, `Traffic.obeys_of_run`: with such a frame the producer is dismissed, or that is
  left to be done.
-/

namespace StreamConformance
namespace Client
namespace Traffic

open Wire (Frame)

variable {t : Traffic} {e : Event Step} {rest : List Step} {j : Nat} {l : Label} {id : UInt32}
  {s : Step} {f : Frame}

/-- The peer wants no more items on a stream. -/
def WantsNoMore (id : UInt32) (t : Traffic) : Prop :=
  ∃ f, .resumed (.receive f) ∈ t.far.told ∧ detachesLink id f

/-- The step is left to be done, or was taken. -/
def Due (s : Step) (t : Traffic) : Prop :=
  s ∈ t.todo ∨ .resumed s ∈ t.far.told

theorem mem_told_tell {e' : Event Step} :
    e' ∈ (t.tell e rest).far.told ↔ e' ∈ t.far.told ∨ e' = e := by
  rw [tell, Chronicle.react, List.mem_append, List.mem_singleton]

theorem mem_todo_tell :
    s ∈ (t.tell e rest).todo ↔ s ∈ rest ∨ .resume s ∈ (t.far.connection.react e).2 := by
  rw [tell, List.mem_append, Call.mem_filterMap_step?]
  rfl

theorem WantsNoMore.tell (h : t.WantsNoMore id) : (t.tell e rest).WantsNoMore id :=
  h.imp fun _ hf => ⟨mem_told_tell.mpr (Or.inl hf.1), hf.2⟩

/-- A step that is due stays so. -/
theorem Due.tell (h : t.Due s) (htells : t.Tells e rest) : (t.tell e rest).Due s := by
  rcases h with h | h
  · rcases htells.kept s h with h | rfl
    · exact Or.inl (mem_todo_tell.mpr (Or.inl h))
    · exact Or.inr (mem_told_tell.mpr (Or.inr rfl))
  · exact Or.inr (mem_told_tell.mpr (Or.inl h))

/-- A step that is due was due before, or is new. -/
theorem due_of_tell (h : (t.tell e rest).Due s) (htells : t.Tells e rest) :
    t.Due s ∨ t.far.connection.Expects (.resumed s) ∨ .resume s ∈ (t.far.connection.react e).2 := by
  rcases h with h | h
  · rcases mem_todo_tell.mp h with h | h
    · exact Or.inl (Or.inl (htells.subset s h))
    · exact Or.inr (Or.inr h)
  · rcases mem_told_tell.mp h with h | rfl
    · exact Or.inl (Or.inr h)
    · rcases htells.expected with h | ⟨s', hs', heq⟩
      · exact Or.inr (Or.inl h)
      · cases heq
        exact Or.inl (Or.inl hs')

/-- A step that does not come from outside was due when it is taken. -/
theorem Tells.due (htells : t.Tells (.resumed s) rest)
    (hs : ¬ t.far.connection.Expects (.resumed s)) : t.Due s := by
  rcases htells.expected with h | ⟨s', hs', heq⟩
  · exact absurd h hs
  · cases heq
    exact Or.inl hs'

theorem closed_tell (h : t.far.connection.closed = true) :
    (t.tell e rest).far.connection.closed = true := by
  show (t.far.connection.react e).1.closed = true
  rw [Connection.closed_react, h]
  rfl

/-! ## No producer is dismissed without reason -/

/-- What takes a link out of the table, or dismisses its producer, is backed by what happened
before. -/
structure Grounded (t : Traffic) : Prop where
  register : ∀ j, t.Due (.register j) → j < t.far.connection.labels.length
  outbound : ∀ id j, t.far.connection.routes.outbound? id = some j →
    ∃ l, t.far.connection.labels[j]? = some l ∧ l.id = id
  detachLink : ∀ id, t.Due (.detachLink id) → t.WantsNoMore id
  cancelProducer : ∀ j, t.Due (.cancelProducer j) → t.far.connection.closed = true ∨
    ∃ l, t.far.connection.labels[j]? = some l ∧ t.WantsNoMore l.id
  drain : ∀ reason, t.Due (.drain reason) → t.far.connection.closed = true

theorem Grounded.tell (h : t.Grounded) (htells : t.Tells e rest) : (t.tell e rest).Grounded where
  register j hdue := by
    have hlength : (t.tell e rest).far.connection.labels.length =
        t.far.connection.labels.length + (t.far.connection.newLabel? e).toList.length := by
      show (t.far.connection.react e).1.labels.length = _
      rw [Connection.labels_react, List.length_append]
    rcases due_of_tell hdue htells with hdue | hout | hnew
    · have hlt := h.register j hdue
      omega
    · cases hout
    · cases Connection.makes_of_mem hnew with
      | register hl =>
        rw [hlength, hl]
        exact Nat.lt_succ_self _
  outbound id j hout := by
    rcases Connection.outbound?_of_react hout with hout | ⟨l, -, hl, hid⟩
    · obtain ⟨l, hl, hid⟩ := h.outbound id j hout
      exact ⟨l, Connection.label_react hl e, hid⟩
    · exact ⟨l, Connection.label_react hl e, hid⟩
  detachLink id hdue := by
    rcases due_of_tell hdue htells with hdue | hout | hnew
    · exact (h.detachLink id hdue).tell
    · cases hout
    · cases Connection.makes_of_mem hnew with
      | @detachLink f _ hf => exact ⟨f, mem_told_tell.mpr (Or.inr rfl), hf⟩
  cancelProducer j hdue := by
    have hmono (hground : t.far.connection.closed = true ∨
        ∃ l, t.far.connection.labels[j]? = some l ∧ t.WantsNoMore l.id) :
        (t.tell e rest).far.connection.closed = true ∨
          ∃ l, (t.tell e rest).far.connection.labels[j]? = some l ∧
            (t.tell e rest).WantsNoMore l.id :=
      hground.imp closed_tell fun ⟨l, hl, hmore⟩ => ⟨l, Connection.label_react hl e, hmore.tell⟩
    rcases due_of_tell hdue htells with hdue | hout | hnew
    · exact hmono (h.cancelProducer j hdue)
    · cases hout
    · cases Connection.makes_of_mem hnew with
      | @cancelProducer id _ hout =>
        obtain ⟨l, hl, rfl⟩ := h.outbound id j hout
        exact hmono (Or.inr ⟨l, hl, h.detachLink l.id (htells.due Bool.false_ne_true)⟩)
      | drainLink => exact hmono (Or.inl (h.drain _ (htells.due Bool.false_ne_true)))
  drain reason hdue := by
    rcases due_of_tell hdue htells with hdue | hout | hnew
    · exact closed_tell (h.drain reason hdue)
    · cases hout
    · cases Connection.makes_of_mem hnew with
      | drain =>
        exact (Connection.closed_react _ _).trans (Bool.or_true _)

theorem Grounded.sever (h : t.Grounded) (cause : String) :
    Grounded { t with far := t.far.sever cause } :=
  ⟨h.register, h.outbound, h.detachLink, h.cancelProducer, h.drain⟩

theorem grounded_of_run (h : Run {} t) : t.Grounded := by
  refine (run_induction (P := Grounded) h ?_ (fun _ htells hground => hground.tell htells)
    fun cause _ hground => hground.sever cause).2
  have hnot (s : Step) : ¬ Due s {} := by
    rintro (h | h)
    · cases h
    · cases h
  exact ⟨fun _ hdue => absurd hdue (hnot _), (by rintro id j ⟨⟩),
    fun _ hdue => absurd hdue (hnot _), fun _ hdue => absurd hdue (hnot _),
    fun _ hdue => absurd hdue (hnot _)⟩

/-- **On an open connection no producer is dismissed unless the peer wants no more items of it.** -/
theorem wantsNoMore_of_due (h : Run {} t) (hopen : t.far.connection.closed = false)
    (hl : t.far.connection.labels[j]? = some l) (hdue : t.Due (.cancelProducer j)) :
    t.WantsNoMore l.id := by
  rcases (grounded_of_run h).cancelProducer j hdue with hclosed | ⟨l', hl', hmore⟩
  · rw [hopen] at hclosed
    cases hclosed
  · obtain rfl := Option.some.inj (hl.symm.trans hl')
    exact hmore

/-! ## And every producer is whose peer wants no more -/

/-- A channel that was entered into the table is in there, or its producer is to be dismissed; and
it is if the peer has wanted no more since. -/
structure Obeys (j : Nat) (l : Label) (t : Traffic) : Prop where
  linked : t.far.Registered j →
    t.far.connection.routes.outbound? l.id = some j ∨ t.Due (.cancelProducer j)
  stopped : ∀ f ∈ t.far.framesSince j, detachesLink l.id f →
    .detachLink l.id ∈ t.todo ∨ t.Due (.cancelProducer j)

theorem due_of_mem_react (h : .resume s ∈ (t.far.connection.react e).2) : (t.tell e rest).Due s :=
  Or.inl (mem_todo_tell.mpr (Or.inr h))

/-- What is told since a stream object was entered. -/
theorem framesSince_tell (hf : f ∈ (t.tell e rest).far.framesSince j) :
    t.far.Registered j ∧ (f ∈ t.far.framesSince j ∨ e = .resumed (.receive f)) := by
  by_cases hj : t.far.Registered j
  · refine ⟨hj, ?_⟩
    have hsince : (t.tell e rest).far.since j = t.far.since j ++ [e] :=
      Chronicle.since_append_of_registered hj rfl
    rw [Chronicle.framesSince, hsince, List.filterMap_append, List.mem_append] at hf
    refine hf.imp id fun hf => ?_
    obtain ⟨event, hevent, hreceived⟩ := List.mem_filterMap.mp hf
    rw [← List.mem_singleton.mp hevent]
    unfold Chronicle.received? at hreceived
    split at hreceived <;> cases hreceived
    rfl
  · have hnone : (t.tell e rest).far.since j = [] := by
      by_cases hnew : (t.tell e rest).far.Registered j
      · rcases mem_told_tell.mp hnew with hold | heq
        · exact absurd hold hj
        · subst heq
          exact Chronicle.since_of_register hj rfl
      · exact Chronicle.since_of_not_registered hnew
    rw [Chronicle.framesSince, hnone] at hf
    cases hf

theorem Obeys.tell (h : t.Obeys j l) (htells : t.Tells e rest)
    (hl : t.far.connection.labels[j]? = some l) (hk : l.kind = .channel)
    (hunshared : t.far.connection.Unshared j) : (t.tell e rest).Obeys j l where
  linked hj := by
    rcases mem_told_tell.mp hj with hj | heq
    · rcases h.linked hj with hout | hdue
      · obtain hout | hnew | ⟨j', l', rfl, hl', hid⟩ := Connection.outbound?_react hout e
        · exact Or.inl hout
        · exact Or.inr (due_of_mem_react hnew)
        · obtain rfl := hunshared j' l l' hl hl' hid
          exact Or.inl ((Connection.routes_of_register hl).2 hk)
      · exact Or.inr (hdue.tell htells)
    · subst heq
      exact Or.inl ((Connection.routes_of_register hl).2 hk)
  stopped f hf hstops := by
    obtain ⟨hj, hf | rfl⟩ := framesSince_tell hf
    · rcases h.stopped f hf hstops with htodo | hdue
      · rcases htells.kept _ htodo with hkept | rfl
        · exact Or.inl (mem_todo_tell.mpr (Or.inl hkept))
        · -- the link is looked for, and found unless that was done before
          refine Or.inr ?_
          rcases h.linked hj with hout | hdue
          · refine due_of_mem_react ?_
            rw [Connection.react, Connection.calls_detachLink, hout]
            exact List.mem_singleton_self _
          · exact hdue.tell htells
      · exact Or.inr (hdue.tell htells)
    · refine Or.inl (mem_todo_tell.mpr (Or.inr ?_))
      unfold detachesLink at hstops
      split at hstops
      · subst hstops
        exact List.mem_append_right _ (List.mem_singleton_self _)
      · subst hstops
        exact List.mem_singleton_self _
      · cases hstops

/-- **The producer of a channel is dismissed, or that is left to be done, if the peer has wanted no
more of its items** since the channel was entered into the table. -/
theorem obeys_of_run (h : Run {} t) (hl : t.far.connection.labels[j]? = some l)
    (hk : l.kind = .channel) (hex : t.far.Exclusive l.id) : t.Obeys j l := by
  refine ((run_induction (P := fun t => t.Grounded ∧ ∀ j l, t.far.connection.labels[j]? = some l →
    l.kind = .channel → t.far.Exclusive l.id → t.Obeys j l) h
    ⟨grounded_of_run .refl, by rintro j l ⟨⟩⟩
    (fun {t e rest} hsound htells ih => ⟨ih.1.tell htells, fun j l hl hk hex => ?_⟩)
    fun {t} cause _ ih => ⟨ih.1.sever cause, fun j l hl hk hex => ?_⟩).2).2 j l hl hk hex
  · rcases Connection.getElem?_labels_react hl with hold | ⟨hnew, rfl⟩
    · have hex' := hex.of_react hsound.numbered
      exact (ih.2 j l hold hk hex').tell htells hold hk
        (hsound.numbered.unshared hold (by simp [hk]) hex')
    · have hnot : ¬ t.far.Registered t.far.connection.labels.length := fun hj =>
        absurd (ih.1.register _ (Or.inr hj)) (Nat.lt_irrefl _)
      refine ⟨fun hj => ?_, fun f hf _ => absurd (framesSince_tell hf).1 hnot⟩
      rcases mem_told_tell.mp hj with hj | heq
      · exact absurd hj hnot
      · subst heq
        cases hnew
  · exact ⟨(ih.2 j l hl hk hex).linked, (ih.2 j l hl hk hex).stopped⟩

end Traffic
end Client
end StreamConformance
