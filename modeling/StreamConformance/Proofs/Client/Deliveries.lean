import StreamConformance.Proofs.Client.Reader
import StreamConformance.Proofs.Signals

/-!
# What is delivered to the consumer of a stream

A consumer is told what the frames of its stream say, from the entry of the stream into the route
table up to the first frame that ends it, and nothing else: no frame of another stream, none that
comes too late, and none that is for the producer.

* `Reception.Records`, `Chronicle.records_of_reach`: a consumer that nobody cancels has got what it
  was told.
* `Chronicle.Undisturbed`: a stream with a number of its own that is disturbed neither by its owner
  nor by the network.
* `Chronicle.Delivered`, `Chronicle.delivered_of_reach`: what its consumer was told, and what the
  reader is about to tell it, is what the frames say.
-/

namespace StreamConformance

open Wire (Frame)

/-! ## What a consumer has got -/

namespace Reception

open Receiver (Use)

/-- A consumer has got the signals `l`, up to the first end. -/
structure Records (x : Reception) (l : List (Signal Payload)) : Prop where
  terminal : x.terminal = l.findSome? Signal.ending?
  items : ∀ ps, x.items = some ps → ps = Signal.itemsUntilEnd l

variable {x y : Reception} {l : List (Signal Payload)} {u : Use} {a : Option (Handle × Ask)}

theorem IsFresh.records (h : x.IsFresh) : x.Records [] := ⟨h.terminal, h.items⟩

theorem Records.of_untilEnd (h : x.Records (Signal.untilEnd l)) : x.Records l where
  terminal := h.terminal.trans Signal.findSome?_ending?_untilEnd
  items ps hps := (h.items ps hps).trans Signal.itemsUntilEnd_untilEnd

/-- **What a consumer hears is recorded up to the end.** -/
theorem Records.heard (h : x.Records l) {s : Signal Payload} (hb : x.Becomes (.heard s) y a) :
    y.Records (l ++ [s]) := by
  have hended (hterm : x.terminal ≠ none) : ∃ s ∈ l, s.isTerminal = true := by
    by_contra hnone
    refine hterm (h.terminal.trans (Signal.findSome?_ending?_eq_none.mpr fun s hs => ?_))
    simpa using fun hend => hnone ⟨s, hs, hend⟩
  have hopen (hterm : x.terminal = none) : ∀ s ∈ l, s.isTerminal = false :=
    Signal.findSome?_ending?_eq_none.mp (h.terminal.symm.trans hterm)
  cases hb with
  | late _ hterm =>
    -- Neither the end nor the items depend on what comes after the end.
    refine Records.of_untilEnd ?_
    rw [Signal.untilEnd_append_of_ended (hended hterm)]
    exact ⟨h.terminal.trans Signal.findSome?_ending?_untilEnd.symm,
      fun ps hps => (h.items ps hps).trans Signal.itemsUntilEnd_untilEnd.symm⟩
  | taken p hterm =>
    constructor
    · rw [List.findSome?_append, ← h.terminal]
      exact (Option.or_none).symm
    · intro ps hps
      obtain ⟨qs, hqs, rfl⟩ := Option.map_eq_some_iff.mp hps
      rw [Signal.itemsUntilEnd_concat_of_open (hopen hterm), h.items qs hqs]
      rfl
  | ended _ hs hterm =>
    constructor
    · rw [List.findSome?_append, ← h.terminal, hterm, Option.none_or]
      cases s <;> rfl
    · intro ps hps
      rw [Signal.itemsUntilEnd_concat_of_open (hopen hterm), h.items ps hps]
      cases s with
      | next p => cases hs
      | complete | error => exact (List.append_nil _).symm

/-- A use that is no signal leaves the record as it is, unless it cancels. -/
theorem Records.of_use (h : x.Records l) (hb : x.Becomes u y a) (hheard : ∀ s, u ≠ .heard s)
    (hcancel : u ≠ .demanded .cancel) : y.Records l := by
  cases hb with
  | late s | ended s => exact absurd rfl (hheard s)
  | taken p => exact absurd rfl (hheard _)
  | canceled => exact absurd rfl hcancel
  | tooLate | requested | turnedDown => exact h
  | accepted => exact ⟨h.terminal, h.items⟩

end Reception

/-! ## What frames say to a consumer -/

/-- What a frame says to the consumer of a stream. -/
def Wire.Frame.answer? (id : UInt32) : Frame → Option (Signal Payload)
  | .next id' p => if id' = id then some (.next p) else none
  | .complete id' => if id' = id then some .complete else none
  | .error id' message => if id' = id then some (.error message) else none
  | _ => none

namespace Client

namespace Connection

variable {c : Connection} {i : Nat} {id : UInt32} {s : Signal Payload} {e : Event Step}

theorem mem_toInbound {s' : Signal Payload} :
    (i, s) ∈ c.toInbound id s' ↔ c.routes.inbound? id = some i ∧ s = s' := by
  simp only [toInbound, Option.mem_toList, Option.map_eq_some_iff, Prod.mk.injEq]
  constructor
  · rintro ⟨_, hi, rfl, rfl⟩
    exact ⟨hi, rfl⟩
  · rintro ⟨hi, rfl⟩
    exact ⟨i, hi, rfl, rfl⟩

/-- **Why a consumer is sent a signal.** -/
theorem signalsOn_cases (h : (i, s) ∈ c.signalsOn e) :
    (∃ f id, e = .resumed (.receive f) ∧ f.answer? id = some s ∧
      c.routes.inbound? id = some i) ∨
      (∃ id fault, e = .resumed (.fail id fault) ∧ c.routes.inbound? id = some i) ∨
      (∃ f, e = .resumed (.writeMessage i f)) ∨ ∃ reason, e = .resumed (.drain reason) := by
  unfold signalsOn at h
  split at h
  · obtain ⟨hi, rfl⟩ := mem_toInbound.mp h
    exact Or.inl ⟨_, _, rfl, if_pos rfl, hi⟩
  · obtain ⟨hi, rfl⟩ := mem_toInbound.mp h
    exact Or.inl ⟨_, _, rfl, if_pos rfl, hi⟩
  · obtain ⟨hi, rfl⟩ := mem_toInbound.mp h
    exact Or.inl ⟨_, _, rfl, if_pos rfl, hi⟩
  · exact Or.inr (Or.inl ⟨_, _, rfl, (mem_toInbound.mp h).1⟩)
  · cases List.mem_singleton.mp h
    exact Or.inr (Or.inr (Or.inl ⟨_, rfl⟩))
  · exact Or.inr (Or.inr (Or.inr ⟨_, rfl⟩))
  · cases h

/-- **What a frame is to the consumer of a stream**: nothing, unless the consumer is in the table and
the frame is for its stream. -/
theorem signalTo?_receive (hin : ∀ id', c.routes.inbound? id' = some i → id' = id) (f : Frame) :
    ((c.react (.resumed (.receive f))).2.map Task.call).filterMap (Task.signalTo? i) =
      if c.routes.inbound? id = some i then (f.answer? id).toList else [] := by
  have hsignals : ((c.react (.resumed (.receive f))).2.map Task.call).filterMap (Task.signalTo? i) =
      (c.signalsOn (.resumed (.receive f))).filterMap fun x => if x.1 = i then some x.2 else none := by
    rw [← signals_react, List.filterMap_map, List.filterMap_filterMap]
    refine List.filterMap_congr fun cl _ => ?_
    cases cl <;> rfl
  have hto (id' : UInt32) (s : Signal Payload) :
      (c.toInbound id' s).filterMap (fun x => if x.1 = i then some x.2 else none) =
        if c.routes.inbound? id = some i then (if id' = id then some s else none).toList else [] := by
    rw [toInbound]
    by_cases hi : c.routes.inbound? id' = some i
    · obtain rfl := hin id' hi
      simp [hi]
    · have hnone : (if c.routes.inbound? id = some i then
          (if id' = id then some s else none).toList else []) = [] := by
        by_cases hid : id' = id
        · subst hid
          exact if_neg hi
        · rw [if_neg hid]
          exact ite_self _
      rw [hnone]
      cases hx : c.routes.inbound? id' with
      | none => rfl
      | some i' =>
        have hne : i' ≠ i := fun heq => hi (hx.trans (congrArg some heq))
        exact List.filterMap_cons_none (if_neg hne)
  rw [hsignals]
  cases f with
  | next id' p => exact hto id' (.next p)
  | complete id' => exact hto id' .complete
  | error id' m => exact hto id' (.error m)
  | requestN | cancel | requestResponse | requestStream | requestSubscription | fireAndForget
  | requestChannel => exact (ite_self _).symm

end Connection

namespace Chronicle

open Crew (Move Turns)
open Exchange (Origin)

variable {ι : Type} {c d : Crew ι Chronicle Step} {e e' : Exchange Chronicle} {reader k : ι}
  {i j : Nat} {l : Label} {t : Task Step} {old new : List (Task Step)} {x : Reception}

/-! ## What a consumer was told -/

/-- What the frames since the entry of the stream object `j` say to the consumer of a stream. -/
def answersSince (j : Nat) (id : UInt32) (r : Chronicle) : List (Signal Payload) :=
  (r.framesSince j).filterMap (Frame.answer? id)

theorem signalsTo_turns [DecidableEq ι] (h : Turns k old new c d) (i : Nat) :
    d.signalsTo i = c.signalsTo i ++ old.filterMap (Task.signalTo? i) := by
  rw [Crew.signalsTo, h.done, List.filterMap_append, Crew.signalsTo]

theorem mem_signalsTo {s : Signal Payload} :
    s ∈ c.signalsTo i ↔ .call (.signal i s) ∈ c.done :=
  Task.mem_filterMap_signalTo?

/-- Only the connection sends signals to consumers. -/
theorem exists_event_of_signal (h : Move environment (newRules ι) k e old new e')
    {s : Signal Payload} (ht : .call (.signal i s) ∈ new) :
    ∃ event, old = [.tell event] ∧ (i, s) ∈ e.far.connection.signalsOn event := by
  rcases new_cases h ht with ⟨t', rfl, hnew, -⟩ | ⟨-, hbegins⟩
  · have horigin := Origin.of_mem hnew
    cases horigin with
    | @call event cl hcl => exact ⟨event, rfl, Connection.mem_signalsOn.mpr hcl⟩
  · cases hbegins

/-- A signal is heard by a call. -/
theorem eq_signal_of_use? {s : Signal Payload} (h : t.use? = some (i, .heard s)) :
    t = .call (.signal i s) := by
  unfold Task.use? at h
  split at h <;> cases h
  rfl

/-- A demand is made by the owner. -/
theorem eq_own_of_use? {a : Ask} (h : t.use? = some (i, .demanded a)) : t = .own i a := by
  unfold Task.use? at h
  split at h <;> cases h
  rfl

theorem starts_of_readerRules {ts : List (Task Step)} (h : (readerRules reader).starts k e e' ts) :
    Starts e e' ts :=
  h.1.1

variable [DecidableEq ι]

/-- **Who is sent a signal has a stream.** -/
theorem label_of_signal (h : Crew.Reach environment (newRules ι) start c)
    (hopen : c.exchange.far.connection.closed = false) {s : Signal Payload}
    (ht : c.Due (.call (.signal i s))) :
    ∃ (j : Nat) (l : Label), c.exchange.far.connection.labels[j]? = some l ∧ l.interaction = i := by
  refine reach_induction (P := fun c => c.exchange.far.connection.closed = false →
    c.Due (.call (.signal i s)) → ∃ (j : Nat) (l : Label),
      c.exchange.far.connection.labels[j]? = some l ∧ l.interaction = i) .refl h
    (fun _ ht => absurd ht (not_due_start _))
    (fun {c d k old new} hreach ih hmove hturns hopen ht => ?_) hopen ht
  have hopen' := isOpen_of_move hmove hopen
  suffices hl : ∃ (j : Nat) (l : Label),
      c.exchange.far.connection.labels[j]? = some l ∧ l.interaction = i from
    hl.imp fun j hl => hl.imp fun l hl => ⟨keeps_move hmove j l hl.1, hl.2⟩
  rcases hturns.due ht with ht | hnew
  · exact ih hopen' ht
  · obtain ⟨event, rfl, hs⟩ := exists_event_of_signal hmove hnew
    have hpending : c.Due (.tell event) := Or.inr ⟨k, hturns.mem_old (List.mem_singleton_self _)⟩
    obtain ⟨f, id, rfl, -, hin⟩ | ⟨id, fault, rfl, hin⟩ | ⟨f, rfl⟩ | ⟨reason, rfl⟩ :=
      Connection.signalsOn_cases hs
    · obtain ⟨j, l, hl, -, hi, -⟩ := exists_label_of_inbound hreach hin
      exact ⟨j, l, hl, hi⟩
    · obtain ⟨j, l, hl, -, hi, -⟩ := exists_label_of_inbound hreach hin
      exact ⟨j, l, hl, hi⟩
    · obtain ⟨j, l, hl, hi, -⟩ := knows_of_due hreach _ hpending
      exact ⟨j, l, hl, hi⟩
    · have hclosed : c.exchange.far.connection.closed = true := backed_of_due hreach _ hpending
      rw [hopen'] at hclosed
      cases hclosed

/-- **A consumer that nobody cancels has got what it was told.** -/
theorem records_of_reach (h : Crew.Reach environment (readerRules reader) start c)
    (hopen : c.exchange.far.connection.closed = false) (hown : .own i .cancel ∉ c.done)
    (hx : c.exchange.reception? i = some x) : x.Records (c.signalsTo i) := by
  refine reading_induction (P := fun c => c.exchange.far.connection.closed = false →
    .own i .cancel ∉ c.done → ∀ x, c.exchange.reception? i = some x → x.Records (c.signalsTo i)) h
    (by rintro - - x ⟨⟩)
    (fun {c d k old new} hreach ih hmove hturns hopen hown y hy => ?_) hopen hown x hx
  have hopen' := isOpen_of_move hmove.of_restrict hopen
  have hown' : .own i .cancel ∉ c.done := fun hdone => hown (hturns.mem_done.mpr (Or.inl hdone))
  have hcancel : .own i .cancel ∉ old := fun hold => hown (hturns.mem_done.mpr (Or.inr hold))
  rw [signalsTo_turns hturns]
  cases hx : c.exchange.reception? i with
  | none =>
    -- A consumer that is not there yet was told nothing.
    have hnot : ∀ s, ¬ c.Due (.call (.signal i s)) := fun s hdue => by
      obtain ⟨j, l, hl, rfl⟩ := label_of_signal (reach_newRules hreach) hopen' hdue
      obtain ⟨z, hz⟩ :=
        Exchange.exists_reception?_of_lt (lt_size_of_label (reach_newRules hreach) hl)
      rw [hx] at hz
      cases hz
    have hdone : c.signalsTo i = [] := List.eq_nil_iff_forall_not_mem.mpr fun s hs =>
      hnot s (Or.inl (mem_signalsTo.mp hs))
    have hold : old.filterMap (Task.signalTo? i) = [] :=
      List.eq_nil_iff_forall_not_mem.mpr fun s hs =>
        hnot s (Or.inr ⟨k, hturns.mem_old (Task.mem_filterMap_signalTo?.mp hs)⟩)
    obtain ⟨z, hstart, rfl⟩ := exists_enter_of_none (fun _ _ _ _ => starts_of_readerRules) hmove hx hy
    rw [hdone, hold]
    exact (hstart.2.2 z rfl).records
  | some x =>
    have hrecords := ih hopen' hown' x hx
    by_cases hsignal : ∃ s, old = [.call (.signal i s)]
    · obtain ⟨s, rfl⟩ := hsignal
      have hsignal : ([.call (.signal i s)] : List (Task Step)).filterMap (Task.signalTo? i) = [s] :=
        List.filterMap_cons_some (if_pos rfl)
      rw [hsignal]
      obtain ⟨-, -, hafter⟩ := hmove.of_mem (List.mem_singleton_self _)
      have huse : (Task.call (.signal i s) : Task Step).use? = some (i, .heard s) := rfl
      obtain ⟨y', a, hy', hbecomes, -⟩ := Exchange.reception?_use environment huse hx
      rw [hafter] at hy
      obtain rfl := Option.some.inj (hy'.symm.trans hy)
      exact hrecords.heard hbecomes
    · obtain ⟨y', hy', hbecomes⟩ := hmove.reception hx
      obtain rfl := Option.some.inj (hy'.symm.trans hy)
      have hnone : old.filterMap (Task.signalTo? i) = [] :=
        List.eq_nil_iff_forall_not_mem.mpr fun s hs => by
          exact hsignal ⟨s, (hmove.of_mem (Task.mem_filterMap_signalTo?.mp hs)).1⟩
      rw [hnone, List.append_nil]
      rcases hbecomes with rfl | ⟨t, u, a, rfl, hu, hbecomes⟩
      · exact hrecords
      · refine hrecords.of_use hbecomes ?_ ?_
        · rintro s rfl
          exact hsignal ⟨s, by rw [eq_signal_of_use? hu]⟩
        · rintro rfl
          exact hcancel (by rw [eq_own_of_use? hu]; exact List.mem_singleton_self _)

/-! ## Streams that nobody disturbs -/

/-- The stream object `j`, which is labelled `l` once it is there, has a number and a consumer of its
own, and nothing but frames happens to it: the connection is open, its consumer does not cancel, and
none of its frames is refused. -/
structure Undisturbed (j : Nat) (l : Label) (c : Crew ι Chronicle Step) : Prop where
  kind : l.kind ≠ .detached
  label : ∀ l', c.exchange.far.connection.labels[j]? = some l' → l' = l
  sole : ∀ (j' : Nat) (l' : Label), c.exchange.far.connection.labels[j']? = some l' →
    l'.interaction = l.interaction → j' = j
  unshared : ∀ (j' : Nat) (l' : Label), c.exchange.far.connection.labels[j']? = some l' →
    l'.id = l.id → j' = j
  isOpen : c.exchange.far.connection.closed = false
  uncanceled : .own l.interaction .cancel ∉ c.done
  accepted : ∀ a ∈ c.exchange.far.attempts, a.frame.stream = l.id → a.isRefused = false

/-- Whatever does not happen had not happened before. -/
theorem Undisturbed.of_turns (h : Undisturbed j l d)
    (hmove : Move environment (newRules ι) k c.exchange old new d.exchange)
    (hturns : Turns k old new c d) : Undisturbed j l c where
  kind := h.kind
  label l' hl' := h.label l' (keeps_move hmove j l' hl')
  sole j' l' hl' := h.sole j' l' (keeps_move hmove j' l' hl')
  unshared j' l' hl' := h.unshared j' l' (keeps_move hmove j' l' hl')
  isOpen := isOpen_of_move hmove h.isOpen
  uncanceled hdone := h.uncanceled (hturns.mem_done.mpr (Or.inl hdone))
  accepted a ha := h.accepted a (attempts_move hmove ha)

theorem Undisturbed.entered (h : Undisturbed j l c)
    (hreach : Crew.Reach environment (newRules ι) start c) (hj : c.exchange.far.Registered j) :
    c.exchange.far.Entered j l := by
  obtain ⟨l', hl', -⟩ := knows_of_due hreach _ (Or.inl ((mem_told hreach).mp hj))
  obtain rfl := h.label l' hl'
  refine ⟨hj, hl', fun j' m l'' hm hl'' hid => ?_⟩
  obtain rfl := h.label m hm
  exact h.unshared j' l'' hl'' hid

/-- Its consumer is in the table for its own number only. -/
theorem Undisturbed.registered (h : Undisturbed j l c)
    (hreach : Crew.Reach environment (newRules ι) start c) {id : UInt32}
    (hin : c.exchange.far.connection.routes.inbound? id = some l.interaction) :
    id = l.id ∧ c.exchange.far.Registered j := by
  obtain ⟨j', l', hl', rfl, hi, hj'⟩ := exists_label_of_inbound hreach hin
  obtain rfl := h.sole j' l' hl' hi
  exact ⟨by rw [h.label l' hl'], hj'⟩

/-- **Only frames have something to say to its consumer.** -/
theorem Undisturbed.answer (h : Undisturbed j l c)
    (hreach : Crew.Reach environment (newRules ι) start c) {event : Event Step}
    (hpending : c.Pending (.tell event)) {s : Signal Payload}
    (hs : (l.interaction, s) ∈ c.exchange.far.connection.signalsOn event) :
    ∃ f, event = .resumed (.receive f) := by
  obtain ⟨f, id, rfl, -⟩ | ⟨id, fault, rfl, hin⟩ | ⟨f, rfl⟩ | ⟨reason, rfl⟩ :=
    Connection.signalsOn_cases hs
  · exact ⟨f, rfl⟩
  · obtain ⟨rfl, -⟩ := h.registered hreach hin
    obtain ⟨a, ha, hrefused, hid⟩ := backed_of_due hreach _ (Or.inr hpending)
    rw [h.accepted a ha hid] at hrefused
    cases hrefused
  · obtain ⟨j', l', hl', hi, hk⟩ := knows_of_due hreach _ (Or.inr hpending)
    obtain rfl := h.sole j' l' hl' hi
    obtain rfl := h.label l' hl'
    exact absurd hk h.kind
  · have hclosed : c.exchange.far.connection.closed = true :=
      backed_of_due hreach _ (Or.inr hpending)
    rw [h.isOpen] at hclosed
    cases hclosed

/-! ## What is delivered -/

/-- **What the consumer of a stream was told, and what the reader is about to tell it, is what the
frames of the stream say.** -/
structure Delivered (reader : ι) (j : Nat) (l : Label) (c : Crew ι Chronicle Step) : Prop where
  others : ∀ k s, .call (.signal l.interaction s) ∈ c.stack k → k = reader
  signals : c.signalsTo l.interaction ++
      (c.stack reader).filterMap (Task.signalTo? l.interaction) =
    Signal.untilEnd (c.exchange.far.answersSince j l.id)

omit [DecidableEq ι] in
/-- Whoever is sent an end is told so by a frame. -/
theorem Delivered.mem_answersSince (h : Delivered reader j l c) {s : Signal Payload}
    (hs : s.isTerminal = true) (hdue : c.Due (.call (.signal l.interaction s))) :
    ∃ s ∈ c.exchange.far.answersSince j l.id, s.isTerminal = true := by
  refine Signal.exists_terminal_untilEnd.mp ⟨s, ?_, hs⟩
  rw [← h.signals, List.mem_append]
  rcases hdue with hdone | ⟨k, hk⟩
  · exact Or.inl (mem_signalsTo.mpr hdone)
  · rw [h.others k s hk] at hk
    exact Or.inr (Task.mem_filterMap_signalTo?.mpr hk)

/-- Whoever is sent an end is not in the table any more. -/
theorem not_inbound_of_signal (h : Crew.Reach environment (newRules ι) start c)
    {s : Signal Payload} (hs : s.isTerminal = true) (hdue : c.Due (.call (.signal i s)))
    (id : UInt32) :
    c.exchange.far.connection.routes.inbound? id ≠ some i := by
  intro hin
  have hnamed : 1 ≤ c.exchange.far.connection.routes.uses i := by
    have htake := Routes.uses_takeInbound_le id i c.exchange.far.connection.routes
    rw [if_pos hin] at htake
    omega
  have hending : ending i (.call (.signal i s)) = 1 := if_pos ⟨rfl, hs⟩
  have hshare : share i c.exchange ≤ 1 := by
    unfold share
    split <;> omega
  have htally := (isTally_loads i).atMost h
  rcases hdue with hdone | ⟨k, hk⟩
  · have hle := htally.kept_add_used_le
    have hused := Crew.le_weight (w := ending i) hdone
    dsimp only [loads] at hle
    omega
  · have hle := htally.of_mem hk
    have hcarried : (loads i).carried c.exchange (.call (.signal i s)) = 1 := by
      simp [loads, opening, charge, hending]
    rw [hcarried] at hle
    dsimp only [loads] at hle
    omega

/-- **A consumer is in the table from the entry of its stream up to the first frame that ends it.** -/
theorem Delivered.inbound?_iff (h : Delivered reader j l c) (hquiet : Undisturbed j l c)
    (hreach : Crew.Reach environment (readerRules reader) start c) :
    c.exchange.far.connection.routes.inbound? l.id = some l.interaction ↔
      c.exchange.far.Registered j ∧
        ∀ s ∈ c.exchange.far.answersSince j l.id, s.isTerminal = false := by
  have hreach' := reach_newRules hreach
  constructor
  · intro hin
    refine ⟨(hquiet.registered hreach' hin).2, fun s hs => ?_⟩
    by_contra hend
    obtain ⟨s, hs, hend⟩ :=
      Signal.exists_terminal_untilEnd.mpr ⟨s, hs, by simpa using hend⟩
    rw [← h.signals, List.mem_append] at hs
    refine not_inbound_of_signal hreach' hend ?_ l.id hin
    exact hs.imp mem_signalsTo.mp fun hs => ⟨reader, Task.mem_filterMap_signalTo?.mp hs⟩
  · rintro ⟨hj, hopen⟩
    refine (routed_or_over hreach' (hquiet.entered hreach' hj)).resolve_right ?_
    rintro (⟨s, hs, hdue⟩ | ⟨x, hx, hcanceled⟩)
    · obtain ⟨s, hs, hend⟩ := h.mem_answersSince hs hdue
      rw [hopen s hs] at hend
      cases hend
    · -- Nobody has canceled, so the consumer ended by what it was told.
      have hrecords := records_of_reach hreach hquiet.isOpen hquiet.uncanceled hx
      rw [hrecords.terminal, List.findSome?_eq_some_iff] at hcanceled
      obtain ⟨_, s, _, -, hs, -⟩ := hcanceled
      cases s <;> cases hs

omit [DecidableEq ι] in
/-- What is told besides frames says nothing to a consumer. -/
theorem answersSince_of_no_frame (hmove : Move environment (newRules ι) k e old new e')
    (hframe : ∀ f, .tell (.resumed (.receive f)) ∉ old) (j : Nat) (id : UInt32) :
    e'.far.answersSince j id = e.far.answersSince j id := by
  have hnone : (old.filterMap Task.event?).filterMap received? = [] :=
    List.eq_nil_iff_forall_not_mem.mpr fun f hf => by
      obtain ⟨event, hevent, hf⟩ := List.mem_filterMap.mp hf
      unfold received? at hf
      split at hf <;> cases hf
      exact hframe f (Task.mem_filterMap_event?.mp hevent)
  rw [answersSince, answersSince, framesSince, framesSince]
  by_cases hj : e.far.Registered j
  · rw [since_move hmove hj, List.filterMap_append, hnone, List.append_nil]
  · rw [since_move_of_not_registered hmove hj, since_of_not_registered hj]

omit [DecidableEq ι] in
/-- A frame that is looked at says something to the consumers of streams that were entered. -/
theorem answersSince_receive {f : Frame}
    (hmove : Move environment (newRules ι) k e [.tell (.resumed (.receive f))] new e')
    (j : Nat) (id : UInt32) :
    (e.far.Registered j ∧
      e'.far.answersSince j id = e.far.answersSince j id ++ (f.answer? id).toList) ∨
      (¬ e.far.Registered j ∧ e.far.answersSince j id = [] ∧ e'.far.answersSince j id = []) := by
  rw [answersSince, answersSince, framesSince, framesSince]
  by_cases hj : e.far.Registered j
  · refine Or.inl ⟨hj, ?_⟩
    have hevent : ([.tell (.resumed (.receive f))] : List (Task Step)).filterMap Task.event? =
        [.resumed (.receive f)] := rfl
    have hframe : ([.resumed (.receive f)] : List (Event Step)).filterMap received? = [f] := rfl
    rw [since_move hmove hj, hevent, List.filterMap_append, hframe, List.filterMap_append]
    refine congrArg _ ?_
    cases ha : f.answer? id with
    | none => exact List.filterMap_cons_none ha
    | some s => exact List.filterMap_cons_some ha
  · rw [since_move_of_not_registered hmove hj, since_of_not_registered hj]
    exact Or.inr ⟨hj, rfl, rfl⟩

/-- The reader looks at a frame when it has delivered those before. -/
theorem Delivered.receive (h : Delivered reader j l c) (hquiet : Undisturbed j l c)
    (hreach : Crew.Reach environment (readerRules reader) start c) {f : Frame}
    (hmove : Move environment (readerRules reader) k c.exchange [.tell (.resumed (.receive f))] new
      d.exchange) (hturns : Turns k [.tell (.resumed (.receive f))] new c d) :
    d.signalsTo l.interaction ++ (d.stack reader).filterMap (Task.signalTo? l.interaction) =
      Signal.untilEnd (d.exchange.far.answersSince j l.id) := by
  have hreach' := reach_newRules hreach
  obtain ⟨rfl, hstack⟩ :=
    alone_of_isReading hreach (hturns.mem_old (List.mem_singleton_self _)) trivial
  have hbefore : c.signalsTo l.interaction =
      Signal.untilEnd (c.exchange.far.answersSince j l.id) := by
    rw [← h.signals, hstack]
    exact (List.append_nil _).symm
  have hnew : new.filterMap (Task.signalTo? l.interaction) =
      if c.exchange.far.connection.routes.inbound? l.id = some l.interaction then
        (f.answer? l.id).toList else [] := by
    rcases far_cases hmove.of_restrict with ⟨event, heq, hnew, -⟩ | ⟨hnone, -⟩
    · cases heq
      rw [hnew]
      exact Connection.signalTo?_receive (fun id' hin => (hquiet.registered hreach' hin).1) f
    · cases hnone
  obtain ⟨rest, hc, hd, -⟩ := hturns.stack
  obtain rfl : rest = [] := (List.cons.inj (hc.symm.trans hstack)).2
  have hdone : d.signalsTo l.interaction = c.signalsTo l.interaction :=
    (signalsTo_turns hturns _).trans (List.append_nil _)
  rw [hdone, hbefore, hd, Function.update_self, List.append_nil, hnew]
  have hiff := h.inbound?_iff hquiet hreach
  rcases answersSince_receive hmove.of_restrict j l.id with ⟨hj, hafter⟩ | ⟨hj, hempty, hafter⟩
  · rw [hafter]
    by_cases hopen : ∀ s ∈ c.exchange.far.answersSince j l.id, s.isTerminal = false
    · rw [if_pos (hiff.mpr ⟨hj, hopen⟩)]
      cases f.answer? l.id with
      | none => rw [Option.toList_none, List.append_nil, List.append_nil]
      | some s => exact (Signal.untilEnd_concat_of_open hopen s).symm
    · rw [if_neg fun hin => hopen (hiff.mp hin).2, List.append_nil,
        Signal.untilEnd_append_of_ended (by simpa using hopen)]
  · rw [hempty, hafter, if_neg fun hin => hj (hiff.mp hin).1]
    rfl

/-- **However the threads interleave, the consumer of a stream is told what its frames say.** -/
theorem delivered_of_reach (h : Crew.Reach environment (readerRules reader) start c)
    (hquiet : Undisturbed j l c) : Delivered reader j l c := by
  refine reading_induction (P := fun c => Undisturbed j l c → Delivered reader j l c) h
    (fun _ => ⟨fun k s hs => (by cases hs), rfl⟩)
    (fun {c d k old new} hreach ih hmove hturns hquiet => ?_) hquiet
  have hquiet := hquiet.of_turns hmove.of_restrict hturns
  have hdelivered := ih hquiet
  have hread {s : Signal Payload} (hs : .call (.signal l.interaction s) ∈ new) :
      ∃ f, old = [.tell (.resumed (.receive f))] := by
    obtain ⟨event, rfl, hs⟩ := exists_event_of_signal hmove.of_restrict hs
    obtain ⟨f, rfl⟩ := hquiet.answer (reach_newRules hreach)
      ⟨k, hturns.mem_old (List.mem_singleton_self _)⟩ hs
    exact ⟨f, rfl⟩
  constructor
  · intro k' s hs
    rcases hturns.mem_stack hs with hs | ⟨rfl, hs⟩
    · exact hdelivered.others k' s hs
    · obtain ⟨f, rfl⟩ := hread hs
      exact (alone_of_isReading hreach (hturns.mem_old (List.mem_singleton_self _)) trivial).1
  · by_cases hframe : ∃ f, old = [.tell (.resumed (.receive f))]
    · obtain ⟨f, rfl⟩ := hframe
      exact hdelivered.receive hquiet hreach hmove hturns
    · -- Nothing is said, and what was about to be told may have been told.
      have hsame : d.exchange.far.answersSince j l.id = c.exchange.far.answersSince j l.id := by
        exact answersSince_of_no_frame hmove.of_restrict
          (fun f hf => hframe ⟨f, (hmove.of_mem hf).1⟩) j l.id
      have hnew : new.filterMap (Task.signalTo? l.interaction) = [] :=
        List.eq_nil_iff_forall_not_mem.mpr fun s hs =>
          hframe (hread (Task.mem_filterMap_signalTo?.mp hs))
      obtain ⟨rest, hc, hd, -⟩ := hturns.stack
      rw [hsame, ← hdelivered.signals, signalsTo_turns hturns, List.append_assoc]
      congr 1
      by_cases hk : reader = k
      · subst hk
        rw [hc, hd, Function.update_self, List.filterMap_append, List.filterMap_append, hnew,
          List.nil_append]
      · have hold : old.filterMap (Task.signalTo? l.interaction) = [] :=
          List.eq_nil_iff_forall_not_mem.mpr fun s hs => hk
            (hdelivered.others k s (hturns.mem_old (Task.mem_filterMap_signalTo?.mp hs))).symm
        rw [hold, List.nil_append, hd, Function.update_of_ne hk]

/-- **Between two frames a consumer has got what the frames of its stream say.** -/
theorem records_answersSince (h : Crew.Reach environment (readerRules reader) start c)
    (hquiet : Undisturbed j l c) (hidle : c.stack reader = [])
    (hx : c.exchange.reception? l.interaction = some x) :
    x.Records (c.exchange.far.answersSince j l.id) := by
  have hsignals := (delivered_of_reach h hquiet).signals
  rw [hidle, List.filterMap_nil, List.append_nil] at hsignals
  refine Reception.Records.of_untilEnd ?_
  rw [← hsignals]
  exact records_of_reach h hquiet.isOpen hquiet.uncanceled hx

end Chronicle

end Client
end StreamConformance
