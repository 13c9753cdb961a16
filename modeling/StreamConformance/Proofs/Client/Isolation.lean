import StreamConformance.Proofs.Client.Cancellations
import StreamConformance.Proofs.Client.Numbers
import StreamConformance.Proofs.Client.Producers

/-!
# Streams do not disturb each other

Whatever frames a peer sends - for streams that there are, were or never have been, twice, too late or
in any order - each of them is for one stream, and the others do not notice it.  Besides, the two
halves of a stream do not notice what is for the other half, but for an error, which ends both.

* `Chronicle.IsIsolated`: all that frames mean to a stream, to its consumer and to its producer.
* `Chronicle.isIsolated_of_reach`: that is so for every stream that nobody disturbs, at any time and
  however the threads interleave.

A message without answers takes a number, but no stream is opened with it: its consumer is not in the
route table.
-/

namespace StreamConformance
namespace Client

open Crew (Move Turns)
open Wire (Frame)

namespace Chronicle

variable {ι : Type} {c d : Crew ι Chronicle Step} {reader : ι} {i j : Nat} {l : Label}

/-- What frames mean to the stream object `j` with the label `l`.  Frames count if the thread `reader`
looks at them when the stream has been entered into the route table; a frame has done all that it
leads to when the reader has nothing left to do. -/
structure IsIsolated (reader : ι) (j : Nat) (l : Label) (d : Crew ι Chronicle Step) : Prop where
  odd : l.id.toNat % 2 = 1
  /-- No other stream has its number. -/
  unshared : d.exchange.far.connection.Unshared j
  /-- Its consumer has got the items for the stream before the first end of it, and that end. -/
  delivered : d.stack reader = [] → ∃ x, d.exchange.reception? l.interaction = some x ∧
    x.Records (d.exchange.far.answersSince j l.id)
  /-- With the first frame by which the peer wants no more items, that is so for good. -/
  stopped : d.stack reader = [] → ∀ f ∈ d.exchange.far.framesSince j, detachesLink l.id f →
    d.exchange.far.Stopped j l.id
  /-- It is so because of a frame only.  The reader may still have been busy with that when the stream
  was entered. -/
  because : d.exchange.far.Stopped j l.id → ∃ f, detachesLink l.id f ∧
    (f ∈ d.exchange.far.framesSince j ∨ d.exchange.far.frameBefore? j = some f)
  /-- A producer that has given its subscription, or gives it only now, is then told to stop, unless
  it has ended. -/
  canceled : l.kind = .channel → d.stack reader = [] → d.exchange.far.Stopped j l.id →
    d.exchange.far.Attached j → d.exchange.far.Ended j ∨ d.Due (.call (.ask l.interaction .cancel))
  /-- It is not told to stop before. -/
  spared : d.Due (.call (.ask l.interaction .cancel)) →
    d.exchange.far.Ended j ∨ d.exchange.far.Stopped j l.id
  once : d.done.countP (cancelsProducer l.interaction) ≤ 1
  /-- A script that was told to stop has an emitter that is canceled. -/
  halted : d.Quiet → .call (.ask l.interaction .cancel) ∈ d.done →
    ∀ p, d.exchange.scripted? l.interaction = some p → p.emitter.canceled = true

variable [DecidableEq ι]

/-- A stream is undisturbed if its owner and the network leave it alone, and there are enough
numbers. -/
theorem undisturbed_of_reach (h : Crew.Reach environment (newRules ι) start d)
    (hn : d.exchange.far.allotted ≤ 2 ^ 31) (hopen : d.exchange.far.connection.closed = false)
    (hl : d.exchange.far.connection.labels[j]? = some l) (hk : l.kind ≠ .detached)
    (hown : .own l.interaction .cancel ∉ d.done)
    (haccepted : ∀ a ∈ d.exchange.far.attempts, a.frame.stream = l.id → a.isRefused = false) :
    Undisturbed j l d where
  kind := hk
  label _ hl' := Option.some.inj (hl'.symm.trans hl)
  sole _ _ hl' hi := eq_of_interaction h hl' hl hi
  unshared j' l' hl' hid := unshared_of_allotted_le h hn hl hk j' l l' hl hl' hid
  isOpen := hopen
  uncanceled := hown
  accepted := haccepted

/-- **Streams do not disturb each other.**  Let any number of threads open streams and use them, and
let one of them read any frames.  What becomes of a stream that its owner does not cancel, and of which
no frame is refused as long as the connection is open, depends on the frames for it only. -/
theorem isIsolated_of_reach (h : Crew.Reach environment (readerRules reader) start d)
    (hn : d.exchange.far.allotted ≤ 2 ^ 31) (hopen : d.exchange.far.connection.closed = false)
    (hl : d.exchange.far.connection.labels[j]? = some l) (hk : l.kind ≠ .detached)
    (hown : .own l.interaction .cancel ∉ d.done)
    (haccepted : ∀ a ∈ d.exchange.far.attempts, a.frame.stream = l.id → a.isRefused = false) :
    IsIsolated reader j l d := by
  have hreach := reach_newRules h
  have hquiet := undisturbed_of_reach hreach hn hopen hl hk hown haccepted
  -- A link is dismissed by the reader, when it was looked for.
  have hdismissed : d.exchange.far.Dismissed j → d.exchange.far.Stopped j l.id := by
    rintro ⟨event, hevent, hdismisses⟩
    unfold dismisses at hdismisses
    split at hdismisses
    · obtain rfl := eq_of_beq hdismisses
      exact stopped_of_cancelProducer hreach hquiet (Or.inr rfl)
        (Or.inl ((mem_told hreach).mp hevent))
    · cases hdismisses
  refine
    { odd := odd_of_label hreach hl hk
      unshared := unshared_of_allotted_le hreach hn hl hk
      delivered := fun hidle => ?_
      stopped := fun hidle f hf hstops => ?_
      because := exists_frame_of_stopped h hopen
      canceled := fun hchannel hidle hstopped hatt => ?_
      spared := fun hdue => (ended_or_dismissed_of_ask hreach hquiet.sole hdue).imp_right hdismissed
      once := countP_cancelsProducer_le hreach hquiet.sole
      halted := fun hquiet hask p hp =>
        (canceled_of_ask hreach hask hp).resolve_right hquiet.not_pending }
  · obtain ⟨x, hx⟩ := Exchange.exists_reception?_of_lt (lt_size_of_label hreach hl)
    exact ⟨x, hx, records_answersSince h hquiet hidle hx⟩
  · rcases stopped_of_frame hreach hf hstops with hcall | htell | hstopped
    · exact absurd hcall (not_pending_of_idle h hopen hidle trivial)
    · exact absurd htell (not_pending_of_idle h hopen hidle trivial)
    · exact hstopped
  · have hlink : (d.exchange.far.connection.linkAt j).outboundDone = true := by
      have hdue := due_cancelProducer_of_stopped hreach hquiet hchannel hstopped
      rcases outboundDone_of_due hreach hdue with hlink | hcall | htell
      · exact hlink
      · exact absurd hcall (not_pending_of_idle h hopen hidle trivial)
      · exact absurd htell (not_pending_of_idle h hopen hidle trivial)
    exact ended_or_asked hreach (Connection.serves_of_label hl hchannel) hlink hatt

/-! ## A hostile peer -/

/-- The thread `true` reads a frame, if it has nothing else to do, and does what that leads to. -/
def reads (c : Crew Bool Chronicle Step) (f : Frame) : Crew Bool Chronicle Step :=
  if (c.stack true).isEmpty then
    (c.turn true [.call (.resume (.receive f))] c.exchange).play environment (List.replicate 8 true)
  else c

theorem reach_reads (c : Crew Bool Chronicle Step) (f : Frame) :
    Crew.Reach environment (readerRules true) c (reads c f) := by
  unfold reads
  split
  · rename_i hidle
    refine (Relation.ReflTransGen.single (.start (List.isEmpty_iff.mp hidle)
      ⟨⟨Starts.arrive f, opensNew_self _ _ _⟩, fun _ _ => rfl, fun x hx => ?_⟩)).trans
      (Crew.reach_play ..)
    exact absurd hx (enter_ne_self x _)
  · exact .refl

theorem reach_foldl_reads (frames : List Frame) (c : Crew Bool Chronicle Step) :
    Crew.Reach environment (readerRules true) c (frames.foldl reads c) := by
  induction frames generalizing c with
  | nil => exact .refl
  | cons f frames ih => exact (reach_reads c f).trans (ih (reads c f))

/-- A request is sent, which nobody asks for answers. -/
def requested : Crew Bool Chronicle Step :=
  (start.turn false [.tell (.opened 0 .requestStream ⟨"a", "b"⟩ 0)]
    (Exchange.enter { receiver := .payloads { label := "request", initialDemand := 0 } }
      { far := {} })).play environment (List.replicate 8 false)

/-- Then a channel is opened, whose producer is not attached yet. -/
def channelOpened : Crew Bool Chronicle Step :=
  (requested.turn false [.tell (.openedChannel 0 requested.exchange.interactions.size)]
    (requested.exchange.enter
      { receiver := .payloads { label := "channel", initialDemand := 0 }
        producer := .scripted { initial := .pending ⟨"c", "d"⟩ } })).play environment
    (List.replicate 4 false)

/-- What the peer sends: for both streams and for others, also after their ends. -/
def hostileFrames : List Frame :=
  [.next 3 ⟨"u", ""⟩, .next 1 ⟨"v", ""⟩, .complete 5, .cancel 3, .requestN 3 5, .cancel 1, .cancel 3,
    .requestStream 1 7 ⟨"w", ""⟩, .next 3 ⟨"x", ""⟩, .error 3 "too bad", .next 3 ⟨"y", ""⟩,
    .next 1 ⟨"z", ""⟩, .complete 1, .complete 3, .error 1 "too late", .next 1 ⟨"v", ""⟩]

/-- The frames are read, and then the producer of the channel is attached. -/
def beset : Crew Bool Chronicle Step :=
  (hostileFrames.foldl reads channelOpened).play environment (List.replicate 20 false)

/-- A consumer of payloads may be opened for a request or a channel. -/
theorem readsAlone_enter {k : Bool} {x : Interaction} (hx : x.receiver.reception.IsFresh)
    (e : Exchange Chronicle) (event : Event Step) :
    ReadsAlone true k e (e.enter x) [.tell event] := by
  refine ⟨fun f hf => (by cases List.mem_singleton.mp hf), fun y hy => ?_⟩
  rw [← eq_of_enter_eq hy]
  exact hx

theorem isFresh_payloads (label : String) (n : Nat) :
    (Receiver.payloads { label := label, initialDemand := n }).reception.IsFresh :=
  ⟨rfl, rfl, fun _ h => (Option.some.inj h).symm⟩

theorem stack_requested : (requested.stack false).isEmpty = true := by
  decide +kernel

theorem reach_beset : Crew.Reach environment (readerRules true) start beset := by
  have hrequest : Crew.Reach environment (readerRules true) start requested :=
    (Relation.ReflTransGen.single (.start rfl
      ⟨⟨Starts.request _ .requestStream ⟨"a", "b"⟩, opensNew_enter _ rfl _⟩,
        readsAlone_enter (isFresh_payloads "request" 0) _ _⟩)).trans (Crew.reach_play ..)
  have hchannel := hrequest.tail (.start (List.isEmpty_iff.mp stack_requested)
    ⟨⟨Starts.channel (.payloads { label := "channel", initialDemand := 0 }) (.scripted ⟨"c", "d"⟩),
      opensNew_enter _ rfl _⟩, readsAlone_enter (isFresh_payloads "channel" 0) _ _⟩)
  exact ((hchannel.trans (Crew.reach_play ..)).trans (reach_foldl_reads hostileFrames _)).trans
    (Crew.reach_play ..)

/-- What the run is about: each consumer has got what was for its stream, and the producer is
canceled, once. -/
theorem beset_eq :
    (beset.stack true).isEmpty = true ∧ beset.exchange.far.allotted = 2 ∧
      beset.exchange.far.connection.closed = false ∧
      beset.exchange.far.connection.labels =
        [{ id := 1, interaction := 0, kind := .request },
          { id := 3, interaction := 1, kind := .channel }] ∧
      (beset.done.all fun t => (t.use?.map fun u => match u.2 with
        | .demanded .cancel => false
        | _ => true).getD true) = true ∧
      beset.exchange.far.attempts.isEmpty = true ∧
      (beset.exchange.reception? 0).map (fun x => (x.items, x.terminal)) =
        some (some [⟨"v", ""⟩, ⟨"z", ""⟩], some .completed) ∧
      (beset.exchange.reception? 1).map (fun x => (x.items, x.terminal)) =
        some (some [⟨"u", ""⟩, ⟨"x", ""⟩], some (.errored "too bad")) ∧
      beset.done.countP (cancelsProducer 1) = 1 := by
  decide +kernel

theorem isIsolated_beset :
    Crew.Reach environment (readerRules true) start beset ∧ beset.stack true = [] ∧
      IsIsolated true 0 { id := 1, interaction := 0, kind := .request } beset ∧
      IsIsolated true 1 { id := 3, interaction := 1, kind := .channel } beset := by
  obtain ⟨hidle, hallotted, hopen, hlabels, hdone, hattempts, -⟩ := beset_eq
  have hown (i : Nat) : .own i .cancel ∉ beset.done := fun hmem => by
    have hkept := List.all_eq_true.mp hdone _ hmem
    cases hkept
  have haccepted (id : UInt32) :
      ∀ a ∈ beset.exchange.far.attempts, a.frame.stream = id → a.isRefused = false := by
    rw [List.isEmpty_iff.mp hattempts]
    rintro a ⟨⟩
  have hn : beset.exchange.far.allotted ≤ 2 ^ 31 := by
    rw [hallotted]
    decide
  refine ⟨reach_beset, List.isEmpty_iff.mp hidle, ?_, ?_⟩
  · exact isIsolated_of_reach reach_beset hn hopen (by rw [hlabels]; rfl) (by decide) (hown 0)
      (haccepted 1)
  · exact isIsolated_of_reach reach_beset hn hopen (by rw [hlabels]; rfl) (by decide) (hown 1)
      (haccepted 3)

end Chronicle
end Client
end StreamConformance
