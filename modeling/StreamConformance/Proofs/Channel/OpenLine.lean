import StreamConformance.Proofs.Channel.Account
import StreamConformance.Proofs.Channel.Line

/-!
# Lines with an open channel

Once the script has opened its channel, the line is in one of the states that this file
describes: an `OpenLine` says what the near side of the channel, the link, the queues and the
responder are, and what the script and the reader have in hand.  All that threads may have to do
besides concerns the demand that the producer has been granted (`IsBenign`) and decides nothing.

* `OpenLine.IsConsistent`: the invariant.
* `OpenLine.exists_of_step`: every step leads from a consistent state to a consistent state, as
  long as no frame fails to be written.
-/

namespace StreamConformance

open Client (Connection Step Stream Link)
open Responder (Conversation Echoes)
open Wire (Frame ChannelTape payloads grants)

namespace Line

/-- What the script has in hand. -/
inductive Hand where
  | free
  /-- It asks the consumer for `n` items. -/
  | asking (n : Nat)
  /-- The consumer asks the link for `n` items. -/
  | granting (n : Nat)
  /-- The producer sends a signal to the link. -/
  | sending (s : Signal Payload)

/-- The task that the script has in hand. -/
def Hand.tasks : Hand → List (Task Step)
  | .free => []
  | .asking n => [.own 0 (.request n)]
  | .granting n => [.tell (.asked peer (.request n))]
  | .sending s => [.tell (.heard peer s)]

/-- The demand that the script has in hand. -/
def Hand.demand : Hand → Nat
  | .granting n => n
  | _ => 0

/-- What the reader has in hand. -/
inductive Reading where
  | free
  /-- A frame that it has taken. -/
  | taken (f : Frame)
  | handed (f : Frame)
  /-- An item for the consumer. -/
  | delivering (p : Payload)
  /-- The completion for the consumer. -/
  | completing
  /-- Demand for the link. -/
  | crediting (n : Nat)
  | credited (n : Nat)
  /-- Demand for the producer. -/
  | granted (n : Nat)

/-- The task that the reader has in hand. -/
def Reading.tasks : Reading → List (Task Step)
  | .free => []
  | .taken f => [.call (.resume (.receive f))]
  | .handed f => [.tell (.resumed (.receive f))]
  | .delivering p => [.call (.signal 0 (.next p))]
  | .completing => [.call (.signal 0 .complete)]
  | .crediting n => [.call (.resume (.askProducer 0 n))]
  | .credited n => [.tell (.resumed (.askProducer 0 n))]
  | .granted n => [.call (.ask 0 (.request n))]

/-- The reader has nothing in hand for the consumer. -/
def Reading.IsIdle : Reading → Prop
  | .free => True
  | .crediting _ => True
  | .credited _ => True
  | .granted _ => True
  | _ => False

/-- Tasks that only pass demand on to an emitter. -/
inductive IsBenign : Task Step → Prop where
  | settle (n : Nat) : IsBenign (.settle 0 n)
  | passOn (n : Nat) : IsBenign (.passOn 0 (.request n))
  | openGate (r : Handle) : IsBenign (.openGate 0 r)

/-- A task neither sends an item nor asks for one. -/
def IsQuiet (t : Task Step) : Prop :=
  Crew.signal? peer t = none ∧ requested t = 0

theorem IsBenign.isQuiet {t : Task Step} (ht : IsBenign t) : IsQuiet t := by
  cases ht <;> exact ⟨rfl, rfl⟩

end Line

open Line

/-- A line with an open channel. -/
structure OpenLine where
  consumer : Consumer Payload Handle Target
  producer : ScriptedProducer
  link : Link
  /-- The consumer, as long as the route table knows it. -/
  inbound : Option Nat := some 0
  written : List Frame
  conversation : Conversation := {}
  handled : Nat := 0
  replied : List Frame := []
  read : Nat := 0
  hand : Hand := .free
  /-- What the script has to do behind what it has in hand. -/
  scriptRest : List (Task Step) := []
  reading : Reading := .free
  /-- What the reader has to do behind what it has in hand. -/
  readerRest : List (Task Step) := []
  done : List (Task Step)

namespace OpenLine

/-- The line itself. -/
def line (v : OpenLine) : Line where
  connection :=
    { nextStream := 3
      streams := #[{ id := stream, interaction := 0, side := .channel v.link }]
      routes := { entries := [(stream, { inbound := v.inbound, outbound := some 0 })] }
      written := v.written }
  conversation := v.conversation
  handled := v.handled
  replied := v.replied
  read := v.read

/-- The near side of the channel, and the line. -/
def exchange (v : OpenLine) : Exchange Line where
  far := v.line
  interactions := #[{ receiver := .payloads v.consumer, producer := .scripted v.producer }]

/-- The parties at the line. -/
def crew (v : OpenLine) : Crew Party Line Step where
  exchange := v.exchange
  stack
    | .script => v.hand.tasks ++ v.scriptRest
    | .reader => v.reading.tasks ++ v.readerRest
    | .responder => []
  done := v.done

/-- How far the reader has got with the frames `fs` that it has taken. -/
inductive Reads (c : Consumer Payload Handle Target) : Option Nat → List Frame → Reading → Prop where
  | idle {inbound : Option Nat} {fs : List Frame} {r : Reading} (hr : r.IsIdle)
      (hitems : payloads fs = c.values)
      (hopen : c.terminal = none ∧ inbound = some 0 ∧ .complete stream ∉ fs ∨
        c.terminal = some .completed ∧ .complete stream ∈ fs) : Reads c inbound fs r
  | taken {fs : List Frame} {f : Frame} (hitems : payloads fs = c.values)
      (hopen : c.terminal = none) (hnot : .complete stream ∉ fs) :
      Reads c (some 0) (fs ++ [f]) (.taken f)
  | handed {fs : List Frame} {f : Frame} (hitems : payloads fs = c.values)
      (hopen : c.terminal = none) (hnot : .complete stream ∉ fs) :
      Reads c (some 0) (fs ++ [f]) (.handed f)
  | delivering {fs : List Frame} {p : Payload} (hitems : payloads fs = c.values)
      (hopen : c.terminal = none) (hnot : .complete stream ∉ fs) :
      Reads c (some 0) (fs ++ [.next stream p]) (.delivering p)
  | completing {fs : List Frame} (hitems : payloads fs = c.values)
      (hopen : c.terminal = none) (hnot : .complete stream ∉ fs) :
      Reads c none (fs ++ [.complete stream]) .completing

theorem Reads.of_isIdle {c : Consumer Payload Handle Target} {inbound : Option Nat}
    {fs : List Frame} {r r' : Reading} (h : Reads c inbound fs r) (hr : r.IsIdle)
    (hr' : r'.IsIdle) : Reads c inbound fs r' := by
  cases h with
  | idle _ hitems hopen => exact .idle hr' hitems hopen
  | taken | handed | delivering | completing => cases hr

theorem Reads.take {c : Consumer Payload Handle Target} {inbound : Option Nat} {fs : List Frame}
    {f : Frame} {r : Reading} (h : Reads c inbound fs r) (hr : r = .free)
    (hopen : .complete stream ∉ fs) : Reads c inbound (fs ++ [f]) (.taken f) := by
  subst hr
  cases h with
  | idle _ hitems hor =>
    rcases hor with ⟨hterm, rfl, hnot⟩ | ⟨-, hdone⟩
    · exact .taken hitems hterm hnot
    · exact absurd hdone hopen

theorem Reads.handOver {c : Consumer Payload Handle Target} {inbound : Option Nat}
    {fs : List Frame} {f : Frame} (h : Reads c inbound fs (.taken f)) :
    Reads c inbound fs (.handed f) := by
  cases h with
  | idle hr => cases hr
  | taken hitems hopen hnot => exact .handed hitems hopen hnot

/-- Only the items and the end of the stream matter to the reader. -/
theorem Reads.congr {c c' : Consumer Payload Handle Target} {inbound : Option Nat}
    {fs : List Frame} {r : Reading} (h : Reads c inbound fs r) (hvalues : c'.values = c.values)
    (hterm : c'.terminal = c.terminal) : Reads c' inbound fs r := by
  cases h with
  | idle hr hitems hopen =>
    exact .idle hr (hitems.trans hvalues.symm) (by rw [hterm]; exact hopen)
  | taken hitems hopen hnot =>
    exact .taken (hitems.trans hvalues.symm) (hterm.trans hopen) hnot
  | handed hitems hopen hnot =>
    exact .handed (hitems.trans hvalues.symm) (hterm.trans hopen) hnot
  | delivering hitems hopen hnot =>
    exact .delivering (hitems.trans hvalues.symm) (hterm.trans hopen) hnot
  | completing hitems hopen hnot =>
    exact .completing (hitems.trans hvalues.symm) (hterm.trans hopen) hnot

/-- The invariant of a line with an open channel, whose consumer began with a demand of `n0` and
whose initial payload is `p0`. -/
structure IsConsistent (n0 : Nat) (p0 : Payload) (v : OpenLine) : Prop where
  scriptRest : ∀ t ∈ v.scriptRest, IsBenign t
  readerRest : ∀ t ∈ v.readerRest, IsBenign t
  /-- The peer has subscribed, and the initial payload has been delivered. -/
  remote : v.producer.remote = some peer
  delivered : ∀ q, v.producer.initial ≠ .pending q
  opened : v.link.opened = true
  inboundDone : v.link.inboundDone = false
  forward : v.consumer.forward = none
  subscription : v.consumer.terminal = none → v.consumer.subscription = some peer
  /-- What the client has written is what its producer has sent. -/
  tape : ChannelTape stream v.written
  sent : payloads v.written = Line.sent v.crew
  first : ∃ l, payloads v.written = p0 :: l
  open_of_outboundDone : v.link.outboundDone = false → .complete stream ∉ v.written
  outboundDone : v.producer.emitter.finished = false → v.link.outboundDone = false
  sending : ∀ s, v.hand = .sending s → v.link.outboundDone = false ∧ (∀ m, s ≠ .error m) ∧
    (s.isTerminal = true → v.producer.emitter.finished = true)
  /-- What the consumer was asked for is in the hand of the script or on the tape. -/
  grants_le : v.hand.demand + grants v.written ≤ n0 + Line.asked v.crew
  grants_eq : v.consumer.terminal = none → v.hand.demand + grants v.written = n0 + Line.asked v.crew
  handled_le : v.handled ≤ v.written.length
  echoes : Echoes stream (v.written.take v.handled) v.replied v.conversation
  read_le : v.read ≤ v.replied.length
  reads : Reads v.consumer v.inbound (v.replied.take v.read) v.reading

variable {n0 : Nat} {p0 : Payload} {v v' : OpenLine}

/-! ## What tasks come to -/

theorem stack_script (ts : List (Task Step)) (hts : v'.hand.tasks ++ v'.scriptRest = ts)
    (hreading : v'.reading = v.reading) (hrest : v'.readerRest = v.readerRest) :
    v'.crew.stack = Function.update v.crew.stack .script ts := by
  funext k
  cases k with
  | script => exact hts
  | reader =>
    show v'.reading.tasks ++ v'.readerRest = v.reading.tasks ++ v.readerRest
    rw [hreading, hrest]
  | responder => rfl

theorem stack_reader (ts : List (Task Step)) (hts : v'.reading.tasks ++ v'.readerRest = ts)
    (hhand : v'.hand = v.hand) (hrest : v'.scriptRest = v.scriptRest) :
    v'.crew.stack = Function.update v.crew.stack .reader ts := by
  funext k
  cases k with
  | script =>
    show v'.hand.tasks ++ v'.scriptRest = v.hand.tasks ++ v.scriptRest
    rw [hhand, hrest]
  | reader => exact hts
  | responder => rfl

theorem atScripted_exchange (v : OpenLine)
    (f : ScriptedProducer → ScriptedProducer × List (Task Step)) :
    v.exchange.atScripted 0 f =
      ({ v with producer := (f v.producer).1 }.exchange, (f v.producer).2) :=
  rfl

theorem perform_tell (e : Event Step) (v : OpenLine) :
    v.exchange.perform environment (.tell e) =
      ({ v.exchange with far := (Line.react e v.line).1 },
        (Line.react e v.line).2.map Task.call) :=
  rfl

/-- What a benign task comes to. -/
theorem perform_benign (h : v.IsConsistent n0 p0) {t : Task Step} (ht : IsBenign t) :
    ∃ p new, v.exchange.perform environment t = ({ v with producer := p }.exchange, new) ∧
      p.remote = v.producer.remote ∧ (∀ q, p.initial ≠ .pending q) ∧
      p.emitter.finished = v.producer.emitter.finished ∧ ∀ t' ∈ new, IsBenign t' := by
  cases ht with
  | settle n =>
    refine ⟨_, _, atScripted_exchange v _, rfl, fun q => ?_, rfl, fun t' ht' => ?_⟩
    · cases v.producer.initial <;> simp [InitialPayload.settle]
    · dsimp only at ht'
      split at ht'
      · rw [List.mem_singleton.mp ht']
        exact .passOn _
      · cases ht'
  | passOn n =>
    exact ⟨_, _, atScripted_exchange v _, rfl, h.delivered, rfl, fun t' ht' => by cases ht'⟩
  | openGate r =>
    exact ⟨_, _, atScripted_exchange v _, rfl, h.delivered, rfl, fun t' ht' => by cases ht'⟩

/-- Demand of the responder that reaches the producer. -/
theorem perform_granted (h : v.IsConsistent n0 p0) (n : Nat) :
    ∃ p new, v.exchange.perform environment (.call (.ask 0 (.request n))) =
        ({ v with producer := p }.exchange, new) ∧
      p.remote = v.producer.remote ∧ (∀ q, p.initial ≠ .pending q) ∧
      p.emitter.finished = v.producer.emitter.finished ∧ ∀ t' ∈ new, IsBenign t' := by
  have hask : v.exchange.perform environment (.call (.ask 0 (.request n))) =
      ({ v with producer := (Exchange.askScripted (τ := Step) 0 (.request n) v.producer).1 }.exchange,
        (Exchange.askScripted 0 (.request n) v.producer).2) := rfl
  rw [Exchange.askScripted_request] at hask
  by_cases hn : n = 0
  · subst hn
    exact ⟨_, _, hask, rfl, h.delivered, rfl, fun t' ht' => by cases ht'⟩
  · cases hinit : v.producer.initial with
    | pending q => exact absurd hinit (h.delivered q)
    | emitting deferred =>
      rw [hinit, InitialPayload.request_emitting hn] at hask
      exact ⟨_, _, hask, rfl, fun q hq => (by cases hq), rfl, fun t' ht' => by cases ht'⟩
    | sent =>
      rw [hinit, InitialPayload.request_sent hn] at hask
      refine ⟨_, _, hask, rfl, fun q hq => (by cases hq), rfl, fun t' ht' => ?_⟩
      rw [List.mem_singleton.mp ht']
      exact .passOn n

/-- A consistent line stays consistent if its producer is granted demand. -/
theorem IsConsistent.grant (h : v.IsConsistent n0 p0) {p : ScriptedProducer} {t : Task Step}
    {ts us : List (Task Step)} {r : Reading} (ht : IsQuiet t)
    (hremote : p.remote = v.producer.remote) (hdelivered : ∀ q, p.initial ≠ .pending q)
    (hfinished : p.emitter.finished = v.producer.emitter.finished)
    (hts : ∀ t ∈ ts, IsBenign t) (hus : ∀ t ∈ us, IsBenign t)
    (hr : r = v.reading ∨ r.IsIdle ∧ v.reading.IsIdle) :
    ({ v with producer := p, scriptRest := ts, readerRest := us, reading := r,
              done := v.done ++ [t] } : OpenLine).IsConsistent n0 p0 := by
  have hsent := sent_of_done (t := t) (c := v.crew)
    (d := { v with producer := p, scriptRest := ts, readerRest := us, reading := r,
                   done := v.done ++ [t] : OpenLine }.crew) rfl
  have hasked := asked_of_done (t := t) (c := v.crew)
    (d := { v with producer := p, scriptRest := ts, readerRest := us, reading := r,
                   done := v.done ++ [t] : OpenLine }.crew) rfl
  rw [ht.1, Option.bind_none, Option.toList_none, List.append_nil] at hsent
  rw [ht.2, Nat.add_zero] at hasked
  exact
    { h with
      scriptRest := hts
      readerRest := hus
      remote := hremote.trans h.remote
      delivered := hdelivered
      sent := h.sent.trans hsent.symm
      outboundDone := fun hfin => h.outboundDone (hfinished ▸ hfin)
      sending := fun s hs => by
        obtain ⟨hout, hnoerror, hterm⟩ := h.sending s hs
        exact ⟨hout, hnoerror, fun hs => hfinished.trans (hterm hs)⟩
      grants_le := hasked ▸ h.grants_le
      grants_eq := hasked ▸ h.grants_eq
      reads := by
        rcases hr with rfl | ⟨hr, hv⟩
        · exact h.reads
        · exact h.reads.of_isIdle hv hr }

/-! ## What the script does -/

theorem perform_own (v : OpenLine) (n : Nat) :
    v.exchange.perform environment (.own 0 (.request n)) =
      ({ v with consumer := (v.consumer.request n).1 }.exchange,
        Exchange.effectTasks 0 (.ofPayloads (v.consumer.request n).2)) :=
  rfl

theorem writeLink_connection (v : OpenLine) (decision : UInt32 → Link → Link × Option Frame)
    (otherwise : UInt32 → Fault → List (Call Step)) :
    v.line.connection.writeLink 0 decision otherwise =
      match decision stream v.link with
      | (l, none) => ({ v with link := l }.line.connection, [])
      | (l, some f) => { v with link := l }.line.connection.sendOr f (otherwise stream) :=
  rfl

/-- A link that writes a frame has written it, unless the line is unsound. -/
theorem perform_write {e : Event Step} {l : Link} {f : Frame}
    {otherwise : Fault → List (Call Step)} (hframe : v.line.connection.linkFrame? e = some f)
    (hreact : v.line.connection.react e = { v with link := l }.line.connection.sendOr f otherwise)
    (hsound : (v.exchange.perform environment (.tell e)).1.far.failed = false) :
    v.exchange.perform environment (.tell e) =
      ({ v with link := l, written := v.written ++ [f] }.exchange, []) := by
  have hfails : Line.fails e v.line.connection = false := by
    rw [perform_tell] at hsound
    exact hsound
  have hsend : ∀ w : OpenLine, w.line.connection.send f =
      f.encode.map fun _ => { w with written := w.written ++ [f] }.line.connection := by
    intro w
    unfold Connection.send
    cases f.encode <;> rfl
  rw [Line.fails, hframe] at hfails
  rw [perform_tell, Line.react, hreact, Connection.sendOr]
  simp only [hsend] at hfails ⊢
  cases hencode : f.encode with
  | error fault =>
    rw [hencode] at hfails
    cases hfails
  | ok bytes =>
    have hquiet : Line.fails e v.line.connection = false := by
      rw [Line.fails, hframe]
      simp only [hsend, hencode]
      rfl
    simp only [hquiet]
    rfl

/-- A consumer asks for more, unless its stream has ended. -/
theorem consumer_request (h : v.IsConsistent n0 p0) (n : Nat) :
    ((n = 0 ∨ v.consumer.terminal ≠ none) ∧ v.consumer.request n = (v.consumer, {})) ∨
      ((n ≠ 0 ∧ v.consumer.terminal = none) ∧ v.consumer.request n =
        ({ v.consumer with outstanding := Demand.add v.consumer.outstanding n },
          { ask := some (peer, .request n) })) := by
  by_cases hn : n = 0
  · exact Or.inl ⟨Or.inl hn, by simp [Consumer.request, hn]⟩
  · cases hterm : v.consumer.terminal with
    | some t => exact Or.inl ⟨Or.inr (by simp), by simp [Consumer.request, Consumer.isTerminated, hterm]⟩
    | none =>
      refine Or.inr ⟨⟨hn, rfl⟩, ?_⟩
      simp [Consumer.request, Consumer.isTerminated, hterm, hn, h.subscription hterm]

/-- The consumer is asked for `n` items. -/
theorem exists_of_asking (h : v.IsConsistent n0 p0) {n : Nat} (hhand : v.hand = .asking n) :
    ∃ v' : OpenLine, v'.IsConsistent n0 p0 ∧
      v.crew.work environment .script (.own 0 (.request n)) v.scriptRest = v'.crew := by
  have hdemand : v.hand.demand = 0 := by rw [hhand]; rfl
  rcases consumer_request h n with ⟨hn, hreq⟩ | ⟨⟨hn, hterm⟩, hreq⟩
  · have hp := perform_own v n
    rw [hreq] at hp
    let v' : OpenLine := { v with hand := .free, done := v.done ++ [.own 0 (.request n)] }
    have hasked : Line.asked v'.crew = Line.asked v.crew + n :=
      asked_of_done (t := .own 0 (.request n)) rfl
    have hsent : Line.sent v'.crew = Line.sent v.crew :=
      (sent_of_done (c := v.crew) rfl).trans (List.append_nil _)
    have hle := h.grants_le
    have heq := h.grants_eq
    rw [hdemand] at hle heq
    refine ⟨v', { h with
      sent := h.sent.trans hsent.symm
      sending := fun s hs => by cases hs
      grants_le := ?_
      grants_eq := ?_ }, Crew.work_eq hp (stack_script _ rfl rfl rfl) rfl⟩
    · rw [hasked]
      show 0 + grants v.written ≤ _
      omega
    · intro hterm
      rw [hasked]
      show 0 + grants v.written = _
      rcases hn with rfl | hn
      · exact heq hterm
      · exact absurd hterm hn
  · have hp := perform_own v n
    rw [hreq] at hp
    let v' : OpenLine := { v with
      consumer := { v.consumer with outstanding := Demand.add v.consumer.outstanding n }
      hand := .granting n
      done := v.done ++ [.own 0 (.request n)] }
    have hasked : Line.asked v'.crew = Line.asked v.crew + n :=
      asked_of_done (t := .own 0 (.request n)) rfl
    have hsent : Line.sent v'.crew = Line.sent v.crew :=
      (sent_of_done (c := v.crew) rfl).trans (List.append_nil _)
    have heq := h.grants_eq hterm
    rw [hdemand] at heq
    have heq' : n + grants v.written = n0 + Line.asked v'.crew := by omega
    exact ⟨v', { h with
      sent := h.sent.trans hsent.symm
      sending := fun s hs => by cases hs
      grants_le := Nat.le_of_eq heq'
      grants_eq := fun _ => heq'
      reads := h.reads.congr rfl rfl }, Crew.work_eq hp (stack_script _ rfl rfl rfl) rfl⟩

/-- A consistent line stays consistent if the script writes a frame. -/
theorem IsConsistent.write (h : v.IsConsistent n0 p0) {t : Task Step} {l : Link} {f : Frame}
    (hreq : requested t = 0)
    (hitems : payloads [f] = ((Crew.signal? peer t).bind Signal.item?).toList)
    (hdemand : grants [f] = v.hand.demand) (hopened : l.opened = true)
    (hinbound : l.inboundDone = false) (htape : ChannelTape stream (v.written ++ [f]))
    (hopen : l.outboundDone = false → .complete stream ∉ v.written ++ [f])
    (hdone : v.producer.emitter.finished = false → l.outboundDone = false) :
    ({ v with link := l, written := v.written ++ [f], hand := .free,
              done := v.done ++ [t] } : OpenLine).IsConsistent n0 p0 := by
  let v' : OpenLine := { v with
    link := l, written := v.written ++ [f], hand := .free, done := v.done ++ [t] }
  have hasked : Line.asked v'.crew = Line.asked v.crew + requested t := asked_of_done rfl
  have hsent : Line.sent v'.crew = Line.sent v.crew ++ payloads [f] :=
    (sent_of_done rfl).trans (congrArg _ hitems.symm)
  rw [hreq, Nat.add_zero] at hasked
  have hgrants : grants (v.written ++ [f]) = v.hand.demand + grants v.written := by
    rw [Wire.grants_append, hdemand, Nat.add_comm]
  obtain ⟨items, hfirst⟩ := h.first
  have hitems' : payloads (v.written ++ [f]) = Line.sent v'.crew := by
    rw [Wire.payloads_append, h.sent, hsent]
  exact
    { h with
      opened := hopened
      inboundDone := hinbound
      tape := htape
      sent := hitems'
      first := ⟨items ++ payloads [f], by
        show payloads (v.written ++ [f]) = _
        rw [Wire.payloads_append, hfirst]
        rfl⟩
      open_of_outboundDone := hopen
      outboundDone := hdone
      sending := fun s hs => by cases hs
      grants_le := by
        show 0 + grants (v.written ++ [f]) ≤ n0 + Line.asked v'.crew
        rw [hasked, hgrants, Nat.zero_add]
        exact h.grants_le
      grants_eq := fun hterm => by
        show 0 + grants (v.written ++ [f]) = n0 + Line.asked v'.crew
        rw [hasked, hgrants, Nat.zero_add]
        exact h.grants_eq hterm
      handled_le := by
        show v.handled ≤ (v.written ++ [f]).length
        rw [List.length_append]
        exact Nat.le_add_right_of_le h.handled_le
      echoes := by
        show Echoes stream ((v.written ++ [f]).take v.handled) v.replied v.conversation
        rw [List.take_append_of_le_length h.handled_le]
        exact h.echoes }

theorem IsConsistent.written_ne_nil (h : v.IsConsistent n0 p0) : v.written ≠ [] := by
  obtain ⟨items, hitems⟩ := h.first
  rintro hnil
  rw [hnil] at hitems
  cases hitems

/-- The link is asked for `n` items. -/
theorem exists_of_granting (h : v.IsConsistent n0 p0) {n : Nat} (hhand : v.hand = .granting n)
    (hsound : (v.exchange.perform environment
      (.tell (.asked peer (.request n)))).1.far.failed = false) :
    ∃ v' : OpenLine, v'.IsConsistent n0 p0 ∧
      v.crew.work environment .script (.tell (.asked peer (.request n))) v.scriptRest =
        v'.crew := by
  have hdemand : v.hand.demand = n := by rw [hhand]; rfl
  have hreact : v.line.connection.react (.asked peer (.request n)) =
      v.line.connection.writeLink 0 (fun id => Link.grant id n) Connection.failStream := rfl
  have hframe : v.line.connection.linkFrame? (.asked peer (.request n)) =
      (v.link.grant stream n).2 := rfl
  rw [writeLink_connection] at hreact
  by_cases hn : n = 0
  · have hgrant : v.link.grant stream n = (v.link, none) := by simp [Link.grant, hn]
    rw [hgrant] at hreact hframe
    have hp : v.exchange.perform environment (.tell (.asked peer (.request n))) =
        (v.exchange, []) := by
      rw [perform_tell, Line.react, hreact, Line.fails, hframe]
      rfl
    let v' : OpenLine := { v with
      hand := .free, done := v.done ++ [.tell (.asked peer (.request n))] }
    have hasked : Line.asked v'.crew = Line.asked v.crew :=
      (asked_of_done (c := v.crew) rfl).trans (Nat.add_zero _)
    have hsent : Line.sent v'.crew = Line.sent v.crew :=
      (sent_of_done (c := v.crew) rfl).trans (List.append_nil _)
    have hle := h.grants_le
    have heq := h.grants_eq
    rw [hdemand, hn] at hle heq
    exact ⟨v', { h with
      sent := h.sent.trans hsent.symm
      sending := fun s hs => by cases hs
      grants_le := hasked ▸ hle
      grants_eq := fun hterm => hasked ▸ heq hterm },
      Crew.work_eq hp (stack_script _ rfl rfl rfl) rfl⟩
  · have hgrant : v.link.grant stream n = (v.link, some (.requestN stream n)) := by
      simp [Link.grant, h.inboundDone, h.opened, hn]
    rw [hgrant] at hreact hframe
    have hp := perform_write hframe hreact hsound
    have hcons := h.write (t := .tell (.asked peer (.request n))) (l := v.link)
      (f := .requestN stream n) rfl rfl hdemand.symm h.opened h.inboundDone
      (.requestN h.tape h.written_ne_nil n)
      (fun ho => by simpa using h.open_of_outboundDone ho) h.outboundDone
    exact ⟨_, hcons, Crew.work_eq hp (stack_script _ rfl rfl rfl) rfl⟩

/-- The producer sends a signal. -/
theorem exists_of_sending (h : v.IsConsistent n0 p0) {s : Signal Payload}
    (hhand : v.hand = .sending s)
    (hsound : (v.exchange.perform environment (.tell (.heard peer s))).1.far.failed = false) :
    ∃ v' : OpenLine, v'.IsConsistent n0 p0 ∧
      v.crew.work environment .script (.tell (.heard peer s)) v.scriptRest = v'.crew := by
  obtain ⟨hout, hnoerror, hterm⟩ := h.sending s hhand
  have hnot := h.open_of_outboundDone hout
  have hdemand : v.hand.demand = 0 := by rw [hhand]; rfl
  cases s with
  | next item =>
    have hsend : v.link.send stream item = (v.link, some (.next stream item)) := by
      simp [Link.send, hout, h.opened]
    have hreact : v.line.connection.react (.heard peer (.next item)) =
        v.line.connection.writeLink 0 (fun id => Link.send id item) Connection.failStream := rfl
    have hframe : v.line.connection.linkFrame? (.heard peer (.next item)) =
        (v.link.send stream item).2 := rfl
    rw [writeLink_connection] at hreact
    rw [hsend] at hreact hframe
    have hp := perform_write hframe hreact hsound
    have hcons := h.write (t := .tell (.heard peer (.next item))) (l := v.link)
      (f := .next stream item) rfl rfl hdemand.symm h.opened h.inboundDone
      (.next h.tape h.written_ne_nil hnot item) (fun _ => by simpa using hnot) h.outboundDone
    exact ⟨_, hcons, Crew.work_eq hp (stack_script _ rfl rfl rfl) rfl⟩
  | complete =>
    have hfinish : v.link.finish stream none =
        ({ v.link with outboundDone := true, attached := false }, some (.complete stream)) := by
      simp [Link.finish, hout, h.opened]
    have hreact : v.line.connection.react (.heard peer .complete) =
        v.line.connection.writeLink 0 (fun id => Link.finish id none) fun _ _ => [] := rfl
    have hframe : v.line.connection.linkFrame? (.heard peer .complete) =
        (v.link.finish stream none).2 := rfl
    rw [writeLink_connection] at hreact
    rw [hfinish] at hreact hframe
    have hp := perform_write hframe hreact hsound
    have hcons := h.write (t := .tell (.heard peer .complete))
      (l := { v.link with outboundDone := true, attached := false }) (f := .complete stream)
      rfl rfl hdemand.symm h.opened h.inboundDone (.complete h.tape h.written_ne_nil hnot)
      (fun ho => by cases ho) fun hfin => ?_
    · exact ⟨_, hcons, Crew.work_eq hp (stack_script _ rfl rfl rfl) rfl⟩
    · rw [hterm rfl] at hfin
      cases hfin
  | error message => exact absurd rfl (hnoerror message)

/-- The script goes on with what it has to do behind what was in its hand. -/
theorem exists_of_script_free (h : v.IsConsistent n0 p0) (hhand : v.hand = .free) {t : Task Step}
    {rest : List (Task Step)} (hrest : v.scriptRest = t :: rest) :
    ∃ v' : OpenLine, v'.IsConsistent n0 p0 ∧ v.crew.work environment .script t rest = v'.crew := by
  obtain ⟨ht, hbehind⟩ := List.forall_mem_cons.mp (hrest ▸ h.scriptRest)
  obtain ⟨p, new, hp, hremote, hdelivered, hfinished, hnew⟩ := perform_benign h ht
  have hbenign : ∀ t' ∈ new ++ rest, IsBenign t' := List.forall_mem_append.mpr ⟨hnew, hbehind⟩
  refine ⟨_, h.grant ht.isQuiet hremote hdelivered hfinished hbenign h.readerRest (Or.inl rfl),
    Crew.work_eq hp (stack_script _ ?_ rfl rfl) rfl⟩
  show v.hand.tasks ++ (new ++ rest) = new ++ rest
  rw [hhand]
  rfl

/-- The script does what it has in hand, or what it has to do behind that. -/
theorem exists_of_work_script (h : v.IsConsistent n0 p0) {t : Task Step} {rest : List (Task Step)}
    (hk : v.crew.stack .script = t :: rest)
    (hsound : (v.crew.work environment .script t rest).exchange.far.failed = false) :
    ∃ v' : OpenLine, v'.IsConsistent n0 p0 ∧ v.crew.work environment .script t rest = v'.crew := by
  have hk' : v.hand.tasks ++ v.scriptRest = t :: rest := hk
  cases hhand : v.hand with
  | free =>
    rw [hhand] at hk'
    exact exists_of_script_free h hhand hk'
  | asking n =>
    rw [hhand] at hk'
    obtain ⟨rfl, rfl⟩ := List.cons.inj hk'
    exact exists_of_asking h hhand
  | granting n =>
    rw [hhand] at hk'
    obtain ⟨rfl, rfl⟩ := List.cons.inj hk'
    exact exists_of_granting h hhand hsound
  | sending s =>
    rw [hhand] at hk'
    obtain ⟨rfl, rfl⟩ := List.cons.inj hk'
    exact exists_of_sending h hhand hsound

/-! ## What the reader does -/

/-- A consistent line stays consistent if the reader goes on with what it has taken. -/
theorem IsConsistent.advance (h : v.IsConsistent n0 p0) {t : Task Step}
    (c : Consumer Payload Handle Target) (inbound : Option Nat) (r : Reading) (ht : IsQuiet t)
    (hforward : c.forward = none) (hsub : c.terminal = none → c.subscription = some peer)
    (hterm : c.terminal = none → v.consumer.terminal = none)
    (hreads : Reads c inbound (v.replied.take v.read) r) :
    ({ v with consumer := c, inbound := inbound, reading := r,
              done := v.done ++ [t] } : OpenLine).IsConsistent n0 p0 := by
  let v' : OpenLine := { v with
    consumer := c, inbound := inbound, reading := r, done := v.done ++ [t] }
  have hasked : Line.asked v'.crew = Line.asked v.crew + requested t := asked_of_done rfl
  have hsent : Line.sent v'.crew =
      Line.sent v.crew ++ ((Crew.signal? peer t).bind Signal.item?).toList := sent_of_done rfl
  rw [ht.1, Option.bind_none, Option.toList_none, List.append_nil] at hsent
  rw [ht.2, Nat.add_zero] at hasked
  exact
    { h with
      forward := hforward
      subscription := hsub
      sent := h.sent.trans hsent.symm
      grants_le := hasked ▸ h.grants_le
      grants_eq := fun hc => hasked ▸ h.grants_eq (hterm hc)
      reads := hreads }

/-- A step of the connection in which no link writes. -/
theorem perform_resumed (s : Step) (v : OpenLine) :
    v.exchange.perform environment (.tell (.resumed s)) =
      ({ v.exchange with far := { v.line with connection := (v.line.connection.step s).1 } },
        (v.line.connection.step s).2.map Task.call) :=
  rfl

theorem perform_signal (s : Signal Payload) (v : OpenLine) :
    v.exchange.perform environment (.call (.signal 0 s)) =
      ({ v with consumer := (v.consumer.deliver s).1 }.exchange,
        Exchange.effectTasks 0 (.ofPayloads (v.consumer.deliver s).2)) :=
  rfl

/-- The reader hands a frame over. -/
theorem exists_of_handed (h : v.IsConsistent n0 p0) {f : Frame} (hreading : v.reading = .handed f) :
    ∃ v' : OpenLine, v'.IsConsistent n0 p0 ∧
      v.crew.work environment .reader (.tell (.resumed (.receive f))) v.readerRest = v'.crew := by
  have hreads := h.reads
  rw [hreading] at hreads
  generalize hfs : v.replied.take v.read = fs at hreads
  generalize hin : v.inbound = inbound at hreads
  cases hreads with
  | idle hr => cases hr
  | @handed fs _ hitems hopen hnot =>
    have hf : f.OnChannel stream := by
      refine h.echoes.onChannel f (List.mem_of_mem_take (i := v.read) ?_)
      rw [hfs]
      simp
    have hp := perform_resumed (.receive f) v
    have hquiet : IsQuiet (.tell (.resumed (.receive f))) := ⟨rfl, rfl⟩
    cases hf with
    | next item =>
      have hstep : v.line.connection.step (.receive (.next stream item)) =
          (v.line.connection, (v.inbound.map fun i => .signal i (.next item)).toList) := rfl
      rw [hstep, hin] at hp
      refine ⟨_, h.advance v.consumer v.inbound (.delivering item) hquiet h.forward
        h.subscription id ?_, Crew.work_eq hp (stack_reader _ rfl rfl rfl) rfl⟩
      rw [hfs, hin]
      exact .delivering hitems hopen hnot
    | requestN n =>
      have hstep : v.line.connection.step (.receive (.requestN stream n)) =
          (v.line.connection, [.resume (.askProducer 0 n)]) := rfl
      rw [hstep] at hp
      refine ⟨_, h.advance v.consumer v.inbound (.crediting n) hquiet h.forward
        h.subscription id ?_, Crew.work_eq hp (stack_reader _ rfl rfl rfl) rfl⟩
      rw [hfs, hin]
      exact .idle trivial (by simpa using hitems) (Or.inl ⟨hopen, rfl, by simpa using hnot⟩)
    | complete =>
      have hstep : v.line.connection.step (.receive (.complete stream)) =
          ({ v with inbound := none }.line.connection,
            (v.inbound.map fun i => .signal i .complete).toList) := rfl
      rw [hstep, hin] at hp
      refine ⟨_, h.advance v.consumer none .completing hquiet h.forward h.subscription id
        ?_, Crew.work_eq hp (stack_reader _ rfl rfl rfl) rfl⟩
      rw [hfs]
      exact .completing hitems hopen hnot

/-- The consumer gets an item. -/
theorem exists_of_delivering (h : v.IsConsistent n0 p0) {item : Payload}
    (hreading : v.reading = .delivering item) :
    ∃ v' : OpenLine, v'.IsConsistent n0 p0 ∧
      v.crew.work environment .reader (.call (.signal 0 (.next item))) v.readerRest = v'.crew := by
  have hreads := h.reads
  rw [hreading] at hreads
  generalize hfs : v.replied.take v.read = fs at hreads
  generalize hin : v.inbound = inbound at hreads
  cases hreads with
  | idle hr => cases hr
  | @delivering fs _ hitems hopen hnot =>
    obtain ⟨c, hnext, hvalues, hterm, hforward, hsub⟩ : ∃ c, v.consumer.deliver (.next item) =
        (c, { wakes := true }) ∧ c.values = v.consumer.values ++ [item] ∧ c.terminal = none ∧
          c.forward = none ∧ c.subscription = v.consumer.subscription := by
      refine ⟨(v.consumer.deliver (.next item)).1, ?_, ?_, ?_, ?_, ?_⟩ <;>
        simp [Consumer.deliver, Consumer.next, Consumer.isTerminated, Consumer.values, hopen,
          h.forward]
    have hp := perform_signal (.next item) v
    rw [hnext] at hp
    refine ⟨_, h.advance c v.inbound .free ⟨rfl, rfl⟩ hforward
      (fun _ => hsub.trans (h.subscription hopen)) (fun _ => hopen) ?_,
      Crew.work_eq hp (stack_reader _ rfl rfl rfl) rfl⟩
    rw [hfs, hin]
    refine .idle trivial ?_ (Or.inl ⟨hterm, rfl, by simpa using hnot⟩)
    rw [Wire.payloads_append, hitems, hvalues]
    rfl

/-- The stream of the consumer ends. -/
theorem exists_of_completing (h : v.IsConsistent n0 p0) (hreading : v.reading = .completing) :
    ∃ v' : OpenLine, v'.IsConsistent n0 p0 ∧
      v.crew.work environment .reader (.call (.signal 0 .complete)) v.readerRest = v'.crew := by
  have hreads := h.reads
  rw [hreading] at hreads
  generalize hfs : v.replied.take v.read = fs at hreads
  generalize hin : v.inbound = inbound at hreads
  cases hreads with
  | idle hr => cases hr
  | @completing fs hitems hopen hnot =>
    obtain ⟨c, hcomplete, hvalues, hterm, hforward⟩ : ∃ c, v.consumer.deliver .complete =
        (c, { wakes := true }) ∧ c.values = v.consumer.values ∧ c.terminal = some .completed ∧
          c.forward = none := by
      refine ⟨(v.consumer.deliver .complete).1, ?_, ?_, ?_, ?_⟩ <;>
        simp [Consumer.deliver, Consumer.terminate, Consumer.isTerminated, Consumer.values, hopen,
          h.forward]
    have hnot' : c.terminal ≠ none := by simp [hterm]
    have hp := perform_signal .complete v
    rw [hcomplete] at hp
    refine ⟨_, h.advance c v.inbound .free ⟨rfl, rfl⟩ hforward (fun hc => absurd hc hnot')
      (fun hc => absurd hc hnot') ?_, Crew.work_eq hp (stack_reader _ rfl rfl rfl) rfl⟩
    rw [hfs]
    refine .idle trivial ?_ (Or.inr ⟨hterm, by simp⟩)
    rw [Wire.payloads_append, hitems, hvalues]
    exact List.append_nil _

/-- The reader goes on with what it has to do behind what was in its hand. -/
theorem exists_of_reader_free (h : v.IsConsistent n0 p0) (hreading : v.reading = .free)
    {t : Task Step} {rest : List (Task Step)} (hrest : v.readerRest = t :: rest) :
    ∃ v' : OpenLine, v'.IsConsistent n0 p0 ∧ v.crew.work environment .reader t rest = v'.crew := by
  obtain ⟨ht, hbehind⟩ := List.forall_mem_cons.mp (hrest ▸ h.readerRest)
  obtain ⟨p, new, hp, hremote, hdelivered, hfinished, hnew⟩ := perform_benign h ht
  have hbenign : ∀ t' ∈ new ++ rest, IsBenign t' := List.forall_mem_append.mpr ⟨hnew, hbehind⟩
  refine ⟨_, h.grant ht.isQuiet hremote hdelivered hfinished h.scriptRest hbenign (Or.inl rfl),
    Crew.work_eq hp (stack_reader _ ?_ rfl rfl) rfl⟩
  show v.reading.tasks ++ (new ++ rest) = new ++ rest
  rw [hreading]
  rfl

/-- The reader passes demand on to the producer, if that has given its subscription. -/
theorem exists_of_credited (h : v.IsConsistent n0 p0) {n : Nat} (hreading : v.reading = .credited n) :
    ∃ v' : OpenLine, v'.IsConsistent n0 p0 ∧
      v.crew.work environment .reader (.tell (.resumed (.askProducer 0 n))) v.readerRest =
        v'.crew := by
  have hidle : v.reading.IsIdle := by rw [hreading]; trivial
  have hp := perform_resumed (.askProducer 0 n) v
  have hstep : v.line.connection.step (.askProducer 0 n) =
      (v.line.connection, if v.link.attached then [.ask 0 (.request n)] else []) := rfl
  rw [hstep] at hp
  by_cases hattached : v.link.attached = true
  · rw [if_pos hattached] at hp
    exact ⟨_, h.advance v.consumer v.inbound (.granted n) ⟨rfl, rfl⟩ h.forward h.subscription id
      (h.reads.of_isIdle hidle trivial), Crew.work_eq hp (stack_reader _ rfl rfl rfl) rfl⟩
  · rw [if_neg hattached] at hp
    exact ⟨_, h.advance v.consumer v.inbound .free ⟨rfl, rfl⟩ h.forward h.subscription id
      (h.reads.of_isIdle hidle trivial), Crew.work_eq hp (stack_reader _ rfl rfl rfl) rfl⟩

/-- The producer gets the demand. -/
theorem exists_of_granted (h : v.IsConsistent n0 p0) {n : Nat} (hreading : v.reading = .granted n) :
    ∃ v' : OpenLine, v'.IsConsistent n0 p0 ∧
      v.crew.work environment .reader (.call (.ask 0 (.request n))) v.readerRest = v'.crew := by
  obtain ⟨p, new, hp, hremote, hdelivered, hfinished, hnew⟩ := perform_granted h n
  have hbenign : ∀ t' ∈ new ++ v.readerRest, IsBenign t' :=
    List.forall_mem_append.mpr ⟨hnew, h.readerRest⟩
  exact ⟨_, h.grant (r := .free) ⟨rfl, rfl⟩ hremote hdelivered hfinished h.scriptRest hbenign
    (Or.inr ⟨trivial, by rw [hreading]; trivial⟩),
    Crew.work_eq hp (stack_reader _ rfl rfl rfl) rfl⟩

/-- The reader does what it has in hand, or what it has to do behind that. -/
theorem exists_of_work_reader (h : v.IsConsistent n0 p0) {t : Task Step} {rest : List (Task Step)}
    (hk : v.crew.stack .reader = t :: rest) :
    ∃ v' : OpenLine, v'.IsConsistent n0 p0 ∧ v.crew.work environment .reader t rest = v'.crew := by
  have hk' : v.reading.tasks ++ v.readerRest = t :: rest := hk
  cases hreading : v.reading with
  | free =>
    rw [hreading] at hk'
    exact exists_of_reader_free h hreading hk'
  | taken f =>
    rw [hreading] at hk'
    obtain ⟨rfl, rfl⟩ := List.cons.inj hk'
    have hp : v.exchange.perform environment (.call (.resume (.receive f))) =
        (v.exchange, [.tell (.resumed (.receive f))]) := rfl
    have hreads := h.reads
    rw [hreading] at hreads
    exact ⟨_, h.advance v.consumer v.inbound (.handed f) ⟨rfl, rfl⟩ h.forward h.subscription id
      hreads.handOver, Crew.work_eq hp (stack_reader _ rfl rfl rfl) rfl⟩
  | handed f =>
    rw [hreading] at hk'
    obtain ⟨rfl, rfl⟩ := List.cons.inj hk'
    exact exists_of_handed h hreading
  | delivering item =>
    rw [hreading] at hk'
    obtain ⟨rfl, rfl⟩ := List.cons.inj hk'
    exact exists_of_delivering h hreading
  | completing =>
    rw [hreading] at hk'
    obtain ⟨rfl, rfl⟩ := List.cons.inj hk'
    exact exists_of_completing h hreading
  | crediting n =>
    rw [hreading] at hk'
    obtain ⟨rfl, rfl⟩ := List.cons.inj hk'
    have hp : v.exchange.perform environment (.call (.resume (.askProducer 0 n))) =
        (v.exchange, [.tell (.resumed (.askProducer 0 n))]) := rfl
    exact ⟨_, h.advance v.consumer v.inbound (.credited n) ⟨rfl, rfl⟩ h.forward h.subscription id
      (h.reads.of_isIdle (by rw [hreading]; trivial) trivial),
      Crew.work_eq hp (stack_reader _ rfl rfl rfl) rfl⟩
  | credited n =>
    rw [hreading] at hk'
    obtain ⟨rfl, rfl⟩ := List.cons.inj hk'
    exact exists_of_credited h hreading
  | granted n =>
    rw [hreading] at hk'
    obtain ⟨rfl, rfl⟩ := List.cons.inj hk'
    exact exists_of_granted h hreading

/-! ## What the parties begin with -/

theorem free_of_script (hk : v.crew.stack .script = []) : v.hand = .free ∧ v.scriptRest = [] := by
  have hk' : v.hand.tasks ++ v.scriptRest = [] := hk
  obtain ⟨htasks, hrest⟩ := List.append_eq_nil_iff.mp hk'
  refine ⟨?_, hrest⟩
  cases hhand : v.hand with
  | free => rfl
  | asking | granting | sending =>
    rw [hhand] at htasks
    cases htasks

theorem free_of_reader (hk : v.crew.stack .reader = []) :
    v.reading = .free ∧ v.readerRest = [] := by
  have hk' : v.reading.tasks ++ v.readerRest = [] := hk
  obtain ⟨htasks, hrest⟩ := List.append_eq_nil_iff.mp hk'
  refine ⟨?_, hrest⟩
  cases hreading : v.reading with
  | free => rfl
  | taken | handed | delivering | completing | crediting | credited | granted =>
    rw [hreading] at htasks
    cases htasks

/-- The script begins to ask for items. -/
theorem IsConsistent.ask (h : v.IsConsistent n0 p0) (hk : v.crew.stack .script = []) (n : Nat) :
    ({ v with hand := .asking n } : OpenLine).IsConsistent n0 p0 := by
  obtain ⟨hhand, -⟩ := free_of_script hk
  have hle := h.grants_le
  have heq := h.grants_eq
  rw [hhand] at hle heq
  exact { h with sending := fun s hs => (by cases hs), grants_le := hle, grants_eq := heq }

/-- The script begins to send a signal. -/
theorem IsConsistent.send (h : v.IsConsistent n0 p0) (hk : v.crew.stack .script = [])
    {s : Signal Payload} {e : Emitter} (hs : v.producer.emitter.emit s = .sent e)
    (hnoerror : ∀ message, s ≠ .error message) :
    ({ v with hand := .sending s, producer := { v.producer with emitter := e } } :
      OpenLine).IsConsistent n0 p0 := by
  obtain ⟨hhand, -⟩ := free_of_script hk
  obtain ⟨hfin, hterm⟩ := Emitter.finished_of_sent hs
  have hle := h.grants_le
  have heq := h.grants_eq
  rw [hhand] at hle heq
  refine { h with
    outboundDone := fun _ => h.outboundDone hfin
    sending := ?_
    grants_le := hle
    grants_eq := heq }
  intro s' hs'
  obtain rfl : s = s' := by simpa using hs'
  exact ⟨h.outboundDone hfin, hnoerror, hterm⟩

/-- The reader takes a frame. -/
theorem IsConsistent.take (h : v.IsConsistent n0 p0) (hk : v.crew.stack .reader = []) {f : Frame}
    {fs : List Frame} (hf : v.line.incoming = f :: fs) :
    ({ v with reading := .taken f, read := v.read + 1 } : OpenLine).IsConsistent n0 p0 := by
  have hdrop : v.replied.drop v.read = f :: fs := hf
  have hsplit : v.replied.take v.read ++ f :: fs = v.replied := by
    rw [← hdrop, List.take_append_drop]
  obtain ⟨hlt, htake⟩ := take_succ_of_drop hdrop
  -- Nothing comes behind the completion.
  have hopen : .complete stream ∉ v.replied.take v.read := fun hdone => by
    cases h.echoes.eq_nil_of_complete hsplit.symm hdone
  refine { h with read_le := hlt, reads := ?_ }
  have hreads := h.reads.take (f := f) (free_of_reader hk).1 hopen
  rwa [← htake] at hreads

/-- The responder handles a frame. -/
theorem IsConsistent.handle (h : v.IsConsistent n0 p0)
    (hlimit : n0 + Line.asked v.crew ≤ Demand.limit) {f : Frame} {fs : List Frame}
    (hf : v.line.outgoing = f :: fs) (hsound : (v.conversation.receive f).1.ended = none) :
    ({ v with
        conversation := (v.conversation.receive f).1
        handled := v.handled + 1
        replied := v.replied ++ (v.conversation.receive f).2 } : OpenLine).IsConsistent n0 p0 := by
  have hdrop : v.written.drop v.handled = f :: fs := hf
  have hsplit : v.written.take v.handled ++ [f] ++ fs = v.written := by
    rw [List.append_assoc, List.singleton_append, ← hdrop, List.take_append_drop]
  obtain ⟨hlt, htake⟩ := take_succ_of_drop hdrop
  have htape := h.tape
  have hgrants := h.grants_le
  rw [← hsplit] at htape hgrants
  rw [Wire.grants_append] at hgrants
  have hechoes := h.echoes.receive htape.of_append (by omega) hsound
  refine { h with handled_le := hlt, echoes := ?_, read_le := ?_, reads := ?_ }
  · show Echoes stream (v.written.take (v.handled + 1)) _ _
    rw [htake]
    exact hechoes
  · show v.read ≤ (v.replied ++ _).length
    rw [List.length_append]
    exact Nat.le_add_right_of_le h.read_le
  · show Reads v.consumer v.inbound ((v.replied ++ _).take v.read) v.reading
    rw [List.take_append_of_le_length h.read_le]
    exact h.reads

/-- A thread at the line is not about to panic. -/
theorem not_raise (h : v.IsConsistent n0 p0) {k : Party} {p : Panic} {rest : List (Task Step)}
    (hk : v.crew.stack k = .call (.raise p) :: rest) : False := by
  cases k with
  | script =>
    have hk' : v.hand.tasks ++ v.scriptRest = .call (.raise p) :: rest := hk
    cases hhand : v.hand with
    | free =>
      rw [hhand] at hk'
      have hrest : v.scriptRest = .call (.raise p) :: rest := hk'
      cases h.scriptRest _ (hrest ▸ List.mem_cons_self)
    | asking | granting | sending =>
      rw [hhand] at hk'
      cases (List.cons.inj hk').1
  | reader =>
    have hk' : v.reading.tasks ++ v.readerRest = .call (.raise p) :: rest := hk
    cases hreading : v.reading with
    | free =>
      rw [hreading] at hk'
      have hrest : v.readerRest = .call (.raise p) :: rest := hk'
      cases h.readerRest _ (hrest ▸ List.mem_cons_self)
    | taken | handed | delivering | completing | crediting | credited | granted =>
      rw [hreading] at hk'
      cases (List.cons.inj hk').1
  | responder => cases hk

/-- **Every step leads from a consistent line to a consistent line**, as long as every frame can
be written. -/
theorem exists_of_step (h : v.IsConsistent n0 p0) {d : Crew Party Line Step}
    (hstep : Crew.Step environment rules v.crew d) (hsound : d.exchange.far.IsSound)
    (hlimit : n0 + Line.asked v.crew ≤ Demand.limit) :
    ∃ v' : OpenLine, v'.IsConsistent n0 p0 ∧ d = v'.crew := by
  cases hstep with
  | @work k t rest hk ht =>
    cases k with
    | script => exact exists_of_work_script h hk hsound.1
    | reader => exact exists_of_work_reader h hk
    | responder => cases hk
  | panic hk => exact (not_raise h hk).elim
  | @start k e ts hk hstart =>
    cases hstart with
    | ask n =>
      obtain ⟨hhand, hrest⟩ := free_of_script hk
      refine ⟨_, h.ask hk n, Crew.turn_eq rfl (stack_script _ ?_ rfl rfl) rfl⟩
      show [Task.own 0 (.request n)] ++ v.scriptRest = _
      rw [hrest]
      rfl
    | take hf =>
      obtain ⟨hreading, hrest⟩ := free_of_reader hk
      refine ⟨_, h.take hk hf, Crew.turn_eq rfl (stack_reader _ ?_ rfl rfl) rfl⟩
      show [Task.call _] ++ v.readerRest = _
      rw [hrest]
      rfl
    | handle hf =>
      refine ⟨_, h.handle hlimit hf hsound.2, Crew.turn_eq rfl ?_ rfl⟩
      exact (Function.update_eq_self _ _).symm
  | @emit k i p emitter s hk hemit hp hs =>
    obtain ⟨rfl, rfl, hnoerror⟩ := hemit
    obtain rfl : v.producer = p := Option.some.inj hp
    obtain ⟨hhand, hrest⟩ := free_of_script hk
    have hsend : v.exchange.send (τ := Step) 0 v.producer emitter s =
        ({ v with hand := .sending s, producer := { v.producer with emitter := emitter } }.exchange,
          [.tell (.heard peer s)]) := by
      rw [Exchange.send, h.remote]
      rfl
    refine ⟨_, h.send hk hs hnoerror, ?_⟩
    rw [show v.crew.exchange = v.exchange from rfl, hsend]
    refine Crew.turn_eq rfl (stack_script _ ?_ rfl rfl) rfl
    show [Task.tell (.heard peer s)] ++ v.scriptRest = _
    rw [hrest]
    rfl

end OpenLine
end StreamConformance
