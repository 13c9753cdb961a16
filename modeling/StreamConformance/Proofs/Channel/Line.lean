import StreamConformance.Proofs.Channel.Attempts
import StreamConformance.Proofs.Channel.Echoing
import StreamConformance.Proofs.Crew

/-!
# A line to the reference responder

A line joins the connection of a client with a conversation of the reference responder by two
queues of frames, one in each direction.  What was written by either side is kept whole, and a
queue is what the other side has not yet taken.

Three parties work on a line in any order: the script of the client, which subscribes to a
channel and then asks its consumer for items and sends signals; the reader of the client, which
dispatches the replies; and the responder, which handles the client's frames.

* `Line.environment`, `Line.rules`, `Line.start`: the line as a crew.
* `Line.outgoing`, `Line.incoming`: what is on its way to the responder, and back.
* `Line.IsSound`: no frame failed to be written.
-/

namespace StreamConformance

open Client (Connection Step Stream Link)
open Responder (Conversation)
open Wire (Frame)

/-- A connection and a conversation, with what was written by either. -/
structure Line where
  connection : Connection := {}
  /-- Some frame could not be written. -/
  failed : Bool := false
  conversation : Conversation := {}
  /-- How many of the frames of the client the responder has handled. -/
  handled : Nat := 0
  /-- The frames of the responder, as far as they could be written. -/
  replied : List Frame := []
  /-- How many of the frames of the responder the reader has taken. -/
  read : Nat := 0

/-- The threads at a line. -/
inductive Party where
  | script
  | reader
  | responder
  deriving DecidableEq

namespace Line

/-- Whether an event makes a link write a frame that cannot be written. -/
def fails (e : Event Step) (c : Connection) : Bool :=
  match c.linkFrame? e with
  | some f => !(c.send f).isOk
  | none => false

/-- How a line reacts to the client. -/
def react (e : Event Step) (l : Line) : Line × List (Call Step) :=
  ({ l with connection := (l.connection.react e).1, failed := l.failed || fails e l.connection },
    (l.connection.react e).2)

/-- The line as a far side. -/
def environment : Environment Line Step where
  dial _ := none
  react := react
  idle _ := none

/-- The frames on their way to the responder. -/
def outgoing (l : Line) : List Frame :=
  l.connection.written.drop l.handled

/-- The frames on their way to the client. -/
def incoming (l : Line) : List Frame :=
  l.replied.drop l.read

/-- The responder handles a frame. -/
def handle (f : Frame) (l : Line) : Line :=
  match l.conversation.receive f with
  | (v, frames) =>
    { l with conversation := v, handled := l.handled + 1, replied := l.replied ++ frames }

/-- No frame failed to be written, on either side. -/
def IsSound (l : Line) : Prop :=
  l.failed = false ∧ l.conversation.ended = none

/-- What a party may do next if it has nothing left to do. -/
inductive Starts (e : Exchange Line) : Party → Exchange Line → List (Task Step) → Prop where
  /-- The script asks for items. -/
  | ask (n : Nat) : Starts e .script e [.own 0 (.request n)]
  /-- The reader takes a frame. -/
  | take {f : Frame} {fs : List Frame} (h : e.far.incoming = f :: fs) :
      Starts e .reader { e with far := { e.far with read := e.far.read + 1 } }
        [.call (.resume (.receive f))]
  /-- The responder takes a frame and handles it. -/
  | handle {f : Frame} {fs : List Frame} (h : e.far.outgoing = f :: fs) :
      Starts e .responder { e with far := e.far.handle f } []

/-- What the parties may do: the script sends items and at last a completion. -/
def rules : Crew.Rules Party Line Step where
  starts k e := Starts e k
  keeps := by
    rintro k e e' ts (n | h | h) i x hx
    · exact hx
    · exact hx
    · exact hx
  outer := by
    rintro k e e' ts (n | h | h) t ht
    · rw [List.mem_singleton.mp ht]
      rfl
    · rw [List.mem_singleton.mp ht]
      rfl
    · cases ht
  emits k i s := k = .script ∧ i = 0 ∧ ∀ message, s ≠ .error message

/-- The stream object of the channel, as the peer of its producer. -/
def peer : Handle := ⟨0, 0⟩

/-- The stream of the channel. -/
def stream : UInt32 := 1

/-- The script is about to open a channel whose consumer begins with a demand of `n0` and whose
initial payload is `p0`. -/
def start (label : String) (n0 : Nat) (p0 : Payload) : Crew Party Line Step where
  exchange :=
    { far := {}
      interactions := #[{
        receiver := .payloads { label := label, initialDemand := n0 }
        producer := .scripted { initial := .pending p0 } }] }
  stack
    | .script => [.tell (.openedChannel 0 0)]
    | .reader => []
    | .responder => []

/-! ## Schedules -/

/-- What a party does next.  If it has nothing left to do, the script asks for an item, and the
others take a frame. -/
def advance (c : Crew Party Line Step) (k : Party) : Crew Party Line Step :=
  match k, c.stack k with
  | .script, [] => c.turn .script [.own 0 (.request 1)] c.exchange
  | .reader, [] =>
    match c.exchange.far.incoming with
    | [] => c
    | f :: _ =>
      c.turn .reader [.call (.resume (.receive f))]
        { c.exchange with far := { c.exchange.far with read := c.exchange.far.read + 1 } }
  | .responder, [] =>
    match c.exchange.far.outgoing with
    | [] => c
    | f :: _ => c.turn .responder [] { c.exchange with far := c.exchange.far.handle f }
  | k, _ => c.next environment k

/-- The parties get on in the order given. -/
def play (schedule : List Party) (c : Crew Party Line Step) : Crew Party Line Step :=
  schedule.foldl advance c

theorem reach_advance (c : Crew Party Line Step) (k : Party) :
    Crew.Reach environment rules c (advance c k) := by
  unfold advance
  split
  · exact .single (.start ‹_› (.ask 1))
  · split
    · exact .refl
    · exact .single (.start ‹_› (.take ‹_›))
  · split
    · exact .refl
    · exact .single (.start ‹_› (.handle ‹_›))
  · exact Crew.reach_next ..

theorem reach_play (schedule : List Party) (c : Crew Party Line Step) :
    Crew.Reach environment rules c (play schedule c) := by
  induction schedule generalizing c with
  | nil => exact .refl
  | cons k schedule ih => exact (reach_advance c k).trans (ih (advance c k))

/-! ## What there is to be seen -/

/-- What the owner of a consumer asks for by a task. -/
def requested : Task Step → Nat
  | .own _ (.request n) => n
  | _ => 0

/-- The consumer of the channel. -/
def consumer? (c : Crew Party Line Step) : Option (Consumer Payload Handle Target) :=
  match (c.exchange.interactions[0]? : Option Interaction) with
  | some { receiver := .payloads consumer, .. } => some consumer
  | _ => none

/-- The items that the consumer holds. -/
def values (c : Crew Party Line Step) : List Payload :=
  (consumer? c).elim [] Consumer.values

/-- The items that the client has sent. -/
def sent (c : Crew Party Line Step) : List Payload :=
  (c.signals peer).filterMap Signal.item?

/-- The frame that the reader dispatches by a task. -/
def dispatched? : Task Step → Option Frame
  | .call (.resume (.receive f)) => some f
  | .tell (.resumed (.receive f)) => some f
  | .call (.signal _ (.next item)) => some (.next stream item)
  | _ => none

/-- The frames on their way to the consumer, the one that is being dispatched first. -/
def toClient (c : Crew Party Line Step) : List Frame :=
  (c.stack .reader).filterMap dispatched? ++ c.exchange.far.incoming

/-- How much the owner of the consumer has asked for, besides the initial demand. -/
def asked (c : Crew Party Line Step) : Nat :=
  (c.done.map requested).sum

/-- Taking the first of the frames that are left. -/
theorem take_succ_of_drop {l fs : List Frame} {f : Frame} {k : Nat} (h : l.drop k = f :: fs) :
    k < l.length ∧ l.take (k + 1) = l.take k ++ [f] := by
  have hlt : k < l.length := by
    by_contra hge
    rw [List.drop_of_length_le (by omega)] at h
    cases h
  rw [List.drop_eq_getElem_cons hlt] at h
  rw [List.take_succ_eq_append_getElem hlt, (List.cons.inj h).1]
  exact ⟨hlt, rfl⟩

theorem sent_of_done {c d : Crew Party Line Step} {t : Task Step} (h : d.done = c.done ++ [t]) :
    sent d = sent c ++ ((Crew.signal? peer t).bind Signal.item?).toList := by
  rw [sent, Crew.signals, h, List.filterMap_append, List.filterMap_append]
  refine congrArg (sent c ++ ·) ?_
  rcases hs : Crew.signal? peer t with _ | s
  · simp [hs]
  · cases hi : s.item? <;> simp [hs, hi]

theorem asked_of_done {c d : Crew Party Line Step} {t : Task Step} (h : d.done = c.done ++ [t]) :
    asked d = asked c + requested t := by
  rw [asked, h]
  simp [asked]

/-- A line that is sound was sound before. -/
theorem isSound_of_step {c d : Crew Party Line Step} (h : Crew.Step environment rules c d)
    (hd : d.exchange.far.IsSound) : c.exchange.far.IsSound := by
  cases h with
  | @work k t rest hk ht =>
    have hfar := Exchange.far_perform environment t c.exchange
    have hd' : (c.exchange.perform environment t).1.far.IsSound := hd
    rw [hfar] at hd'
    cases t with
    | tell e =>
      obtain ⟨hfailed, hended⟩ := hd'
      exact ⟨(Bool.or_eq_false_iff.mp hfailed).1, hended⟩
    | call | own | settle | passOn | openGate | push | drain | drainNext => exact hd'
  | panic hk => exact hd
  | start hk hstart =>
    cases hstart with
    | ask n => exact hd
    | take hf => exact hd
    | @handle f fs hf =>
      refine ⟨hd.1, ?_⟩
      have hended : (c.exchange.far.conversation.receive f).1.ended = none := hd.2
      by_contra hc
      rw [Conversation.receive, if_pos (Option.isSome_iff_ne_none.mpr hc)] at hended
      exact hc hended
  | @emit k i p emitter s hk hemit hp hs =>
    have hfar : (c.exchange.send (τ := Step) i p emitter s).1.far = c.exchange.far :=
      Exchange.far_atInteraction (τ := Step) ..
    have hd' : (c.exchange.send (τ := Step) i p emitter s).1.far.IsSound := hd
    rwa [hfar] at hd'

theorem asked_le_of_step {c d : Crew Party Line Step} (h : Crew.Step environment rules c d) :
    asked c ≤ asked d := by
  obtain ⟨ts, hts⟩ := Crew.isPrefix_done h
  rw [asked, asked, ← hts]
  simp

end Line
end StreamConformance
