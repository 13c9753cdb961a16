import StreamConformance.Monitor
import StreamConformance.Signal

/-!
# Emitters

An emitter sends the signals of a script to a peer, one unit of the peer's demand for each
item.  Completions and errors need no demand; the first of them finishes the emitter.  A
canceled or finished emitter refuses everything.

`emit` is the section in which a signal is decided on.  The signal itself is delivered once
the section is over.
-/

namespace StreamConformance

/-- The outgoing side of a channel, as far as it decides what may be sent. -/
structure Emitter where
  /-- Demand of the peer that is not yet used by an item. -/
  demand : Nat := 0
  canceled : Bool := false
  finished : Bool := false
  deriving DecidableEq

namespace Emitter

/-- No more signals can be sent. -/
def isClosed (e : Emitter) : Bool :=
  e.canceled || e.finished

/-- What becomes of a signal that is to be sent. -/
inductive Emission where
  /-- It has to wait for demand. -/
  | waits
  /-- It is dropped. -/
  | refused
  /-- It is sent, and this is the emitter afterwards. -/
  | sent (e : Emitter)

/-- Decide on a signal. -/
def emit (s : Signal Payload) (e : Emitter) : Emission :=
  if e.isClosed then .refused
  else
    match s with
    | .next _ => if e.demand == 0 then .waits else .sent { e with demand := e.demand - 1 }
    | .complete => .sent { e with finished := true }
    | .error _ => .sent { e with finished := true }

/-- The peer adds demand, or cancels.  Both notify a waiting emission. -/
def ask (a : Ask) (e : Emitter) : Emitter :=
  match a with
  | .request n => { e with demand := Demand.add e.demand n }
  | .cancel => { e with canceled := true }

/-! ### An emitter on its own -/

/-- An emitter whose peer keeps what it gets. -/
structure Recorded where
  emitter : Emitter := {}
  /-- What the peer got, the last signal first. -/
  reversed : List (Signal Payload) := []

/-- What the peer got, in order. -/
def Recorded.delivered (r : Recorded) : List (Signal Payload) :=
  r.reversed.reverse

/-- The peer gets a signal, which leaves the emitter as `e`. -/
def Recorded.deliver (s : Signal Payload) (e : Emitter) (r : Recorded) : Recorded :=
  { emitter := e, reversed := s :: r.reversed }

/-- Play signals until one has to wait or is refused; a refusal drops all that follow. -/
def Recorded.play : List (Signal Payload) → Recorded → Recorded × (List (Signal Payload) ⊕ Unit)
  | [], r => (r, .inr ())
  | s :: signals, r =>
    match r.emitter.emit s with
    | .waits => (r, .inl (s :: signals))
    | .refused => (r, .inr ())
    | .sent e => Recorded.play signals (r.deliver s e)

/-- A recorded emitter and the threads that play signals on it. -/
abbrev Players := Monitor Recorded (List (Signal Payload)) Unit

/-- The peer asks for something, which wakes the waiting players. -/
def Players.ask (a : Ask) (m : Players) : Players :=
  (m.update { m.state with emitter := m.state.emitter.ask a } true).settle Recorded.play

/-- Emit one signal, if it does not have to wait, and tell whether it was sent. -/
def Players.emit (s : Signal Payload) (m : Players) : Players × Bool :=
  match m.state.emitter.emit s with
  | .sent e => ({ m with state := m.state.deliver s e }, true)
  | _ => (m, false)

/-- Start a thread that plays signals. -/
def Players.respond (signals : List (Signal Payload)) (m : Players) : Players :=
  Monitor.spawn Recorded.play signals m

/-- Take from the peer what it got. -/
def Players.collect (m : Players) : List (Signal Payload) × Players :=
  (m.state.delivered, { m with state := { m.state with reversed := [] } })

end Emitter
end StreamConformance
