import StreamConformance.Wire.Frame
import StreamConformance.Script.Command

/-!
# Requests of a stream

A request goes out with the first demand for its answers, and carries that demand with it.
Later demand becomes frames of its own, except for a request with a single answer, which needs
no more.  A request that is canceled before any demand never goes out.

`Request.request` and `Request.cancel` are the sections in which is decided what to write; the
writing comes after them.
-/

namespace StreamConformance
namespace Client

/-- Where a request stands. -/
inductive RequestPhase where
  | unsent (payload : Payload)
  | sent
  | done
  deriving DecidableEq

/-- The request of a stream. -/
structure Request where
  kind : Script.InteractionKind
  phase : RequestPhase
  deriving DecidableEq

/-- The frame that opens a stream, with the demand it carries if frames of its kind do. -/
def openingFrame (kind : Script.InteractionKind) (stream : UInt32) (n : Nat)
    (payload : Payload) : Wire.Frame :=
  match kind with
  | .requestResponse => .requestResponse stream payload
  | .requestStream => .requestStream stream n payload
  | .requestSubscription => .requestSubscription stream n payload
  | .fireAndForget => .fireAndForget stream payload

namespace Request

/-- The consumer grants `n` more answers; the frame is to be written. -/
def request (stream : UInt32) (n : Nat) (r : Request) : Request × Option Wire.Frame :=
  if n == 0 then (r, none)
  else
    match r.phase with
    | .unsent payload =>
      ({ r with phase := .sent }, some (openingFrame r.kind stream n payload))
    | .sent => (r, if r.kind == .requestResponse then none else some (.requestN stream n))
    | .done => (r, none)

/-- The consumer cancels.  The peer is told if it knows of the request. -/
def cancel (r : Request) : Request × Bool :=
  ({ r with phase := .done }, r.phase == .sent)

end Request
end Client
end StreamConformance
