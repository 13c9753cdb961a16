import StreamConformance.Signal

/-!
# The initial payload of a channel

The party that opens a channel has a first item to send.  It goes out on the peer's first
demand and uses one unit of it.  While it is being delivered, further demand is set aside;
once it has been delivered, what is left of the first demand and what was set aside go to the
emitter, and so does all later demand.
-/

namespace StreamConformance

/-- Where the initial payload of a channel is. -/
inductive InitialPayload where
  | pending (payload : Payload)
  /-- Being delivered; `deferred` is the demand that came meanwhile. -/
  | emitting (deferred : Nat)
  | sent
  deriving DecidableEq

namespace InitialPayload

/-- What demand of the peer leads to. -/
inductive Granted where
  | nothing
  /-- Deliver the initial payload, then settle the demand that brought it out. -/
  | deliver (payload : Payload)
  /-- Pass the demand on. -/
  | pass (n : Nat)
  deriving DecidableEq

/-- The peer grants `n` more items. -/
def request (n : Nat) (i : InitialPayload) : InitialPayload × Granted :=
  if n == 0 then (i, .nothing)
  else
    match i with
    | .pending payload => (.emitting 0, .deliver payload)
    | .emitting deferred => (.emitting (Demand.add deferred n), .nothing)
    | .sent => (.sent, .pass n)

/-- The delivery that a demand of `n` brought about is over; the number is the demand that is
now to be passed on. -/
def settle (n : Nat) (i : InitialPayload) : InitialPayload × Nat :=
  match i with
  | .emitting deferred => (.sent, Demand.add (n - 1) deferred)
  | .pending _ => (.sent, n - 1)
  | .sent => (.sent, n - 1)

/-- The peer cancels: the initial payload is not delivered any more. -/
def cancel (_ : InitialPayload) : InitialPayload :=
  .sent

/-! ### What demand leads to -/

section Request

variable {n : Nat} (hn : n ≠ 0)
include hn

theorem request_pending (payload : Payload) :
    (pending payload).request n = (.emitting 0, .deliver payload) :=
  if_neg (by simpa using hn)

theorem request_emitting (deferred : Nat) :
    (emitting deferred).request n = (.emitting (Demand.add deferred n), .nothing) :=
  if_neg (by simpa using hn)

theorem request_sent : sent.request n = (.sent, .pass n) :=
  if_neg (by simpa using hn)

end Request

end InitialPayload
end StreamConformance
