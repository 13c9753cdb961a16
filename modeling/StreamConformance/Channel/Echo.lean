import StreamConformance.Queue
import StreamConformance.Signal

/-!
# Echoes

An echo sends back to the peer every item that is pushed into it, in order, as the peer's
demand allows.  Items wait in a queue.  One call at a time empties the queue: while an item is
being delivered, pushes and requests leave their work to the call that is delivering.
-/

namespace StreamConformance

/-- The queue of an echo and the demand of its peer. -/
structure Echo where
  demand : Nat := 0
  queue : Queue Payload := .empty
  canceled : Bool := false
  /-- Some call is emptying the queue. -/
  draining : Bool := false

namespace Echo

/-- Put an item into the queue, and tell whether the queue is to be drained. -/
def push (item : Payload) (e : Echo) : Echo × Bool :=
  if e.canceled then (e, false) else ({ e with queue := e.queue.enqueue item }, true)

/-- The peer grants `n` more items; the queue is to be drained. -/
def request (n : Nat) (e : Echo) : Echo :=
  { e with demand := Demand.add e.demand n }

/-- The peer wants no more items. -/
def cancel (e : Echo) : Echo :=
  { e with canceled := true, queue := .empty }

/-- Begin to empty the queue, unless some call does so already. -/
def beginDrain (e : Echo) : Echo × Bool :=
  if e.draining then (e, false) else ({ e with draining := true }, true)

/-- Take the next item that may be delivered, or stop. -/
def takeNext (e : Echo) : Echo × Option Payload :=
  let e := if e.canceled then { e with queue := .empty } else e
  let stop := ({ e with draining := false }, none)
  if e.demand == 0 then stop
  else
    match e.queue.dequeue? with
    | some (item, queue) => ({ e with demand := e.demand - 1, queue := queue }, some item)
    | none => stop

end Echo
end StreamConformance
