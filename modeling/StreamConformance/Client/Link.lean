import StreamConformance.Wire.Frame

/-!
# Links of a channel

A link joins both directions of a channel to one stream.  The channel is opened by the first
item of the near producer; demand that the near consumer granted before is held and goes out
with the opening frame.

A section of a link decides what to write, and the frame is written before the section is
over, so the frames of a channel are on the wire in the order of its sections.
-/

namespace StreamConformance
namespace Client

/-- Both directions of a channel. -/
structure Link where
  /-- The opening frame has been decided on. -/
  opened : Bool := false
  /-- Demand of the consumer that waits for the channel to be opened. -/
  held : Nat := 0
  /-- The consumer has canceled. -/
  inboundDone : Bool := false
  /-- The producer has ended, or the peer wants no more of its items. -/
  outboundDone : Bool := false
  /-- The producer has given a subscription, and it is in use. -/
  attached : Bool := false
  deriving DecidableEq

namespace Link

/-- The consumer grants `n` more items. -/
def grant (stream : UInt32) (n : Nat) (l : Link) : Link × Option Wire.Frame :=
  if l.inboundDone || n == 0 then (l, none)
  else if l.opened then (l, some (.requestN stream n))
  else ({ l with held := Demand.add l.held n }, none)

/-- The consumer cancels; nothing is returned if it has done so before.  The peer is told if
the channel is open. -/
def cancelInbound (l : Link) : Link × Option Bool :=
  if l.inboundDone then (l, none) else ({ l with inboundDone := true }, some l.opened)

/-- The producer gives a subscription.  The first one is asked for an item, as the opening
frame needs one; any other one is turned down. -/
def attach (l : Link) : Link × Ask :=
  if l.outboundDone || l.attached then (l, .cancel) else ({ l with attached := true }, .request 1)

/-- The peer wants no more items; the producer is told if its subscription is in use. -/
def cancelOutbound (l : Link) : Link × Bool :=
  ({ l with outboundDone := true, attached := false }, l.attached)

/-- The producer sends an item. -/
def send (stream : UInt32) (payload : Payload) (l : Link) : Link × Option Wire.Frame :=
  if l.outboundDone then (l, none)
  else if l.opened then (l, some (.next stream payload))
  else ({ l with opened := true, held := 0 }, some (.requestChannel stream l.held payload))

/-- The producer completes, or fails with a message.  A channel that was never opened stays
unknown to the peer. -/
def finish (stream : UInt32) (message : Option String) (l : Link) : Link × Option Wire.Frame :=
  if l.outboundDone then (l, none)
  else
    ({ l with outboundDone := true, attached := false },
      if l.opened then
        some (match message with
          | some message => .error stream message
          | none => .complete stream)
      else none)

end Link
end Client
end StreamConformance
