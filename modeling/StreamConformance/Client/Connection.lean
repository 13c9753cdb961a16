import StreamConformance.Client.Link
import StreamConformance.Client.Request
import StreamConformance.Client.Routes
import StreamConformance.Exchange.Basic
import StreamConformance.SystemError

/-!
# Connections of a client

A connection carries any number of streams, each with an odd number of its own.  It is part of
the far side of an exchange: consumers subscribe to the answers on its streams, producers send
items through its links, and frames that arrive are handed to the consumers and producers that
the route table names.

What happens is cut into steps, each of which is one section under one lock: of the route
table, of a request, of a link, of the writer.  A step that leads to further sections returns
them as calls to itself, in the order in which they come.

A frame that cannot be written ends the consumer of its stream with the fault.  Cancellations
and the ends of a producer are written without minding whether they arrive.

## The end of a connection

The reader closes the connection when the peer has ended it or its bytes make no sense: first
nothing can be written any more, then the table is emptied, and then every consumer that was
in it fails and every producer is canceled.  A connection that is given up is severed, which
the reader will find out in its turn.
-/

namespace StreamConformance
namespace Client

/-- What a stream is, seen from its near side. -/
inductive Side where
  | request (r : Request)
  | channel (l : Link)
  /-- A message without answers. -/
  | detached
  deriving DecidableEq

/-- A stream and the interaction that it serves. -/
structure Stream where
  id : UInt32
  interaction : Nat
  side : Side
  deriving DecidableEq

/-- The near end of a connection. -/
structure Connection where
  /-- Its number among the connections. -/
  number : Nat := 0
  nextStream : UInt32 := 1
  streams : Array Stream := #[]
  routes : Routes := {}
  /-- The reader has found the connection ended. -/
  closed : Bool := false
  /-- Why nothing can be written, though the reader has not found out. -/
  severed : Option String := none
  /-- The frames written, as far as they have not been carried away. -/
  written : List Wire.Frame := []

/-- What is left to be done on a connection. -/
inductive Step where
  /-- Enter a stream into the route table. -/
  | register (j : Nat)
  /-- Write a frame; a fault ends the consumer of its stream. -/
  | write (f : Wire.Frame)
  /-- Tell the peer that the answers on a stream are not wanted, without minding a fault. -/
  | writeCancel (stream : UInt32)
  /-- Take the consumer of a stream out of the table. -/
  | detach (stream : UInt32)
  /-- End the consumer of a stream with a fault. -/
  | fail (stream : UInt32) (fault : Fault)
  /-- Find a stream for a message without answers. -/
  | post (i : Nat) (payload : Payload)
  /-- Write a message without answers, and tell its consumer. -/
  | writeMessage (i : Nat) (f : Wire.Frame)
  /-- A frame has arrived. -/
  | receive (f : Wire.Frame)
  /-- Take the link of a stream out of the table and cancel its producer. -/
  | detachLink (stream : UInt32)
  /-- Cancel the producer of a link. -/
  | cancelProducer (j : Nat)
  /-- Pass demand of the peer on to the producer of a link. -/
  | askProducer (j : Nat) (n : Nat)
  /-- The reader has found the connection ended. -/
  | close (reason : String)
  /-- Empty the route table. -/
  | drain (reason : String)
  deriving DecidableEq

namespace Connection

/-- What comes of a step, and what is to be done next. -/
abbrev Result := Connection × List (Call Step)

/-- Write a frame. -/
def send (f : Wire.Frame) (c : Connection) : Except Fault Connection :=
  if c.closed then .error .connectionClosed
  else
    match f.encode, c.severed with
    | .error fault, _ => .error fault
    | .ok _, some cause => .error (.broken cause)
    | .ok _, none => .ok { c with written := c.written ++ [f] }

/-- Write a frame, and do what is to be done if that fails. -/
def sendOr (f : Wire.Frame) (otherwise : Fault → List (Call Step)) (c : Connection) : Result :=
  match c.send f with
  | .ok c => (c, [])
  | .error fault => (c, otherwise fault)

/-- What is to be done if a frame of a stream could not be written. -/
def failStream (stream : UInt32) (fault : Fault) : List (Call Step) :=
  [.resume (.fail stream fault)]

/-- A section of the stream object `j`. -/
def atStream (j : Nat) (f : Stream → Connection → Result) (c : Connection) : Result :=
  match c.streams[j]? with
  | none => (c, [])
  | some s => f s c

/-- Change what the stream object `j` is. -/
def setSide (j : Nat) (s : Stream) (side : Side) (c : Connection) : Connection :=
  { c with streams := c.streams.setIfInBounds j { s with side := side } }

/-- A section of the link of the stream object `j`. -/
def atLink (j : Nat) (f : Stream → Link → Connection → Result) : Connection → Result :=
  atStream j fun s c =>
    match s.side with
    | .channel l => f s l c
    | _ => (c, [])

/-- A section of a link that ends with the writing of a frame, if it decides on one. -/
def writeLink (j : Nat) (decision : UInt32 → Link → Link × Option Wire.Frame)
    (otherwise : UInt32 → Fault → List (Call Step)) : Connection → Result :=
  atLink j fun s l c =>
    match decision s.id l with
    | (l, none) => (c.setSide j s (.channel l), [])
    | (l, some f) => (c.setSide j s (.channel l)).sendOr f (otherwise s.id)

/-! ### Streams -/

/-- Add a stream object with the next stream, and go on with its number and its handle. -/
def addStream (i : Nat) (side : Side) (next : Nat → Handle → List (Call Step))
    (c : Connection) : Result :=
  let j := c.streams.size
  ({ c with
      nextStream := c.nextStream + 2
      streams := c.streams.push { id := c.nextStream, interaction := i, side := side } },
    next j ⟨c.number, j⟩)

/-- A consumer subscribes to the answers to a request. -/
def opened (kind : Script.InteractionKind) (payload : Payload) (i : Nat)
    (c : Connection) : Result :=
  match kind with
  | .fireAndForget =>
    let j := c.streams.size
    ({ c with streams := c.streams.push { id := 0, interaction := i, side := .detached } },
      [.subscribed i ⟨c.number, j⟩, .resume (.post i payload)])
  | kind =>
    c.addStream i (.request { kind := kind, phase := .unsent payload }) fun j h =>
      [.resume (.register j), .subscribed i h]

/-- A consumer subscribes to the answers on a channel. -/
def openedChannel (i : Nat) (c : Connection) : Result :=
  c.addStream i (.channel {}) fun j h => [.resume (.register j), .subscribed i h, .attach i h]

/-- A consumer asks the subscription that it was given. -/
def asked (j : Nat) (a : Ask) : Connection → Result :=
  atStream j fun s c =>
    match s.side, a with
    | .request r, .request n =>
      match r.request s.id n with
      | (r, f) => (c.setSide j s (.request r), (f.map fun f => .resume (.write f)).toList)
    | .request r, .cancel =>
      match r.cancel with
      | (r, wasSent) =>
        (c.setSide j s (.request r),
          .resume (.detach s.id) :: if wasSent then [.resume (.writeCancel s.id)] else [])
    | .channel _, .request n => c.writeLink j (fun id => Link.grant id n) failStream
    | .channel l, .cancel =>
      match l.cancelInbound with
      | (l, none) => (c.setSide j s (.channel l), [])
      | (l, some wasOpened) =>
        (c.setSide j s (.channel l),
          .resume (.detach s.id) :: if wasOpened then [.resume (.writeCancel s.id)] else [])
    | .detached, _ => (c, [])

/-- The producer of a channel gives a subscription. -/
def attached (j : Nat) : Connection → Result :=
  atLink j fun s l c =>
    match l.attach with
    | (l, a) => (c.setSide j s (.channel l), [.ask s.interaction a])

/-- The producer of a channel sends a signal. -/
def heard (j : Nat) (signal : Signal Payload) : Connection → Result :=
  match signal with
  | .next payload => writeLink j (fun id => Link.send id payload) failStream
  | .complete => writeLink j (fun id => Link.finish id none) fun _ _ => []
  | .error message => writeLink j (fun id => Link.finish id (some message)) fun _ _ => []

/-! ### The reader -/

/-- Take the consumer of a stream out of the table and send it a signal. -/
def endInbound (stream : UInt32) (signal : Signal Payload) (c : Connection) : Result :=
  match c.routes.takeInbound stream with
  | (routes, i) => ({ c with routes := routes }, (i.map fun i => .signal i signal).toList)

/-- A frame has arrived.  Frames for streams that are not in the table, and requests of the
peer, are ignored. -/
def receive (f : Wire.Frame) (c : Connection) : Result :=
  match f with
  | .next stream payload =>
    (c, (((c.routes.find? stream).bind (·.inbound)).map fun i => .signal i (.next payload)).toList)
  | .complete stream => c.endInbound stream .complete
  | .error stream message =>
    match c.endInbound stream (.error message) with
    | (c, calls) => (c, calls ++ [.resume (.detachLink stream)])
  | .requestN stream n =>
    (c, (((c.routes.find? stream).bind (·.outbound)).map fun j =>
      .resume (.askProducer j n)).toList)
  | .cancel stream => (c, [.resume (.detachLink stream)])
  | _ => (c, [])

/-- What the end of a connection means for a route that was in the table. -/
def endRoute (reason : String) (r : Route) : List (Call Step) :=
  (r.inbound.map fun i => .signal i (.error reason)).toList ++
    (r.outbound.map fun j => .resume (.cancelProducer j)).toList

/-- Take a step.  When the table is emptied, its streams end in the order of its entries, the one
that was entered or changed last before the others.  That is one order of many: a hash table is
emptied in an arbitrary one, and no stream may count on another to end before it. -/
def step (s : Step) (c : Connection) : Result :=
  match s with
  | .register j =>
    c.atStream j fun s c =>
      let outbound :=
        match s.side with
        | .channel _ => some j
        | _ => none
      let route : Route := { inbound := some s.interaction, outbound := outbound }
      ({ c with routes := c.routes.insert s.id route }, [])
  | .write f => c.sendOr f (failStream f.stream)
  | .writeCancel stream => c.sendOr (.cancel stream) fun _ => []
  | .detach stream => ({ c with routes := (c.routes.takeInbound stream).1 }, [])
  | .fail stream fault => c.endInbound stream (.error fault.message)
  | .post i payload =>
    ({ c with nextStream := c.nextStream + 2 },
      [.resume (.writeMessage i (.fireAndForget c.nextStream payload))])
  | .writeMessage i f =>
    match c.send f with
    | .ok c => (c, [.signal i .complete])
    | .error fault => (c, [.signal i (.error fault.message)])
  | .receive f => c.receive f
  | .detachLink stream =>
    match c.routes.takeOutbound stream with
    | (routes, j) =>
      ({ c with routes := routes }, (j.map fun j => .resume (.cancelProducer j)).toList)
  | .cancelProducer j =>
    c.atLink j fun s l c =>
      match l.cancelOutbound with
      | (l, inUse) =>
        (c.setSide j s (.channel l), if inUse then [.ask s.interaction .cancel] else [])
  | .askProducer j n =>
    c.atLink j fun s l c => (c, if l.attached then [.ask s.interaction (.request n)] else [])
  | .close reason => ({ c with closed := true }, [.resume (.drain reason)])
  | .drain reason =>
    ({ c with routes := {} }, c.routes.entries.flatMap fun e => endRoute reason e.2)

/-- How a connection reacts. -/
def react (e : Event Step) (c : Connection) : Result :=
  match e with
  | .opened _ kind payload i => c.opened kind payload i
  | .openedChannel _ i => c.openedChannel i
  | .asked h a => c.asked h.stream a
  | .attached r _ => c.attached r.stream
  | .heard r signal => c.heard r.stream signal
  | .copied _ _ => (c, [])
  | .released _ => ({ c with severed := some SystemError.brokenPipe.text }, [])
  | .resumed s => c.step s

end Connection
end Client
end StreamConformance
