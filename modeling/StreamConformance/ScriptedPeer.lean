import StreamConformance.Exchange.Basic
import StreamConformance.Queue

/-!
# Scripted peers

A scripted peer is a far side that behaves as a plan says.  A plan has rules, each of which
carries out actions on some occasion; a feed of items, which are sent as demand allows; an
ending for when the feed is used up; and it may echo, that is, feed back what the peer
receives.

`Stage` is the far side made of such peers: one for each connection, in the order in which the
connections are made.  Everything that a peer gets to see is entered into a journal.

A peer does its work on the thread that calls it.  While it works through its feed, calls that
come back to it leave the feed to the work that goes on already.
-/

namespace StreamConformance

/-- The occasions on which rules apply. -/
inductive Occasion where
  | subscribe
  | request
  | cancel
  | outSubscribed
  | item
  | outError
  | outComplete
  deriving DecidableEq

/-- What a peer does on an occasion. -/
inductive Action where
  /-- Give its subscription to the consumer. -/
  | onSubscribe
  /-- Send a signal to the consumer. -/
  | signal (s : Signal Payload)
  /-- Subscribe to the producer of the channel; only the first time counts. -/
  | outSubscribe
  /-- Ask the subscription that the producer gave, if it gave one. -/
  | ask (a : Ask)
  /-- Send the item last received from the producer, if there is one. -/
  | echo
  | panic (p : Panic)

/-- Actions for an occasion, or for its `nth` occurrence only. -/
structure Rule where
  occasion : Occasion
  nth : Option Nat := none
  actions : List Action

/-- How a peer behaves. -/
structure Plan where
  rules : List Rule := []
  feed : List Payload := []
  /-- Items that were sent are fed again. -/
  endless : Bool := false
  ending : Option Action := none
  echo : Bool := false

/-- What an attempt to connect comes to. -/
inductive ConnectionPlan where
  | refuse
  | panic (p : Panic)
  /-- The peer behaves as planned, or as its interaction suggests. -/
  | behave (plan : Option Plan)

/-- A peer and what it remembers. -/
structure Peer where
  plan : Plan := {}
  /-- The interaction that it is the far side of. -/
  interaction : Nat := 0
  /-- How often occasions have come, each listed once; the others have not come. -/
  occurrences : List (Occasion × Nat) := []
  demand : Nat := 0
  queue : Queue Payload := .empty
  ending : Option Action := none
  done : Bool := false
  draining : Bool := false
  /-- It has subscribed to the producer. -/
  attached : Bool := false
  /-- The producer has given it a subscription. -/
  subscribed : Bool := false
  latest : Option Payload := none

/-- An entry of the journal. -/
inductive Entry where
  | connect (k : Nat)
  | opened (kind : Script.InteractionKind) (k : Nat) (payload : Payload)
  | openedChannel (k : Nat)
  | drop (k : Nat)
  | subscribe (k : Nat)
  | request (k : Nat) (n : Nat)
  | cancel (k : Nat)
  | outSubscribed (k : Nat)
  | item (k : Nat) (payload : Payload)
  | outError (k : Nat) (message : String)
  | outComplete (k : Nat)
  | forward (tag : String) (item : Option Payload)
  deriving DecidableEq

/-- What a peer has still to do once its calls have returned. -/
inductive PeerStep where
  | act (k : Nat) (a : Action)
  /-- Follow the rules for an occasion. -/
  | follow (k : Nat) (o : Occasion)
  | drain (k : Nat)
  | drainNext (k : Nat)

/-- The peers of all connections, and their journal. -/
structure Stage where
  plans : List ConnectionPlan := []
  peers : Array Peer := #[]
  /-- The journal, the latest entry first. -/
  reversed : List Entry := []

namespace Plan

/-- What peers do when a consumer subscribes: they give it a subscription. -/
def welcome : Rule := { occasion := .subscribe, actions := [.onSubscribe] }

/-- How a peer without plan answers a request. -/
def ofRequest (kind : Script.InteractionKind) (payload : Payload) : Plan :=
  if kind == .fireAndForget then
    { rules := [{ occasion := .subscribe, actions := [.onSubscribe, .signal .complete] }] }
  else if payload.asksForError then
    { rules := [welcome], ending := some (.signal (.error payload.requestedError)) }
  else
    match kind with
    | .requestStream =>
      { rules := [welcome], feed := [payload, payload, payload],
        ending := some (.signal .complete) }
    | .requestSubscription => { rules := [welcome], feed := [payload], endless := true }
    | _ => { rules := [welcome], feed := [payload], ending := some (.signal .complete) }

/-- How a peer without plan behaves on a channel. -/
def ofChannel : Plan :=
  { rules :=
      [{ occasion := .subscribe, actions := [.onSubscribe, .outSubscribe] },
        { occasion := .outSubscribed, actions := [.ask (.request 16)] },
        { occasion := .cancel, actions := [.ask .cancel] }]
    echo := true }

end Plan

namespace Peer

/-- A peer that begins to behave as planned. -/
def ofPlan (plan : Plan) (interaction : Nat) : Peer :=
  { plan := plan, interaction := interaction, queue := .ofList plan.feed, ending := plan.ending }

/-- How often an occasion has come. -/
def count (o : Occasion) (p : Peer) : Nat :=
  (p.occurrences.lookup o).getD 0

/-- Count an occasion, and tell the actions that the rules ask for. -/
def occur (o : Occasion) (p : Peer) : Peer × List Action :=
  let n := p.count o + 1
  ({ p with occurrences := (o, n) :: p.occurrences.filter fun entry => entry.1 != o },
    (p.plan.rules.filter fun r => r.occasion == o && (r.nth.isNone || r.nth == some n)).flatMap
      (·.actions))

/-- Carry out an action of the peer of connection `k`. -/
def act (k : Nat) (a : Action) (p : Peer) : Peer × List (Call PeerStep) :=
  match a with
  | .onSubscribe => (p, [.subscribed p.interaction ⟨k, 0⟩])
  | .signal s => (p, [.signal p.interaction s])
  | .outSubscribe =>
    if p.attached then (p, []) else ({ p with attached := true }, [.attach p.interaction ⟨k, 0⟩])
  | .ask a => (p, if p.subscribed then [.ask p.interaction a] else [])
  | .echo => (p, (p.latest.map fun item => .signal p.interaction (.next item)).toList)
  | .panic q => (p, [.raise q])

/-- The peer has items left and no demand for them. -/
def isHeldUp (p : Peer) : Bool :=
  p.demand == 0 && !p.queue.isEmpty

/-- Send the next item that demand allows, or the ending, or stop. -/
def drainNext (k : Nat) (p : Peer) : Peer × List (Call PeerStep) :=
  let stop := ({ p with draining := false }, [])
  if p.done || p.isHeldUp then stop
  else
    match p.queue.dequeue?, p.ending with
    | some (item, queue), _ =>
      ({ p with
          demand := p.demand - 1
          queue := if p.plan.endless then queue.enqueue item else queue },
        [.signal p.interaction (.next item), .resume (.drainNext k)])
    | none, some a =>
      ({ p with done := true, ending := none },
        [.resume (.act k a), .resume (.drainNext k)])
    | none, none => stop

/-- Begin to work through the feed, unless that goes on already. -/
def drain (k : Nat) (p : Peer) : Peer × List (Call PeerStep) :=
  if p.draining then (p, []) else ({ p with draining := true }, [.resume (.drainNext k)])

end Peer

namespace Stage

/-- Enter something into the journal. -/
def note (e : Entry) (s : Stage) : Stage :=
  { s with reversed := e :: s.reversed }

/-- The journal, in order. -/
def journal (s : Stage) : List Entry :=
  s.reversed.reverse

/-- Let a peer do something. -/
def withPeer (k : Nat) (f : Peer → Peer × List (Call PeerStep)) (s : Stage) :
    Stage × List (Call PeerStep) :=
  match s.peers[k]? with
  | none => (s, [])
  | some p => ({ s with peers := s.peers.setIfInBounds k (f p).1 }, (f p).2)

/-- An occasion has come for a peer, which first changes by `f`; behind the actions of its
rules it takes the steps `after`. -/
def occasion (k : Nat) (o : Occasion) (f : Peer → Peer) (after : List PeerStep)
    (s : Stage) : Stage × List (Call PeerStep) :=
  s.withPeer k fun p =>
    match (f p).occur o with
    | (p, actions) => (p, (actions.map fun a => .resume (.act k a)) ++ after.map .resume)

/-- A consumer subscribes to the peer of connection `k`. -/
def welcome (k : Nat) (plan : Plan) (i : Nat) (s : Stage) : Stage × List (Call PeerStep) :=
  ({ s with peers := s.peers.setIfInBounds k (.ofPlan plan i) }.note (.subscribe k)).occasion k
    .subscribe id []

/-- The plan for a connection. -/
def planOf (k : Nat) (s : Stage) : Option Plan :=
  match s.plans[k]? with
  | some (.behave plan) => plan
  | _ => none

/-- Make a connection. -/
def dial (s : Stage) : Stage × Dial :=
  let k := s.peers.size
  let s : Stage := { s with peers := s.peers.push {} }.note (.connect k)
  match s.plans[k]? with
  | some .refuse => (s, .refused (.unreachable "peer" "refused"))
  | some (.panic p) => (s, .panicked p)
  | _ => (s, .connected k)

/-- Whether a peer echoes. -/
def echoes (k : Nat) (s : Stage) : Bool :=
  ((s.peers[k]?).map fun p => p.plan.echo).getD false

/-- A signal of the producer reaches a peer. -/
def hear (k : Nat) (signal : Signal Payload) (s : Stage) : Stage × List (Call PeerStep) :=
  let echo := s.echoes k
  match signal with
  | .next item =>
    (s.note (.item k item)).occasion k .item
      (fun p =>
        { p with
          latest := some item
          queue := if echo then p.queue.enqueue item else p.queue })
      (if echo then [.drain k] else [])
  | .error message =>
    let s := s.note (.outError k message)
    if echo then
      -- The error goes to the consumer before the rules for it apply.
      ((s.withPeer k fun p => ({ p with done := true }, [])).1,
        [.resume (.act k (.signal (.error message))), .resume (.follow k .outError)])
    else s.occasion k .outError id []
  | .complete =>
    let s := s.note (.outComplete k)
    if echo then
      ((s.withPeer k fun p => ({ p with ending := some (.signal .complete) }, [])).1,
        [.resume (.drain k), .resume (.follow k .outComplete)])
    else s.occasion k .outComplete id []

/-- How the peers react. -/
def react (e : Event PeerStep) (s : Stage) : Stage × List (Call PeerStep) :=
  match e with
  | .opened k kind payload i =>
    (s.note (.opened kind k payload)).welcome k
      ((s.planOf k).getD (Plan.ofRequest kind payload)) i
  | .openedChannel k i =>
    (s.note (.openedChannel k)).welcome k ((s.planOf k).getD Plan.ofChannel) i
  | .asked ⟨k, _⟩ (.request n) =>
    (s.note (.request k n)).occasion k .request
      (fun p => { p with demand := Demand.add p.demand n }) [.drain k]
  | .asked ⟨k, _⟩ .cancel =>
    (s.note (.cancel k)).occasion k .cancel (fun p => { p with done := true }) []
  | .attached ⟨k, _⟩ _ =>
    (s.note (.outSubscribed k)).occasion k .outSubscribed
      (fun p => { p with subscribed := true }) []
  | .heard ⟨k, _⟩ signal => s.hear k signal
  | .copied tag item => (s.note (.forward tag item), [])
  | .released k => (s.note (.drop k), [])
  | .resumed (.act k a) => s.withPeer k (Peer.act k a)
  | .resumed (.follow k o) => s.occasion k o id []
  | .resumed (.drain k) => s.withPeer k (Peer.drain k)
  | .resumed (.drainNext k) => s.withPeer k (Peer.drainNext k)

/-- The peers as a far side.  They do nothing unless they are called. -/
def environment : Environment Stage PeerStep where
  dial s := some s.dial
  react := react
  idle _ := none

end Stage

/-- Take the journal of the peers, who begin a new one. -/
def Exchange.collect (e : Exchange Stage) : List Entry × Exchange Stage :=
  (e.far.journal, { e with far := { e.far with reversed := [] } })

end StreamConformance
