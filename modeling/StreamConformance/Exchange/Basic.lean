import StreamConformance.Exchange.Interaction
import StreamConformance.Fault

/-!
# Exchanges

An exchange is the near sides of all interactions together with the far side, of which
nothing is known but how it answers.  The two sides call each other, and a call may lead to
further calls before it returns: a consumer that is given a subscription asks it for items,
and a peer that is asked may deliver them at once.

What a thread has still to do is therefore a list of `Task`s, the innermost call first.
`perform` takes one task and says what it leads to; these tasks come before the ones that
were waiting.  Every task is one section under one lock, so an arbitrary interleaving of
threads is an arbitrary choice of the thread whose first task is next.

## The far side

An `Environment` says how the far side reacts to an `Event`: its state changes, and it makes
`Call`s.  Calls are all that the far side can do to the near side, besides ending the thread
in a panic.  What it wants to do after its calls have returned it remembers as a step of its
own, which comes back to it as the event `resumed`.
-/

namespace StreamConformance

/-- What the far side may do, one call at a time.  Interactions are known by their number. -/
inductive Call (τ : Type) where
  /-- Give the subscription `h` to a consumer. -/
  | subscribed (i : Nat) (h : Handle)
  /-- Send a signal to a consumer. -/
  | signal (i : Nat) (s : Signal Payload)
  /-- Subscribe the receiver `r` to the producer of an interaction. -/
  | attach (i : Nat) (r : Handle)
  /-- Ask the subscription of a producer. -/
  | ask (i : Nat) (a : Ask)
  /-- Come back to the far side with a step of its own. -/
  | resume (step : τ)
  | raise (p : Panic)

/-- The same call with steps of another kind. -/
def Call.map {τ τ' : Type} (f : τ → τ') : Call τ → Call τ'
  | .subscribed i h => .subscribed i h
  | .signal i s => .signal i s
  | .attach i r => .attach i r
  | .ask i a => .ask i a
  | .resume step => .resume (f step)
  | .raise p => .raise p

/-- What the far side gets to see. -/
inductive Event (τ : Type) where
  /-- A consumer subscribes to the answers to a request. -/
  | opened (connection : Nat) (kind : Script.InteractionKind) (payload : Payload) (i : Nat)
  /-- A consumer subscribes to the answers on a channel. -/
  | openedChannel (connection : Nat) (i : Nat)
  /-- A consumer asks a subscription. -/
  | asked (h : Handle) (a : Ask)
  /-- A producer gives its subscription to a receiver. -/
  | attached (r : Handle) (i : Nat)
  /-- A producer sends a signal to a receiver. -/
  | heard (r : Handle) (s : Signal Payload)
  /-- A copy of an item is handed to a recorder. -/
  | copied (tag : String) (item : Option Payload)
  /-- A connection is given up. -/
  | released (connection : Nat)
  | resumed (step : τ)

/-- What comes of an attempt to connect. -/
inductive Dial where
  | connected (connection : Nat)
  | refused (fault : Fault)
  | panicked (p : Panic)

/-- A far side with states `σ` and steps of its own `τ`. -/
structure Environment (σ τ : Type) where
  /-- Connect; nothing is returned as long as the attempt goes on. -/
  dial : σ → Option (σ × Dial)
  react : Event τ → σ → σ × List (Call τ)
  /-- What the far side does when the near side waits; nothing, if it waits as well. -/
  idle : σ → Option (σ × List (Call τ))

/-- What a thread has to do. -/
inductive Task (τ : Type) where
  | call (c : Call τ)
  | tell (e : Event τ)
  /-- The consumer's owner asks for items, or for the end. -/
  | own (i : Nat) (a : Ask)
  /-- The delivery of an initial payload for a demand of `n` has returned. -/
  | settle (i : Nat) (n : Nat)
  /-- Pass on to an emitter what its peer asks for. -/
  | passOn (i : Nat) (a : Ask)
  /-- The peer holds the subscription of a scripted producer. -/
  | openGate (i : Nat) (r : Handle)
  /-- Put an item into the queue of an echo. -/
  | push (i : Nat) (item : Payload)
  /-- Empty the queue of an echo, unless some call does so already. -/
  | drain (i : Nat)
  /-- Deliver the next item of an echo. -/
  | drainNext (i : Nat)

/-- The near sides of some interactions, and the far side. -/
structure Exchange (σ : Type) where
  far : σ
  interactions : Array Interaction := #[]

namespace Exchange

variable {σ τ : Type}

/-- Put an interaction in the place of another. -/
def put (i : Nat) (x : Interaction) (e : Exchange σ) : Exchange σ :=
  { e with interactions := e.interactions.setIfInBounds i x }

/-- Open the near side of an interaction; its number is the number of those before it. -/
def enter (x : Interaction) (e : Exchange σ) : Exchange σ :=
  { e with interactions := e.interactions.push x }

/-- What a section of a receiver leaves to be done. -/
def effectTasks (i : Nat) (effect : Receiver.Effect) : List (Task τ) :=
  let asks :=
    match effect.ask with
    | some (h, a) => [Task.tell (.asked h a)]
    | none => []
  let copies :=
    match effect.copy with
    | some (.echo, some item) => [Task.push i item]
    | some (.echo, none) => []
    | some (.recorder tag, item) => [Task.tell (.copied tag item)]
    | none => []
  asks ++ copies

/-- Run a section of the receiver of an interaction. -/
def atReceiver (i : Nat) (f : Receiver → Receiver × Receiver.Effect) (e : Exchange σ) :
    Exchange σ × List (Task τ) :=
  match e.interactions[i]? with
  | none => (e, [])
  | some x => (e.put i { x with receiver := (f x.receiver).1 }, effectTasks i (f x.receiver).2)

/-- The receiver `r` subscribes to a producer, which gives it a subscription.  A producer
takes one subscriber only. -/
def attach (i : Nat) (r : Handle) (x : Interaction) : Interaction × List (Task τ) :=
  match x.producer with
  | .absent => (x, [])
  | .scripted p =>
    if p.remote.isSome then (x, [])
    else
      ({ x with producer := .scripted { p with remote := some r } },
        [.tell (.attached r i), .openGate i r])
  | .echo p =>
    if p.remote.isSome then (x, [])
    else
      ({ receiver := x.receiver.modify (Consumer.setForward .echo)
         producer := .echo { p with remote := some r } },
        [.push i p.initial, .tell (.attached r i)])
  | .manual p =>
    if p.remote.isSome then (x, [])
    else
      ({ x with producer := .manual { p with remote := some r } },
        if p.eager then [.tell (.attached r i)] else [])

/-- The peer asks the subscription of a scripted producer. -/
def askScripted (i : Nat) (a : Ask) (p : ScriptedProducer) :
    ScriptedProducer × List (Task τ) :=
  match a with
  | .cancel => ({ p with initial := p.initial.cancel }, [.passOn i .cancel])
  | .request n =>
    match p.initial.request n with
    | (initial, .nothing) => ({ p with initial := initial }, [])
    | (initial, .pass n) => ({ p with initial := initial }, [.passOn i (.request n)])
    | (initial, .deliver payload) =>
      match p.remote with
      | some r =>
        ({ p with initial := initial }, [.tell (.heard r (.next payload)), .settle i n])
      | none => ({ p with initial := initial }, [.settle i n])

/-- The peer asks the subscription of an echo. -/
def askEcho (i : Nat) (a : Ask) (p : EchoProducer) : EchoProducer × List (Task τ) :=
  match a with
  | .cancel => ({ p with echo := p.echo.cancel }, [])
  | .request n => ({ p with echo := p.echo.request n }, [.drain i])

/-- The peer asks the subscription of a producer. -/
def askProducer (i : Nat) (a : Ask) (x : Interaction) : Interaction × List (Task τ) :=
  match x.producer with
  | .absent => (x, [])
  | .scripted p =>
    ({ x with producer := .scripted (askScripted (τ := τ) i a p).1 }, (askScripted i a p).2)
  | .echo p => ({ x with producer := .echo (askEcho (τ := τ) i a p).1 }, (askEcho i a p).2)
  | .manual p => ({ x with producer := .manual { p with asked := p.asked ++ [a] } }, [])

/-- Run a section that may concern the whole interaction. -/
def atInteraction (i : Nat) (f : Interaction → Interaction × List (Task τ)) (e : Exchange σ) :
    Exchange σ × List (Task τ) :=
  match e.interactions[i]? with
  | none => (e, [])
  | some x => (e.put i (f x).1, (f x).2)

/-- Run a section of a scripted producer. -/
def atScripted (i : Nat) (f : ScriptedProducer → ScriptedProducer × List (Task τ)) :
    Exchange σ → Exchange σ × List (Task τ) :=
  atInteraction i fun x =>
    match x.producer with
    | .scripted p => ({ x with producer := .scripted (f p).1 }, (f p).2)
    | _ => (x, [])

/-- The scripted producer of an interaction. -/
def scripted? (i : Nat) (e : Exchange σ) : Option ScriptedProducer :=
  match e.interactions[i]? with
  | some { producer := .scripted p, .. } => some p
  | _ => none

/-- A signal of the script of an interaction is on its way to the peer of the producer `p`; the
emitter has decided to send it and is `emitter` from now on. -/
def send (i : Nat) (p : ScriptedProducer) (emitter : Emitter) (s : Signal Payload)
    (e : Exchange σ) : Exchange σ × List (Task τ) :=
  ((e.atScripted (τ := τ) i fun p => ({ p with emitter := emitter }, [])).1,
    (p.remote.map fun r => .tell (.heard r s)).toList)

/-- Run a section of an echo. -/
def atEcho (i : Nat) (f : EchoProducer → EchoProducer × List (Task τ)) :
    Exchange σ → Exchange σ × List (Task τ) :=
  atInteraction i fun x =>
    match x.producer with
    | .echo p => ({ x with producer := .echo (f p).1 }, (f p).2)
    | _ => (x, [])

/-- Deliver the next item of an echo, if there is one that may be delivered. -/
def drainNext (i : Nat) (p : EchoProducer) : EchoProducer × List (Task τ) :=
  match p.echo.takeNext with
  | (echo, none) => ({ p with echo := echo }, [])
  | (echo, some item) =>
    match p.remote with
    | some r => ({ p with echo := echo }, [.tell (.heard r (.next item)), .drainNext i])
    | none => ({ p with echo := echo }, [.drainNext i])

/-- Perform a call of the far side. -/
def performCall (c : Call τ) (e : Exchange σ) : Exchange σ × List (Task τ) :=
  match c with
  | .subscribed i h => e.atReceiver i fun r => r.atConsumer (Consumer.subscribed h)
  | .signal i s => e.atReceiver i (Receiver.deliver s)
  | .attach i r => e.atInteraction i (attach i r)
  | .ask i a => e.atInteraction i (askProducer i a)
  | .resume step => (e, [.tell (.resumed step)])
  | .raise _ => (e, [])

/-- Perform a task, and tell what is to be done before the tasks behind it. -/
def perform (env : Environment σ τ) (t : Task τ) (e : Exchange σ) : Exchange σ × List (Task τ) :=
  match t with
  | .call c => e.performCall c
  | .tell event =>
    match env.react event e.far with
    | (far, calls) => ({ e with far := far }, calls.map .call)
  | .own i a => e.atReceiver i fun r => r.atConsumer (Consumer.demand a)
  | .settle i n =>
    e.atScripted i fun p =>
      match p.initial.settle n with
      | (initial, remainder) =>
        ({ p with initial := initial },
          if 0 < remainder then [.passOn i (.request remainder)] else [])
  | .passOn i a => e.atScripted i fun p => ({ p with emitter := p.emitter.ask a }, [])
  | .openGate i r => e.atScripted i fun p => ({ p with gate := (p.gate.fire r).1 }, [])
  | .push i item =>
    e.atEcho i fun p =>
      ({ p with echo := (p.echo.push item).1 }, if (p.echo.push item).2 then [.drain i] else [])
  | .drain i =>
    e.atEcho i fun p =>
      ({ p with echo := p.echo.beginDrain.1 },
        if p.echo.beginDrain.2 then [.drainNext i] else [])
  | .drainNext i => e.atEcho i (drainNext i)

/-- How a run of tasks ends. -/
inductive Ending where
  | done
  | panicked (p : Panic)
  /-- The fuel did not last. -/
  | exhausted
  deriving DecidableEq

/-- Perform tasks, and all that they lead to, until nothing is left to be done. -/
def run (env : Environment σ τ) : Nat → List (Task τ) → Exchange σ → Exchange σ × Ending
  | _, [], e => (e, .done)
  | _, .call (.raise p) :: _, e => (e, .panicked p)
  | 0, _ :: _, e => (e, .exhausted)
  | fuel + 1, t :: tasks, e =>
    match e.perform env t with
    | (e, more) => run env fuel (more ++ tasks) e

/-- Let the far side do what it does while the near side waits, until it waits as well. -/
def settle (env : Environment σ τ) : Nat → Exchange σ → Exchange σ × Ending
  | 0, e => (e, .exhausted)
  | fuel + 1, e =>
    match env.idle e.far with
    | none => (e, .done)
    | some (far, calls) =>
      match run env fuel (calls.map .call) { e with far := far } with
      | (e, .done) => settle env fuel e
      | (e, ending) => (e, ending)

end Exchange
end StreamConformance
