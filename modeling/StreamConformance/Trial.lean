import StreamConformance.Exchange.Basic

/-!
# Trials

A trial is the execution of one test.  Its commands are carried out in order, each to its end
before the next begins.  What the thread of a trial has still to do is a list of `Job`s, and
`turn` does the first of them: it changes the trial and may put further jobs in front, or it
finds that it has to wait, or the command ends in a fault or a panic, which drops the jobs
that are left.

## Blocks

The block of a channel runs on a thread of its own while the trial's thread waits for it, so
its jobs simply come first.  The job `block` stands at the bottom of that thread: a panic that
reaches it does not go on into the trial's thread but makes the command fault.  A thread's
name may not contain NUL, and the attempt to start one with such a name is a panic of the
thread that starts it.
-/

namespace StreamConformance

open Script (Command Instruction)

/-- The panic with which the start of a thread ends if its name contains NUL. -/
def threadNamePanic? (name : String) : Option Panic :=
  let bytes := name.toUTF8.toList
  if bytes.any (· == 0) then
    let position := (bytes.takeWhile (· != 0)).length
    let shown := ", ".intercalate (bytes.map fun b => toString b.toNat)
    some (.text (s!"thread name may not contain interior null bytes: NulError({position}, [" ++
      shown ++ "])"))
  else none

/-- The demand with which the consumer of a channel begins, so that the peer's first item needs
no request. -/
def channelInitialDemand : Nat := 1

/-- What the thread of a trial has to do. -/
inductive Job (τ : Type) where
  | task (t : Task τ)
  | command (c : Command)
  /-- The consumer of an interaction is known by an id from now on. -/
  | register (id : String) (i : Nat)
  /-- An echo channel has been opened. -/
  | echoOpened
  /-- Wait until the peer holds the subscription of the producer, then run the block. -/
  | handshake (i : Nat) (instructions : List Instruction)
  /-- Run what is left of a block, which expects its assertions to hold or not. -/
  | block (i : Nat) (expected : Bool) (instructions : List Instruction)
  | check (i : Nat) (k : Script.Check)
  /-- Enter an assertion that could not be evaluated. -/
  | reject (i : Nat)
  | wait (i : Nat) (w : Consumer.Waiting)
  /-- Wait until a window is over, in milliseconds, since whose beginning nothing should have
  been added to `baseline` events. -/
  | window (i : Nat) (baseline : Nat) (milliseconds : Nat)
  /-- Emit signals to the peer as its demand allows. -/
  | play (i : Nat) (signals : List (Signal Payload))

/-- The execution of one test. -/
structure Trial (σ τ : Type) where
  name : String
  exchange : Exchange σ
  /-- The connections made, in order; they are held until the trial is over. -/
  connections : List Nat := []
  /-- The interactions that ids stand for, the latest first. -/
  ids : List (String × Nat) := []
  /-- The interactions opened by `subscribe`, in order. -/
  registered : List Nat := []
  /-- Whether assertions are expected to hold. -/
  expected : Bool := true
  /-- Whether the blocks met their expectations, in order. -/
  blockResults : List Bool := []
  channelRan : Bool := false
  jobs : List (Job τ) := []

/-- The result of a test. -/
inductive Verdict where
  | pass
  | fail
  /-- Nothing was subscribed to; what counts is whether the blocks met their expectations. -/
  | channel (met : Bool)
  deriving DecidableEq

/-- Why a thread waits. -/
inductive Blocked where
  /-- An attempt to connect goes on. -/
  | dialing
  /-- Something the peer has yet to do. -/
  | peer
  /-- A window that is not over. -/
  | window (i : Nat) (baseline : Nat) (milliseconds : Nat)

namespace Trial

variable {σ τ : Type}

/-- What comes of a turn. -/
inductive Turn (σ τ : Type) where
  | finished
  | next (t : Trial σ τ)
  | blocked (b : Blocked)
  | faulted (f : Fault) (t : Trial σ τ)
  | panicked (p : Panic) (t : Trial σ τ)

/-- The receiver of an interaction. -/
def receiver? (t : Trial σ τ) (i : Nat) : Option Receiver :=
  (t.exchange.interactions[i]?).map (·.receiver)

/-- No assertion about an interaction has failed. -/
def hasPassed (t : Trial σ τ) (i : Nat) : Bool :=
  ((t.receiver? i).map Receiver.hasPassed).getD true

/-- The verdict on the commands executed so far. -/
def verdict (t : Trial σ τ) : Except Fault Verdict :=
  if t.registered.isEmpty then
    if t.channelRan then .ok (.channel (t.blockResults.all id))
    else .error (.noInteraction t.name)
  else if t.registered.all t.hasPassed == t.expected then .ok .pass
  else .ok .fail

/-- The interaction that an id stands for. -/
def lookup? (t : Trial σ τ) (id : String) : Option Nat :=
  (t.ids.find? (·.1 == id)).map Prod.snd

/-- Put jobs in front of those that are left. -/
def push (jobs : List (Job τ)) (t : Trial σ τ) : Trial σ τ :=
  { t with jobs := jobs ++ t.jobs }

/-- Change the receiver of an interaction. -/
def atReceiver (i : Nat) (f : Receiver → Receiver) (t : Trial σ τ) : Trial σ τ :=
  match t.exchange.interactions[i]? with
  | none => t
  | some x => { t with exchange := t.exchange.put i { x with receiver := f x.receiver } }

/-- The events that the consumer of an interaction has seen. -/
def eventsOf (t : Trial σ τ) (i : Nat) : Nat :=
  ((t.receiver? i).map fun r => r.view fun c => c.events).getD 0

/-- What an instruction means for the consumer of an interaction. -/
def consumerJobs (t : Trial σ τ) (i : Nat) : Instruction → List (Job τ)
  | .await _ .terminal => [.wait i .terminal]
  | .await _ (.atLeast n) => [.wait i (.atLeast n)]
  | .await _ (.noEvents ms) => [.window i (t.eventsOf i) ms]
  | .assert _ k => [.check i k]
  | .take n _ => [.task (.own i (.request n)), .wait i (.atLeast n)]
  | .request n _ => [.task (.own i (.request n))]
  | .cancel _ => [.task (.own i .cancel)]
  | _ => []

/-- The consumer that an instruction names. -/
def namedConsumer? : Instruction → Option String
  | .await id _ => some id
  | .assert id _ => some id
  | .take _ id => some id
  | .request _ id => some id
  | .cancel id => some id
  | _ => none

/-- A panic ends the thread in which it arises.  If that is the thread of a block, the command
with the block faults. -/
def panic (p : Panic) (t : Trial σ τ) : Turn σ τ :=
  let isBlock : Job τ → Bool := fun
    | .block .. => true
    | _ => false
  if t.jobs.any isBlock then .faulted (.channelAborted t.name) { t with jobs := [] }
  else .panicked p { t with jobs := [] }

/-- Connect to the peer and go on with the connection and the number of the interaction that
`x` is the near side of. -/
def connect (env : Environment σ τ) (x : Interaction) (jobs : Nat → Nat → List (Job τ))
    (t : Trial σ τ) : Turn σ τ :=
  match env.dial t.exchange.far with
  | none => .blocked .dialing
  | some (far, dialed) =>
    let exchange := { t.exchange with far := far }
    match dialed with
    | .refused fault => .faulted fault { t with exchange := exchange, jobs := [] }
    | .panicked p => panic p { t with exchange := exchange }
    | .connected k =>
      .next <| push (jobs k exchange.interactions.size)
        { t with
          exchange := exchange.enter x
          connections := t.connections ++ [k] }

/-- The near side of a subscription. -/
def subscriber (kind : Script.InteractionKind) (id : String) : Interaction :=
  match kind with
  | .fireAndForget => { receiver := .units { label := id, initialDemand := 0 } }
  | _ => { receiver := .payloads { label := id, initialDemand := 0 } }

/-- The near side of a channel. -/
def channelSide (label : String) (producer : Producer) : Interaction :=
  { receiver := .payloads { label := label, initialDemand := channelInitialDemand }
    producer := producer }

/-- Carry out an instruction outside of blocks. -/
def instruct (env : Environment σ τ) (c : Instruction) (t : Trial σ τ) : Turn σ τ :=
  match c with
  | .subscribe kind id payload =>
    t.connect env (subscriber kind id) fun k i =>
      [.task (.tell (.opened k kind payload i)), .register id i]
  | .echoChannel initial =>
    t.connect env (channelSide (t.name ++ "/echo") (.echo { initial := initial })) fun k i =>
      [.task (.tell (.openedChannel k i)), .echoOpened]
  | .eof =>
    t.connect env (subscriber .fireAndForget "EOF") fun k i =>
      [.task (.tell (.opened k .fireAndForget Payload.shutdown i)), .task (.own i (.request 1))]
  | .pass => .next { t with expected := true }
  | .fail => .next { t with expected := false }
  | .malformed line reason => .faulted (.malformedCommand line reason) { t with jobs := [] }
  | c =>
    match (namedConsumer? c).bind t.lookup? with
    | some i => .next (t.push (t.consumerJobs i c))
    | none => .next t

/-- Carry out a command. -/
def begin (env : Environment σ τ) (c : Command) (t : Trial σ τ) : Turn σ τ :=
  match c with
  | .single instruction => t.instruct env instruction
  | .channel initial instructions =>
    let producer := Producer.scripted { initial := .pending initial }
    t.connect env (channelSide (t.name ++ "/channel") producer) fun k i =>
      [.task (.tell (.openedChannel k i)), .handshake i instructions]

/-- Carry out an instruction of a block; all of them mean the consumer of the channel.  What
is left of the block comes behind it. -/
def instructBlock (i : Nat) (expected : Bool) (c : Instruction) (rest : List Instruction)
    (t : Trial σ τ) : Trial σ τ :=
  match c with
  | .pass => t.push [.block i true rest]
  | .fail => t.push [.block i false rest]
  | .respond signals => t.push [.play i signals, .block i expected rest]
  | .malformed _ _ => t.push [.reject i, .block i expected rest]
  | c => t.push (t.consumerJobs i c ++ [.block i expected rest])

/-- The scripted producer of an interaction. -/
def scripted? (t : Trial σ τ) (i : Nat) : Option ScriptedProducer :=
  t.exchange.scripted? i

/-- Emit the first of some signals. -/
def emitFirst (i : Nat) (s : Signal Payload) (signals : List (Signal Payload))
    (t : Trial σ τ) : Turn σ τ :=
  match t.scripted? i with
  | none => .next t
  | some p =>
    match p.emitter.emit s with
    | .waits => .blocked .peer
    | .refused => .next t
    | .sent emitter =>
      match t.exchange.send i p emitter s with
      | (exchange, tasks) =>
        .next (push (tasks.map .task ++ [.play i signals]) { t with exchange := exchange })

/-- Do a job; `t` holds the jobs behind it. -/
def perform (env : Environment σ τ) (job : Job τ) (t : Trial σ τ) : Turn σ τ :=
  match job with
  | .task (.call (.raise p)) => t.panic p
  | .task task =>
    match t.exchange.perform env task with
    | (exchange, tasks) => .next (push (tasks.map .task) { t with exchange := exchange })
  | .command c => t.begin env c
  | .register id i =>
    .next { t with registered := t.registered ++ [i], ids := (id, i) :: t.ids }
  | .echoOpened => .next { t with channelRan := true }
  | .handshake i instructions =>
    if ((t.scripted? i).map fun p => p.gate.isFired).getD true then
      match threadNamePanic? ("channel-" ++ t.name) with
      | some p => t.panic p
      | none => .next (t.push [.block i t.expected instructions])
    else .blocked .peer
  | .block i expected [] =>
    .next
      { t with
        blockResults := t.blockResults ++ [t.hasPassed i == expected]
        channelRan := true }
  | .block i expected (c :: rest) => .next (t.instructBlock i expected c rest)
  | .check i k => .next (t.atReceiver i fun r => (r.check k).1)
  | .reject i => .next (t.atReceiver i fun r => r.modify (Consumer.record false))
  | .wait i w =>
    if ((t.receiver? i).bind fun r => r.view (Consumer.answer? w)).isSome then .next t
    else .blocked .peer
  | .window i baseline milliseconds => .blocked (.window i baseline milliseconds)
  | .play _ [] => .next t
  | .play i (s :: signals) => t.emitFirst i s signals

/-- Do the first job. -/
def turn (env : Environment σ τ) (t : Trial σ τ) : Turn σ τ :=
  match t.jobs with
  | [] => .finished
  | job :: jobs => perform env job { t with jobs := jobs }

/-- The window that the trial waits for is over. -/
def closeWindow (t : Trial σ τ) : Trial σ τ :=
  match t.jobs with
  | .window i baseline _ :: jobs =>
    { t with jobs := jobs }.atReceiver i fun r =>
      r.modify fun c => c.record (c.isQuietSince baseline)
  | _ => t

/-- The far side makes calls while the trial waits. -/
def interrupt (far : σ) (calls : List (Call τ)) (t : Trial σ τ) : Trial σ τ :=
  push (calls.map fun c => .task (.call c)) { t with exchange := { t.exchange with far := far } }

/-- How a run of jobs ends. -/
inductive Ending where
  | done
  | faulted (f : Fault)
  | panicked (p : Panic)
  /-- Both sides wait for each other. -/
  | stuck
  /-- The fuel did not last. -/
  | exhausted
  deriving DecidableEq

/-- Do jobs until none is left.  When the trial has to wait, the far side has its turn; when
that waits as well, a window is over. -/
def run (env : Environment σ τ) : Nat → Trial σ τ → Trial σ τ × Ending
  | 0, t => (t, .exhausted)
  | fuel + 1, t =>
    match t.turn env with
    | .finished => (t, .done)
    | .next t => run env fuel t
    | .faulted f t => (t, .faulted f)
    | .panicked p t => (t, .panicked p)
    | .blocked b =>
      match env.idle t.exchange.far, b with
      | some (far, calls), _ => run env fuel (t.interrupt far calls)
      | none, .window .. => run env fuel t.closeWindow
      | none, _ => (t, .stuck)

/-- Carry out one command to its end. -/
def execute (env : Environment σ τ) (fuel : Nat) (c : Command) (t : Trial σ τ) :
    Trial σ τ × Ending :=
  run env fuel { t with jobs := [.command c] }

/-- Carry out commands in order, up to the first that does not end well. -/
def executeAll (env : Environment σ τ) (fuel : Nat) :
    List Command → Trial σ τ → Trial σ τ × Ending
  | [], t => (t, .done)
  | c :: commands, t =>
    match t.execute env fuel c with
    | (t, .done) => executeAll env fuel commands t
    | (t, ending) => (t, ending)

/-- Give up the connections, in the order in which they were made. -/
def release (env : Environment σ τ) (fuel : Nat) (t : Trial σ τ) : Exchange σ :=
  (t.exchange.run env fuel (t.connections.map fun k => .tell (.released k))).1

end Trial
end StreamConformance
