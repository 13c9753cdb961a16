import StreamConformance.Proofs.Channel.Line
import StreamConformance.Proofs.Client.Calls
import StreamConformance.Proofs.Consumer.Runs
import StreamConformance.Proofs.Responder.Streams

/-!
# A line with one request

An inquiry is a line to the reference responder on which one request is made.  Four parties work on
it in any order: the owner of the consumer, who subscribes once and asks for items before that and
after it; somebody who cancels; the reader of the client, which dispatches the replies; and the
responder, which handles the client's frames.  The calls of the owner come one after another, but
everybody else may get on in between the sections of a call.

* `Inquiry.environment`, `Inquiry.rules`, `Inquiry.start`: an inquiry as a crew.
* `Inquiry.consumer?`, `Inquiry.values`, `Inquiry.terminal`, `Inquiry.asked`, `Inquiry.isCanceled`:
  what there is to be seen of it.
* `Inquiry.isSound_of_step`, `Inquiry.asked_of_step`: what a step keeps of that.
* `Inquiry.IsOver.step`: once its stream has ended, nothing changes for the consumer.
-/

namespace StreamConformance

namespace Inquiry

open Client (Connection Step Stream)
open Wire (Frame)

/-- The threads at a line with one request. -/
inductive Party where
  | owner
  | canceler
  | reader
  | responder
  deriving DecidableEq

/-- Whether an event makes a connection write a frame that cannot be written. -/
def fails (e : Event Step) (c : Connection) : Bool :=
  match c.attempt? e with
  | some a => a.fault.isSome
  | none => false

/-- How a line reacts to the client. -/
def react (e : Event Step) (l : Line) : Line × List (Call Step) :=
  ({ l with connection := (l.connection.react e).1, failed := l.failed || fails e l.connection },
    (l.connection.react e).2)

/-- The line as a far side. -/
def environment : Environment Line Step where
  dial _ := none
  react := react
  idle _ := none

/-- What a party may do next if it has nothing left to do. -/
inductive Starts (kind : Script.InteractionKind) (p : Payload) (e : Exchange Line) :
    Party → Exchange Line → List (Task Step) → Prop where
  /-- The consumer subscribes, for the first time. -/
  | subscribe (h : e.far.connection.streams = #[]) :
      Starts kind p e .owner e [.tell (.opened 0 kind p 0)]
  | ask (n : Nat) : Starts kind p e .owner e [.own 0 (.request n)]
  | cancel : Starts kind p e .canceler e [.own 0 .cancel]
  /-- The reader takes a frame. -/
  | take {f : Frame} {fs : List Frame} (h : e.far.incoming = f :: fs) :
      Starts kind p e .reader { e with far := { e.far with read := e.far.read + 1 } }
        [.call (.resume (.receive f))]
  /-- The responder takes a frame and handles it. -/
  | handle {f : Frame} {fs : List Frame} (h : e.far.outgoing = f :: fs) :
      Starts kind p e .responder { e with far := e.far.handle f } []

/-- What the parties may do. -/
def rules (kind : Script.InteractionKind) (p : Payload) : Crew.Rules Party Line Step where
  starts k e := Starts kind p e k
  keeps := by
    rintro k e e' ts (h | n | - | h | h) i x hx <;> exact hx
  outer := by
    rintro k e e' ts (h | n | - | h | h) t ht
    · rw [List.mem_singleton.mp ht]
      rfl
    · rw [List.mem_singleton.mp ht]
      rfl
    · rw [List.mem_singleton.mp ht]
      rfl
    · rw [List.mem_singleton.mp ht]
      rfl
    · cases ht
  emits _ _ _ := False

/-- A consumer on the near side of a line. -/
def exchange (consumer : Consumer Payload Handle Target) (line : Line) : Exchange Line where
  far := line
  interactions := #[{ receiver := .payloads consumer }]

/-- There is a consumer that begins with a demand of `n0`, and nobody has done anything. -/
def start (label : String) (n0 : Nat) : Crew Party Line Step where
  exchange := exchange { label := label, initialDemand := n0 } {}

variable {kind : Script.InteractionKind} {p : Payload} {c d : Crew Party Line Step}

/-! ## Schedules -/

/-- What may be next on a schedule. -/
inductive Turn where
  | subscribe
  | ask (n : Nat)
  | cancel
  | take
  | handle
  /-- Somebody goes on with what is to be done. -/
  | goOn (k : Party)

/-- Do what is next on a schedule, if it can be done. -/
def advance (kind : Script.InteractionKind) (p : Payload) (c : Crew Party Line Step) :
    Turn → Crew Party Line Step
  | .subscribe =>
    match c.stack .owner, c.exchange.far.connection.streams with
    | [], ⟨[]⟩ => c.turn .owner [.tell (.opened 0 kind p 0)] c.exchange
    | _, _ => c
  | .ask n =>
    match c.stack .owner with
    | [] => c.turn .owner [.own 0 (.request n)] c.exchange
    | _ => c
  | .cancel =>
    match c.stack .canceler with
    | [] => c.turn .canceler [.own 0 .cancel] c.exchange
    | _ => c
  | .take =>
    match c.stack .reader, c.exchange.far.incoming with
    | [], f :: _ =>
      c.turn .reader [.call (.resume (.receive f))]
        { c.exchange with far := { c.exchange.far with read := c.exchange.far.read + 1 } }
    | _, _ => c
  | .handle =>
    match c.stack .responder, c.exchange.far.outgoing with
    | [], f :: _ => c.turn .responder [] { c.exchange with far := c.exchange.far.handle f }
    | _, _ => c
  | .goOn k => c.next environment k

/-- Keep to a schedule. -/
def play (kind : Script.InteractionKind) (p : Payload) (schedule : List Turn)
    (c : Crew Party Line Step) : Crew Party Line Step :=
  schedule.foldl (advance kind p) c

theorem reach_advance (c : Crew Party Line Step) (t : Turn) :
    Crew.Reach environment (rules kind p) c (advance kind p c t) := by
  unfold advance
  split
  · split
    · exact .single (.start ‹_› (.subscribe ‹_›))
    · exact .refl
  · split
    · exact .single (.start ‹_› (.ask _))
    · exact .refl
  · split
    · exact .single (.start ‹_› .cancel)
    · exact .refl
  · split
    · exact .single (.start ‹_› (.take ‹_›))
    · exact .refl
  · split
    · exact .single (.start ‹_› (.handle ‹_›))
    · exact .refl
  · exact Crew.reach_next ..

theorem reach_play (schedule : List Turn) (c : Crew Party Line Step) :
    Crew.Reach environment (rules kind p) c (play kind p schedule c) := by
  induction schedule generalizing c with
  | nil => exact .refl
  | cons t schedule ih => exact (reach_advance c t).trans (ih (advance kind p c t))

/-! ## What there is to be seen -/

/-- The consumer. -/
def consumer? (c : Crew Party Line Step) : Option (Consumer Payload Handle Target) :=
  match (c.exchange.interactions[0]? : Option Interaction) with
  | some { receiver := .payloads consumer, .. } => some consumer
  | _ => none

/-- The items that the consumer holds. -/
def values (c : Crew Party Line Step) : List Payload :=
  (consumer? c).elim [] Consumer.values

/-- How the stream of the consumer has ended, if it has. -/
def terminal (c : Crew Party Line Step) : Option Terminal :=
  (consumer? c).bind Consumer.terminal

/-- What is to be seen of a consumer. -/
theorem seen_of_consumer? {consumer : Consumer Payload Handle Target}
    (h : consumer? c = some consumer) : terminal c = consumer.terminal ∧
      values c = consumer.values := by
  rw [terminal, values, h]
  exact ⟨rfl, rfl⟩

/-- How much the owner of a consumer asks for by some tasks. -/
def askedIn (ts : List (Task Step)) : Nat :=
  (ts.map Line.requested).sum

/-- How much the owner of the consumer has asked for, besides the initial demand. -/
def asked (c : Crew Party Line Step) : Nat :=
  askedIn c.done

/-- Somebody cancels by a task. -/
def cancels : Task Step → Bool
  | .own 0 .cancel => true
  | _ => false

/-- Somebody has canceled. -/
def isCanceled (c : Crew Party Line Step) : Bool :=
  c.done.any cancels

/-- The consumer has subscribed. -/
def HasSubscribed (c : Crew Party Line Step) : Prop :=
  c.exchange.far.connection.streams ≠ #[]

/-- Nobody is in the middle of something, and nothing is on its way. -/
structure IsSettled (c : Crew Party Line Step) : Prop where
  owner : c.stack .owner = []
  reader : c.stack .reader = []
  outgoing : c.exchange.far.outgoing = []
  incoming : c.exchange.far.incoming = []

@[simp] theorem askedIn_append (ts us : List (Task Step)) :
    askedIn (ts ++ us) = askedIn ts + askedIn us := by
  simp [askedIn]

@[simp] theorem askedIn_singleton (t : Task Step) : askedIn [t] = Line.requested t := by
  simp [askedIn]

/-! ## What a step keeps -/

/-- A line that is sound was sound before. -/
theorem isSound_of_step (h : Crew.Step environment (rules kind p) c d)
    (hd : d.exchange.far.IsSound) : c.exchange.far.IsSound := by
  cases h with
  | @work k t rest hk ht =>
    have hfar := Exchange.far_perform environment t c.exchange
    have hd' : (c.exchange.perform environment t).1.far.IsSound := hd
    rw [hfar] at hd'
    cases t with
    | tell e => exact ⟨(Bool.or_eq_false_iff.mp hd'.1).1, hd'.2⟩
    | call | own | settle | passOn | openGate | push | drain | drainNext => exact hd'
  | panic hk => exact hd
  | start hk hstart =>
    cases hstart with
    | subscribe | ask | cancel | take => exact hd
    | handle hf => exact ⟨hd.1, Responder.Conversation.ended_of_receive hd.2⟩
  | emit hk hemit => exact hemit.elim

/-- What was asked for and what was canceled stays so. -/
theorem asked_of_step (h : Crew.Step environment (rules kind p) c d) :
    asked c ≤ asked d ∧ (isCanceled c = true → isCanceled d = true) := by
  obtain ⟨ts, hts⟩ := Crew.isPrefix_done h
  rw [asked, asked, isCanceled, isCanceled, ← hts]
  constructor
  · rw [askedIn_append]
    exact Nat.le_add_right ..
  · intro hc
    rw [List.any_append, hc, Bool.true_or]

/-- A consumer that has subscribed has done so for good. -/
theorem hasSubscribed_of_step (h : Crew.Step environment (rules kind p) c d)
    (hc : HasSubscribed c) : HasSubscribed d := by
  have hlabels (l : Connection) : l.streams = #[] ↔ l.labels = [] := by
    simp [Connection.labels]
  cases h with
  | @work k t rest hk ht =>
    show (c.exchange.perform environment t).1.far.connection.streams ≠ #[]
    rw [Exchange.far_perform]
    cases t with
    | tell e =>
      intro hnone
      have hnone : (c.exchange.far.connection.react e).1.streams = #[] := hnone
      have hreact := Connection.labels_react e c.exchange.far.connection
      rw [(hlabels _).mp hnone] at hreact
      exact hc ((hlabels _).mpr (List.append_eq_nil_iff.mp hreact.symm).1)
    | call | own | settle | passOn | openGate | push | drain | drainNext => exact hc
  | panic hk => exact hc
  | start hk hstart => cases hstart <;> exact hc
  | emit hk hemit => exact hemit.elim

/-! ## The end of a stream -/

/-- A task by which a consumer is offered a subscription, or which leads to that. -/
def offers : Task Step → Bool
  | .call (.subscribed ..) => true
  | .tell (.opened ..) => true
  | .tell (.openedChannel ..) => true
  | _ => false

/-- What does not offer a subscription does not lead to that either. -/
theorem offers_of_mem {e : Exchange Line} {t t' : Task Step}
    (h : t' ∈ (e.perform environment t).2) (ht' : offers t' = true) : offers t = true := by
  cases Exchange.Origin.of_mem h with
  | @call event call hcall =>
    have hcall : call ∈ (e.far.connection.react event).2 := hcall
    cases Connection.makes_of_mem hcall with
    | subscribed hlabel =>
      cases event with
      | opened | openedChannel => rfl
      | _ => cases hlabel
    | _ => cases ht'
  | _ => cases ht'

/-- Nobody offers a subscription any more. -/
structure IsUnoffered (c : Crew Party Line Step) : Prop where
  hasSubscribed : HasSubscribed c
  offers : ∀ k, ∀ t ∈ c.stack k, offers t = false

theorem IsUnoffered.step (hc : IsUnoffered c) (h : Crew.Step environment (rules kind p) c d) :
    IsUnoffered d := by
  have hsubscribed := hasSubscribed_of_step h hc.hasSubscribed
  -- Only what comes anew on a stack matters.
  have hnew {k : Party} {ts : List (Task Step)} (hd : d.stack = Function.update c.stack k ts)
      (hts : ∀ t ∈ ts, Inquiry.offers t = false) : IsUnoffered d := by
    refine ⟨hsubscribed, fun k' t ht => ?_⟩
    rw [hd] at ht
    by_cases hk : k' = k
    · subst hk
      rw [Function.update_self] at ht
      exact hts t ht
    · rw [Function.update_of_ne hk] at ht
      exact hc.offers k' t ht
  cases h with
  | @work k t rest hk ht =>
    refine hnew rfl fun t' ht' => ?_
    have hoffers := hc.offers k
    rw [hk] at hoffers
    rcases List.mem_append.mp ht' with ht' | ht'
    · by_contra hoffer
      have hoffer' := offers_of_mem ht' (eq_true_of_ne_false hoffer)
      rw [hoffers t List.mem_cons_self] at hoffer'
      cases hoffer'
    · exact hoffers t' (List.mem_cons_of_mem t ht')
  | panic hk => exact hnew rfl fun t ht => by cases ht
  | start hk hstart =>
    refine hnew rfl fun t ht => ?_
    cases hstart with
    | subscribe hnone => exact absurd hnone hc.hasSubscribed
    | ask | cancel | take =>
      rw [List.mem_singleton.mp ht]
      rfl
    | handle => cases ht
  | emit hk hemit => exact hemit.elim

/-- The stream of the consumer has ended, and either it takes no subscription or nobody offers one
to it any more. -/
structure IsOver (consumer : Consumer Payload Handle Target) (c : Crew Party Line Step) : Prop where
  exchange : ∃ line, c.exchange = Inquiry.exchange consumer line
  terminal : consumer.terminal ≠ none
  unoffered : consumer.terminal = some .canceled ∨ IsUnoffered c

section IsOver

variable {consumer : Consumer Payload Handle Target}

/-- A consumer whose stream has ended ignores what its owner asks for. -/
theorem demand_of_ended (hterm : consumer.terminal ≠ none) (a : Ask) :
    consumer.demand a = (consumer, {}) := by
  have hended : consumer.isTerminated = true := Consumer.isTerminated_eq_true.mpr hterm
  cases a <;> simp [Consumer.demand, Consumer.request, Consumer.cancel, hended]

/-- A consumer whose stream has ended ignores its producer. -/
theorem deliver_of_ended (hterm : consumer.terminal ≠ none) (s : Signal Payload) :
    consumer.deliver s = (consumer, {}) := by
  have hended : consumer.isTerminated = true := Consumer.isTerminated_eq_true.mpr hterm
  cases s <;> simp [Consumer.deliver, Consumer.next, Consumer.terminate, hended]

/-- A consumer that has canceled takes no subscription. -/
theorem subscribed_of_canceled (hterm : consumer.terminal = some .canceled) (h : Handle) :
    (consumer.subscribed h).1 = consumer := by
  simp [Consumer.subscribed, Consumer.isCanceled, hterm]

/-- A consumer whose stream has ended stays as it is, unless it is offered a subscription. -/
theorem exists_perform (hterm : consumer.terminal ≠ none) {t : Task Step}
    (ht : consumer.terminal = some .canceled ∨ offers t = false) (line : Line) :
    ∃ line', ((exchange consumer line).perform environment t).1 = exchange consumer line' := by
  cases t with
  | tell e => exact ⟨_, rfl⟩
  | own i a =>
    refine ⟨line, ?_⟩
    cases i with
    | zero =>
      show exchange (consumer.demand a).1 line = _
      rw [demand_of_ended hterm]
    | succ i => rfl
  | call call =>
    refine ⟨line, ?_⟩
    cases call with
    | subscribed i h =>
      cases i with
      | zero =>
        rcases ht with ht | ht
        · show exchange (consumer.subscribed h).1 line = _
          rw [subscribed_of_canceled ht]
        · cases ht
      | succ i => rfl
    | signal i s =>
      cases i with
      | zero =>
        show exchange (consumer.deliver s).1 line = _
        rw [deliver_of_ended hterm]
      | succ i => rfl
    | attach i | ask i => cases i <;> rfl
    | resume | raise => rfl
  | settle i | passOn i | openGate i | push i | drain i | drainNext i =>
    exact ⟨line, by cases i <;> rfl⟩

/-- **Once its stream has ended, nothing changes for the consumer.** -/
theorem IsOver.step (hc : IsOver consumer c) (h : Crew.Step environment (rules kind p) c d) :
    IsOver consumer d := by
  refine ⟨?_, hc.terminal, hc.unoffered.imp id fun hc => hc.step h⟩
  obtain ⟨line, hline⟩ := hc.exchange
  cases h with
  | @work k t rest hk ht =>
    have hoffers : consumer.terminal = some .canceled ∨ offers t = false :=
      hc.unoffered.imp id fun hc => hc.offers k t (by rw [hk]; exact List.mem_cons_self)
    rw [Crew.exchange_work, hline]
    exact exists_perform hc.terminal hoffers line
  | panic hk => exact ⟨line, hline⟩
  | start hk hstart =>
    cases hstart with
    | subscribe | ask | cancel => exact ⟨line, hline⟩
    | take | handle =>
      rw [Crew.exchange_turn, hline]
      exact ⟨_, rfl⟩
  | emit hk hemit => exact hemit.elim

end IsOver

end Inquiry
end StreamConformance
