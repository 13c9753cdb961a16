import StreamConformance.Proofs.Inquiry.Answers
import StreamConformance.Proofs.Inquiry.Line
import StreamConformance.Proofs.Receivers

/-!
# The stages of an inquiry

An inquiry passes through three stages.

* Before the consumer holds its subscription (`Unopened`), demand waits at the consumer, and nothing
  has been written.
* After that (`Opened`), the demand is with the request or in the hand of the owner; what the client
  has written is the tape of the request, the replies are the answers to what has arrived of it, and
  the consumer holds the items among the replies that were dispatched.
* Once the stream of the consumer has ended (`HasEnded`), or somebody has canceled it, nothing that
  happens on the line matters to the consumer any more.

For each of the first two there is a view of the line, from which all of it can be read, and an
invariant.  `Stage` says that an inquiry is at one of the three.
-/

namespace StreamConformance
namespace Inquiry

open Client (Connection Step RequestPhase)
open Line (stream peer)
open Responder (Conversation)
open Wire (Frame)

variable {kind : Script.InteractionKind} {p : Payload} {n0 : Nat}

/-! ## The end -/

/-- How a stream may end for a consumer that holds the items `vs`. -/
inductive Ends (kind : Script.InteractionKind) (p : Payload) (demand : Nat) (canceled : Bool)
    (vs : List Payload) : Terminal → Prop where
  | completed {k : Nat} (hp : p.asksForError = false) (hk : itemLimit kind = some k)
      (hle : k ≤ demand) (hvs : vs = List.replicate k p) : Ends kind p demand canceled vs .completed
  | errored (hp : p.asksForError = true) (hd : demand ≠ 0) (hvs : vs = []) :
      Ends kind p demand canceled vs (.errored p.requestedError)
  | canceled (hc : canceled = true) (hvs : vs <+: itemsOf kind p demand) :
      Ends kind p demand canceled vs .canceled

theorem itemsFor_le (kind : Script.InteractionKind) {demand demand' : Nat} (h : demand ≤ demand') :
    itemsFor kind demand ≤ itemsFor kind demand' := by
  unfold itemsFor
  split <;> omega

theorem itemsOf_isPrefix {demand demand' : Nat} (h : demand ≤ demand') :
    itemsOf kind p demand <+: itemsOf kind p demand' := by
  unfold itemsOf
  split
  · exact List.prefix_refl _
  · rw [← Nat.add_sub_cancel' (itemsFor_le kind h), ← List.replicate_append_replicate]
    exact List.prefix_append ..

/-- The items of a stream that ends are all there are. -/
theorem itemsOf_of_le {demand k : Nat} (hp : p.asksForError = false) (hk : itemLimit kind = some k)
    (hle : k ≤ demand) : itemsOf kind p demand = List.replicate k p := by
  rw [itemsOf, hp, if_neg Bool.false_ne_true, itemsFor, hk]
  exact congrArg (List.replicate · p) (Nat.min_eq_left hle)

/-- A consumer whose stream has ended holds no more than its demand is answered by. -/
theorem Ends.isPrefix {demand : Nat} {canceled : Bool} {vs : List Payload} {t : Terminal}
    (h : Ends kind p demand canceled vs t) : vs <+: itemsOf kind p demand := by
  cases h with
  | completed hp hk hle hvs =>
    rw [hvs, itemsOf_of_le hp hk hle]
  | errored hp hd hvs =>
    rw [hvs]
    exact List.nil_prefix
  | canceled hc hvs => exact hvs

/-- More demand makes no difference, nor does another cancellation. -/
theorem Ends.mono {demand demand' : Nat} {canceled canceled' : Bool} {vs : List Payload}
    {t : Terminal} (h : Ends kind p demand canceled vs t) (hle : demand ≤ demand')
    (hc : canceled = true → canceled' = true) : Ends kind p demand' canceled' vs t := by
  cases h with
  | completed hp hk hle' hvs => exact .completed hp hk (hle'.trans hle) hvs
  | errored hp hd hvs => exact .errored hp (by omega) hvs
  | canceled hcancel hvs => exact .canceled (hc hcancel) (hvs.trans (itemsOf_isPrefix hle))

/-- The last of the answers is the end that it should be. -/
theorem ends_of_ending? {s : Signal Payload} {d demand : Nat} (canceled : Bool)
    (h : ending? kind p d = some (frameOf s)) (hle : d ≤ demand) :
    ∃ t, s.ending? = some t ∧ Ends kind p demand canceled (itemsOf kind p d) t := by
  unfold ending? at h
  split at h
  · rename_i hp
    split at h
    · cases h
    · cases s with
      | error message =>
        cases h
        exact ⟨_, rfl, .errored hp (by omega) (if_pos hp)⟩
      | next | complete => cases h
  · rename_i hp
    split at h
    · rename_i k hk
      split at h
      · cases s with
        | complete =>
          have hp' := eq_false_of_ne_true hp
          exact ⟨_, rfl, .completed hp' hk (by omega) (itemsOf_of_le hp' hk ‹_›)⟩
        | next | error => cases h
      · cases h
    · cases h

/-- The stream of the consumer has ended as it should. -/
def HasEnded (kind : Script.InteractionKind) (p : Payload) (n0 : Nat)
    (c : Crew Party Line Step) : Prop :=
  ∃ consumer t, IsOver consumer c ∧ consumer.terminal = some t ∧
    Ends kind p (n0 + asked c) (isCanceled c) consumer.values t

/-- **An end is final.** -/
theorem HasEnded.step {c d : Crew Party Line Step} (h : HasEnded kind p n0 c)
    (hstep : Crew.Step environment (rules kind p) c d) : HasEnded kind p n0 d := by
  obtain ⟨consumer, t, hover, hterm, hends⟩ := h
  obtain ⟨hasked, hcanceled⟩ := asked_of_step hstep
  exact ⟨consumer, t, hover.step hstep, hterm, hends.mono (by omega) hcanceled⟩

/-! ## The connection -/

/-- The client's end of the line, once the consumer has subscribed. -/
def connection (kind : Script.InteractionKind) (phase : RequestPhase) (known : Bool)
    (written : List Frame) : Connection where
  nextStream := 3
  streams := #[{
    id := stream
    interaction := 0
    side := .request { kind := kind, phase := phase } }]
  routes := { entries := if known then [(stream, { inbound := some 0 })] else [] }
  written := written

/-- What the canceler has in hand. -/
def cancelTasks (canceling : Bool) : List (Task Step) :=
  if canceling then [.own 0 .cancel] else []

theorem offers_cancelTasks (canceling : Bool) : ∀ t ∈ cancelTasks canceling, offers t = false := by
  cases canceling <;> simp [cancelTasks, offers]

/-! ## Before the subscription -/

/-- How far the owner has come with the subscription. -/
inductive Approach where
  | free
  /-- It asks the consumer for `n` items. -/
  | asking (n : Nat)
  | subscribing
  /-- The stream is to be entered into the route table. -/
  | registering
  | registered
  /-- The subscription is to be handed to the consumer. -/
  | handing

/-- What the owner has in hand. -/
def Approach.tasks (kind : Script.InteractionKind) (p : Payload) : Approach → List (Task Step)
  | .free => []
  | .asking n => [.own 0 (.request n)]
  | .subscribing => [.tell (.opened 0 kind p 0)]
  | .registering => [.call (.resume (.register 0)), .call (.subscribed 0 peer)]
  | .registered => [.tell (.resumed (.register 0)), .call (.subscribed 0 peer)]
  | .handing => [.call (.subscribed 0 peer)]

/-- The client's end of the line. -/
def Approach.connection (kind : Script.InteractionKind) (p : Payload) : Approach → Connection
  | .free | .asking _ | .subscribing => {}
  | .registering | .registered => Inquiry.connection kind (.unsent p) false []
  | .handing => Inquiry.connection kind (.unsent p) true []

/-- An inquiry whose consumer does not hold its subscription yet. -/
structure Unopened where
  consumer : Consumer Payload Handle Target
  approach : Approach := .free
  canceling : Bool := false
  done : List (Task Step) := []

/-- The parties at the line. -/
def Unopened.crew (kind : Script.InteractionKind) (p : Payload) (v : Unopened) :
    Crew Party Line Step where
  exchange := exchange v.consumer { connection := v.approach.connection kind p }
  stack
    | .owner => v.approach.tasks kind p
    | .canceler => cancelTasks v.canceling
    | .reader => []
    | .responder => []
  done := v.done

/-- The invariant of an inquiry whose consumer does not hold its subscription yet. -/
structure Unopened.IsConsistent (n0 : Nat) (v : Unopened) : Prop where
  terminal : v.consumer.terminal = none
  forward : v.consumer.forward = none
  subscription : v.consumer.subscription = none
  values : v.consumer.values = []
  /-- The demand waits at the consumer. -/
  demand : v.consumer.initialDemand + v.consumer.pending = n0 + askedIn v.done
  canceled : v.done.any cancels = false

/-! ## With the subscription -/

/-- What the owner has in hand. -/
inductive Hand where
  | free
  /-- It asks the consumer for `n` items. -/
  | asking (n : Nat)
  /-- The consumer asks the request for `n` items. -/
  | granting (n : Nat)
  /-- The request has decided on a frame. -/
  | sending (f : Frame)
  | writing (f : Frame)

def Hand.tasks : Hand → List (Task Step)
  | .free => []
  | .asking n => [.own 0 (.request n)]
  | .granting n => [.tell (.asked peer (.request n))]
  | .sending f => [.call (.resume (.write f))]
  | .writing f => [.tell (.resumed (.write f))]

theorem Hand.offers_tasks (h : Hand) : ∀ t ∈ h.tasks, offers t = false := by
  cases h <;> simp [tasks, offers]

/-- The demand that is on its way to the request. -/
def Hand.demand : Hand → Nat
  | .granting n => n
  | _ => 0

/-- The frame that is on its way to the line. -/
def Hand.frames : Hand → List Frame
  | .sending f => [f]
  | .writing f => [f]
  | _ => []

/-- What the owner has in hand when its consumer wants `n` items. -/
def Hand.ofDemand (n : Nat) : Hand :=
  if n = 0 then .free else .granting n

@[simp] theorem Hand.demand_ofDemand (n : Nat) : (ofDemand n).demand = n := by
  unfold ofDemand
  split
  · exact Eq.symm ‹_›
  · rfl

@[simp] theorem Hand.frames_ofDemand (n : Nat) : (ofDemand n).frames = [] := by
  unfold ofDemand
  split <;> rfl

theorem Hand.pos_of_ofDemand {n m : Nat} (h : ofDemand n = .granting m) : 0 < m := by
  unfold ofDemand at h
  split at h <;> cases h
  exact Nat.pos_of_ne_zero ‹_›

/-- What a consumer asks of its subscription is what the owner has in hand then. -/
theorem Hand.tasks_ofDemand (n : Nat) :
    Exchange.effectTasks 0
        (.ofPayloads { ask := if n = 0 then none else some (peer, .request n) }) =
      (ofDemand n).tasks := by
  unfold ofDemand
  split <;> rfl

/-- What the reader has in hand. -/
inductive Reading where
  | free
  /-- A frame that it has taken. -/
  | taken (f : Frame)
  | handed (f : Frame)
  /-- A signal for the consumer. -/
  | delivering (s : Signal Payload)

def Reading.tasks : Reading → List (Task Step)
  | .free => []
  | .taken f => [.call (.resume (.receive f))]
  | .handed f => [.tell (.resumed (.receive f))]
  | .delivering (.error message) =>
    [.call (.signal 0 (.error message)), .call (.resume (.detachLink stream))]
  | .delivering s => [.call (.signal 0 s)]

theorem Reading.offers_tasks (r : Reading) : ∀ t ∈ r.tasks, offers t = false := by
  cases r with
  | delivering s => cases s <;> simp [tasks, offers]
  | free | taken | handed => simp [tasks, offers]

/-- Where the request stands that was asked for some demands. -/
def phase (p : Payload) : List Nat → RequestPhase
  | [] => .unsent p
  | _ :: _ => .sent

/-- An inquiry whose consumer holds its subscription. -/
structure Opened where
  consumer : Consumer Payload Handle Target
  /-- What the request was asked for. -/
  grants : List Nat := []
  /-- The route table knows the consumer. -/
  known : Bool := true
  written : List Frame := []
  conversation : Conversation := {}
  handled : Nat := 0
  replied : List Frame := []
  read : Nat := 0
  hand : Hand := .free
  reading : Reading := .free
  canceling : Bool := false
  done : List (Task Step)

namespace Opened

/-- The line itself. -/
def line (kind : Script.InteractionKind) (p : Payload) (v : Opened) : Line where
  connection := connection kind (phase p v.grants) v.known v.written
  conversation := v.conversation
  handled := v.handled
  replied := v.replied
  read := v.read

/-- The parties at the line. -/
def crew (kind : Script.InteractionKind) (p : Payload) (v : Opened) : Crew Party Line Step where
  exchange := exchange v.consumer (v.line kind p)
  stack
    | .owner => v.hand.tasks
    | .canceler => cancelTasks v.canceling
    | .reader => v.reading.tasks
    | .responder => []
  done := v.done

/-- How far the reader has got with the frames that it has taken: the consumer holds the items `vs`,
and the route table knows it until its stream is to end. -/
inductive Reads (vs : List Payload) : Bool → List Frame → Reading → Prop where
  | free : Reads vs true (vs.map (.next stream)) .free
  | taken (f : Frame) : Reads vs true (vs.map (.next stream) ++ [f]) (.taken f)
  | handed (f : Frame) : Reads vs true (vs.map (.next stream) ++ [f]) (.handed f)
  | delivering (s : Signal Payload) :
      Reads vs (!s.isTerminal) (vs.map (.next stream) ++ [frameOf s]) (.delivering s)

/-- The invariant of an inquiry whose consumer holds its subscription. -/
structure IsConsistent (kind : Script.InteractionKind) (p : Payload) (n0 : Nat) (v : Opened) :
    Prop where
  terminal : v.consumer.terminal = none
  forward : v.consumer.forward = none
  subscription : v.consumer.subscription = some peer
  canceled : v.done.any cancels = false
  /-- All demand is with the request, or on its way to it. -/
  demand : v.hand.demand + v.grants.sum = n0 + askedIn v.done
  granting : ∀ n, v.hand = .granting n → 0 < n
  grants : ∀ n ∈ v.grants, 0 < n
  /-- What was written, and what is on its way to the line, is the tape of the request. -/
  written : v.written ++ v.hand.frames = tape kind p v.grants
  handled_le : v.handled ≤ v.written.length
  conversation : ({} : Conversation).receiveAll (v.written.take v.handled) =
    (v.conversation, v.replied)
  ended : v.conversation.ended = none
  read_le : v.read ≤ v.replied.length
  reads : Reads v.consumer.values v.known (v.replied.take v.read) v.reading

end Opened

/-- An inquiry is at one of its stages. -/
inductive Stage (kind : Script.InteractionKind) (p : Payload) (n0 : Nat) :
    Crew Party Line Step → Prop where
  | unopened {v : Unopened} (h : v.IsConsistent n0) : Stage kind p n0 (v.crew kind p)
  | opened {v : Opened} (h : v.IsConsistent kind p n0) : Stage kind p n0 (v.crew kind p)
  | ended {c : Crew Party Line Step} (h : HasEnded kind p n0 c) : Stage kind p n0 c

variable {c : Crew Party Line Step} {consumer : Consumer Payload Handle Target} {line : Line}

/-! ## What tasks come to -/

theorem perform_tell (e : Event Step) (consumer : Consumer Payload Handle Target) (line : Line) :
    (exchange consumer line).perform environment (.tell e) =
      (exchange consumer (react e line).1, (react e line).2.map Task.call) :=
  rfl

theorem perform_own (a : Ask) (consumer : Consumer Payload Handle Target) (line : Line) :
    (exchange consumer line).perform environment (.own 0 a) =
      (exchange (consumer.demand a).1 line,
        Exchange.effectTasks 0 (.ofPayloads (consumer.demand a).2)) :=
  rfl

theorem perform_subscribed (h : Handle) (consumer : Consumer Payload Handle Target)
    (line : Line) :
    (exchange consumer line).perform environment (.call (.subscribed 0 h)) =
      (exchange (consumer.subscribed h).1 line,
        Exchange.effectTasks 0 (.ofPayloads (consumer.subscribed h).2)) :=
  rfl

theorem perform_signal (s : Signal Payload) (consumer : Consumer Payload Handle Target)
    (line : Line) :
    (exchange consumer line).perform environment (.call (.signal 0 s)) =
      (exchange (consumer.deliver s).1 line,
        Exchange.effectTasks 0 (.ofPayloads (consumer.deliver s).2)) :=
  rfl

theorem consumer?_of_exchange (h : c.exchange = exchange consumer line) :
    consumer? c = some consumer := by
  rw [consumer?, h]
  rfl

/-- Whoever cancels ends the stream of a consumer that is still open. -/
theorem hasEnded_of_cancel {k : Party} {rest : List (Task Step)}
    (hc : c.exchange = exchange consumer line) (hterm : consumer.terminal = none)
    (hvalues : consumer.values <+: itemsOf kind p (n0 + asked c)) :
    HasEnded kind p n0 (c.work environment k (.own 0 .cancel) rest) := by
  have hcancel : consumer.cancel.1 =
      { consumer with terminal := some .canceled, subscription := none } := by
    simp [Consumer.cancel, Consumer.isTerminated, hterm]
  have hexchange : (c.work environment k (.own 0 .cancel) rest).exchange =
      exchange { consumer with terminal := some .canceled, subscription := none } line := by
    rw [Crew.exchange_work, hc, perform_own, ← hcancel]
    rfl
  have hasked : asked (c.work environment k (.own 0 .cancel) rest) = asked c := by
    rw [asked, Crew.done_work, askedIn_append]
    rfl
  have hcanceled : isCanceled (c.work environment k (.own 0 .cancel) rest) = true := by
    rw [isCanceled, Crew.done_work, List.any_append]
    exact Bool.or_true _
  refine ⟨_, .canceled, ⟨⟨line, hexchange⟩, Option.some_ne_none _, Or.inl rfl⟩, rfl, ?_⟩
  rw [hasked]
  exact .canceled hcanceled hvalues

theorem eq_cancel_of_cons {canceling : Bool} {t : Task Step} {rest : List (Task Step)}
    (h : cancelTasks canceling = t :: rest) : t = .own 0 .cancel ∧ rest = [] := by
  cases canceling with
  | false => cases h
  | true => exact (List.cons.inj h).imp Eq.symm Eq.symm

end Inquiry
end StreamConformance
