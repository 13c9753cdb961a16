import StreamConformance.Proofs.Client.Numbers
import StreamConformance.Proofs.Client.Producers

/-!
# The end of a connection

When the reader finds a connection ended it closes it, empties the route table, and then sends an
error to every consumer and a cancellation to every producer that was in the table.  Meanwhile any
number of threads open streams, ask for items, send items, cancel and finish; what a stream has come
to when the table is emptied may be anything between its entry into the table and its end.

* `Chronicle.IsShutDown`: what has become of all streams that were in the table, or had been before.
* `Chronicle.isShutDown_of_reach`: that is so from the moment on when the table is emptied, however
  the threads interleave.

A stream that is entered into the table when that has been emptied already is not among them: nobody
will look for it any more.

Nor is a stream whose number another one has as well, since the later entry takes the place of the
earlier.  Any number of streams may have been opened, but there are only 2 ^ 31 numbers; as long as
no more are handed out every stream has its own, which is the last part of `Chronicle.IsShutDown`.
What is sent when the table is emptied does not depend on that.
-/

namespace StreamConformance
namespace Client

open Crew (Move Turns)

namespace Chronicle

open Connection (Attempt)

variable {ι : Type} {c d : Crew ι Chronicle Step} {k : ι} {reason : String}
  {rest : List (Task Step)} {i j : Nat} {l : Label}

/-- The thread `k` has emptied the route table of a connection that has ended for some reason.  Before
that everything was as in `c`, and by now it is as in `d`. -/
structure IsShutDown (k : ι) (reason : String) (c d : Crew ι Chronicle Step) : Prop where
  /-- The table is empty until another stream is entered. -/
  empty : (∀ j, d.exchange.far.Registered j → c.exchange.far.Registered j) →
    d.exchange.far.connection.routes = {}
  /-- Who was in the table has been sent one end, which is the reason. -/
  failed : d.stack k = [] → ∀ id i, c.exchange.far.connection.routes.inbound? id = some i →
    (d.signalsTo i).filter Signal.isTerminal = [.error reason]
  /-- The link of a channel that was in the table has been told that the peer wants no more. -/
  dismissed : d.stack k = [] → ∀ id j, c.exchange.far.connection.routes.outbound? id = some j →
    d.exchange.far.Dismissed j
  /-- Every stream that was ever in the table has ended, if its end is not just on its way. -/
  ended : ∀ j l, c.exchange.far.Entered j l → (∃ t, d.exchange.EndedBy t l.interaction) ∨
    ∃ s, s.isTerminal = true ∧ d.Pending (.call (.signal l.interaction s))
  /-- Who sent a message without answers was told what became of it. -/
  told : d.Quiet → ∀ (j : Nat) (l : Label), d.exchange.far.connection.labels[j]? = some l →
    l.kind = .detached → ∃ t, d.exchange.EndedBy t l.interaction
  /-- The link of every channel that was ever in the table is done, if that is not just on its way. -/
  done : ∀ j l, c.exchange.far.Entered j l → l.kind = .channel →
    (d.exchange.far.connection.linkAt j).outboundDone = true ∨
      d.Pending (.call (.resume (.cancelProducer j))) ∨
      d.Pending (.tell (.resumed (.cancelProducer j)))
  /-- A producer that has given its subscription to a link that is done, or gives it only now, is
  asked to stop, unless it has ended. -/
  stopped : ∀ i j, d.exchange.far.connection.Serves i j →
    (d.exchange.far.connection.linkAt j).outboundDone = true → d.exchange.far.Attached j →
      d.exchange.far.Ended j ∨ d.Due (.call (.ask i .cancel))
  /-- No script goes on to wait for the peer of such a channel. -/
  released : d.Quiet → ∀ j l, c.exchange.far.Entered j l → l.kind = .channel →
    (d.exchange.far.Attached j →
      d.exchange.far.Ended j ∨ .call (.ask l.interaction .cancel) ∈ d.done) ∧
    ∀ p r, d.exchange.scripted? l.interaction = some p → p.remote = some r →
      p.emitter.isClosed = true
  /-- Nothing more can be written. -/
  refused : ∀ f, d.exchange.far.connection.send f = .error .connectionClosed
  written : d.exchange.far.connection.written = c.exchange.far.connection.written
  /-- Streams have numbers of their own, as long as there are enough. -/
  distinct : c.exchange.far.allotted ≤ 2 ^ 31 → ∀ (j : Nat) (l : Label),
    c.exchange.far.connection.labels[j]? = some l → l.kind ≠ .detached →
      c.exchange.far.connection.Unshared j

/-! ## Nothing is written on a closed connection -/

theorem send_of_closed {r : Connection} (h : r.closed = true) (f : Wire.Frame) :
    r.send f = .error .connectionClosed := by
  rw [Connection.send, if_pos h]

/-- What is tried on a closed connection is refused. -/
theorem written_react_of_closed {r : Connection} (h : r.closed = true) (e : Event Step) :
    (r.react e).1.written = r.written := by
  rw [Connection.written_react]
  cases ha : r.attempt? e with
  | none => exact List.append_nil _
  | some a =>
    have hrefused : a.isRefused = true := by
      rw [Attempt.isRefused, Connection.fault_of_attempt ha, Option.isSome_iff_ne_none]
      exact Connection.refusal?_of_isDead (Or.inl h) a.frame
    rw [Option.bind_some, written?_of_isRefused hrefused]
    exact List.append_nil _

variable [DecidableEq ι]

theorem written_of_closed (hc : Crew.Reach environment (newRules ι) start c)
    (hd : Crew.Reach environment (newRules ι) c d) (h : c.exchange.far.connection.closed = true) :
    d.exchange.far.connection.closed = true ∧
      d.exchange.far.connection.written = c.exchange.far.connection.written := by
  refine reach_induction (P := fun d => d.exchange.far.connection.closed = true ∧
    d.exchange.far.connection.written = c.exchange.far.connection.written) hc hd ⟨h, rfl⟩
    fun _ ih hmove _ => ⟨closed_move hmove ih.1, ?_⟩
  rw [← ih.2]
  rcases far_cases hmove with ⟨event, -, -, hfar⟩ | ⟨-, severed, hfar⟩
  · rw [hfar]
    exact written_react_of_closed ih.1 event
  · rw [hfar]

/-! ## An empty table -/

/-- Only an entry makes something of an empty table. -/
theorem routes_react_of_empty {r : Connection} (h : r.routes = {}) {e : Event Step}
    (he : ∀ j, e ≠ .resumed (.register j)) : (r.react e).1.routes = {} := by
  rw [Connection.routes_react]
  cases e with
  | resumed s =>
    cases s with
    | register j => exact absurd rfl (he j)
    | receive f =>
      cases f with
      | complete | error =>
        rw [Connection.routesAfter, h]
        rfl
      | _ => exact h
    | detach | fail | detachLink =>
      rw [Connection.routesAfter, h]
      rfl
    | drain => rfl
    | _ => exact h
  | _ => exact h

/-- **The table stays empty until another stream is entered.** -/
theorem routes_of_empty (hc : Crew.Reach environment (newRules ι) start c)
    (hd : Crew.Reach environment (newRules ι) c d) (h : c.exchange.far.connection.routes = {})
    (hsame : ∀ j, d.exchange.far.Registered j → c.exchange.far.Registered j) :
    d.exchange.far.connection.routes = {} := by
  refine reach_induction (P := fun d =>
    (∀ j, c.exchange.far.Registered j → d.exchange.far.Registered j) ∧
      ((∀ j, d.exchange.far.Registered j → c.exchange.far.Registered j) →
        d.exchange.far.connection.routes = {})) hc hd ⟨fun _ => id, fun _ => h⟩
    (fun {b d k old new} hreach ih hmove hturns => ?_) |>.2 hsame
  refine ⟨fun j hj => registered_mono hmove (ih.1 j hj), fun hsame => ?_⟩
  have hempty := ih.2 fun j hj => hsame j (registered_mono hmove hj)
  rcases far_cases hmove with ⟨event, rfl, -, hfar⟩ | ⟨-, severed, hfar⟩
  · rw [hfar]
    refine routes_react_of_empty hempty ?_
    rintro j rfl
    have hj := registered_of_mem_old hmove (List.mem_singleton_self _)
    exact not_pending_register hreach (ih.1 j (hsame j hj))
      ⟨k, hturns.mem_old (List.mem_singleton_self _)⟩
  · rw [hfar]
    exact hempty

/-! ## What the reader leaves behind -/

/-- What a thread has to do it has done when it has nothing to do. -/
theorem mem_done_of_stack {t : Task Step} (hc : Crew.Reach environment (newRules ι) start c)
    (hd : Crew.Reach environment (newRules ι) c d) (ht : t ∈ c.stack k) (hk : d.stack k = []) :
    t ∈ d.done := by
  have hstays : t ∈ d.done ∨ t ∈ d.stack k :=
    reach_induction (P := fun d => t ∈ d.done ∨ t ∈ d.stack k) hc hd (Or.inr ht)
      fun _ ih _ hturns => hturns.mem_done_or_stack ih
  rw [hk] at hstays
  exact hstays.resolve_right List.not_mem_nil

/-- A step that a thread was to take it has taken when it has nothing to do. -/
theorem told_of_stack {s : Step} (hc : Crew.Reach environment (newRules ι) start c)
    (hd : Crew.Reach environment (newRules ι) c d) (hs : .call (.resume s) ∈ c.stack k)
    (hk : d.stack k = []) : .resumed s ∈ d.exchange.far.told := by
  have hstays : .call (.resume s) ∈ d.stack k ∨ .tell (.resumed s) ∈ d.done ∨
      .tell (.resumed s) ∈ d.stack k := by
    refine reach_induction (P := fun d => .call (.resume s) ∈ d.stack k ∨
      .tell (.resumed s) ∈ d.done ∨ .tell (.resumed s) ∈ d.stack k) hc hd (Or.inl hs)
      fun {b d k' old new} _ ih hmove hturns => ?_
    rcases ih with hcall | htell
    · rcases hturns.mem_stack_or_old hcall with hcall | ⟨rfl, hold⟩
      · exact Or.inl hcall
      · obtain ⟨-, rfl, -⟩ := hmove.of_mem hold
        exact Or.inr (Or.inr (hturns.mem_new (List.mem_singleton_self _)))
    · exact Or.inr (hturns.mem_done_or_stack htell)
  rw [hk] at hstays
  exact (mem_told (hc.trans hd)).mpr ((hstays.resolve_left List.not_mem_nil).resolve_right
    List.not_mem_nil)

theorem due_of_reach {t : Task Step} (hc : Crew.Reach environment (newRules ι) start c)
    (hd : Crew.Reach environment (newRules ι) c d) (ht : c.Due t) : d.Due t :=
  reach_induction (P := fun d => d.Due t) hc hd ht fun _ ih _ hturns => hturns.due_of_due ih

theorem IsOver.reach (h : IsOver i c) (hc : Crew.Reach environment (newRules ι) start c)
    (hd : Crew.Reach environment (newRules ι) c d) : IsOver i d :=
  reach_induction (P := fun d => IsOver i d) hc hd h fun _ ih hmove hturns => ih.turn hmove hturns

omit [DecidableEq ι] in
/-- Everybody in the table is sent an error when that is emptied. -/
theorem signal_of_drain {r : Connection} {id : UInt32} (h : r.routes.inbound? id = some i) :
    .signal i (.error reason) ∈ (r.react (.resumed (.drain reason))).2 := by
  obtain ⟨x, hx, hi⟩ := Routes.inbound?_eq_some.mp h
  exact Connection.mem_signalsOn.mp
    (List.mem_filterMap.mpr ⟨_, Routes.mem_of_find? hx, by rw [hi]; rfl⟩)

omit [DecidableEq ι] in
/-- The producer of every link in the table is to be canceled. -/
theorem cancelProducer_of_drain {r : Connection} {id : UInt32}
    (h : r.routes.outbound? id = some j) :
    .resume (.cancelProducer j) ∈ (r.react (.resumed (.drain reason))).2 := by
  obtain ⟨x, hx, hj⟩ := Routes.outbound?_eq_some.mp h
  refine List.mem_flatMap.mpr ⟨_, Routes.mem_of_find? hx, List.mem_append_right _ ?_⟩
  rw [hj]
  exact List.mem_singleton_self _

/-! ## When the table is emptied -/

section Drain

variable (hc : Crew.Reach environment (newRules ι) start c)
  (hk : c.stack k = .tell (.resumed (.drain reason)) :: rest)
include hk

theorem step_drain : Crew.Step environment (newRules ι) c
    (c.work environment k (.tell (.resumed (.drain reason))) rest) :=
  .work hk (by simp)

include hc

/-- Who was entered before has been sent an end by then, or has canceled. -/
theorem isOver_of_drain (hj : c.exchange.far.Entered j l) :
    IsOver l.interaction (c.work environment k (.tell (.resumed (.drain reason))) rest) := by
  rcases routed_or_over hc hj with hin | hover
  · exact Or.inl ⟨.error reason, rfl,
      Crew.due_work (List.mem_map.mpr ⟨_, signal_of_drain hin, rfl⟩)⟩
  · exact hover.reach hc (.single (step_drain hk))

/-- The producer of a channel that was entered before is to be canceled by then. -/
theorem cancelProducer_due_of_drain (hj : c.exchange.far.Entered j l) (hkind : l.kind = .channel) :
    (c.work environment k (.tell (.resumed (.drain reason))) rest).Due
      (.call (.resume (.cancelProducer j))) := by
  rcases linked_or_due hc hj hkind with hin | hdue
  · exact Crew.due_work (List.mem_map.mpr ⟨_, cancelProducer_of_drain hin, rfl⟩)
  · exact due_of_reach hc (.single (step_drain hk)) hdue

end Drain

/-- **The end of a connection ends everything on it.**  A thread `k` that finds the connection ended
has closed it, and is about to empty the table, in any state `c` that any number of threads can bring
about; `d` is any state that they come to afterwards. -/
theorem isShutDown_of_reach (hc : Crew.Reach environment (newRules ι) start c)
    (hk : c.stack k = .tell (.resumed (.drain reason)) :: rest)
    (hd : Crew.Reach environment (newRules ι)
      (c.work environment k (.tell (.resumed (.drain reason))) rest) d) :
    IsShutDown k reason c d := by
  have hdrained := hc.tail (step_drain hk)
  have hreach := hdrained.trans hd
  have htail := (Relation.ReflTransGen.single (step_drain hk)).trans hd
  have hclosed : c.exchange.far.connection.closed = true :=
    backed_of_due hc (.tell (.resumed (.drain reason)))
      (Or.inr ⟨k, by rw [hk]; exact List.mem_cons_self⟩)
  obtain ⟨hclosed', hwritten⟩ := written_of_closed hc htail hclosed
  have hcalls {cl : Call Step}
      (hcl : cl ∈ (c.exchange.far.connection.react (.resumed (.drain reason))).2) :
      .call cl ∈ (c.work environment k (.tell (.resumed (.drain reason))) rest).stack k := by
    rw [Crew.stack_work_self]
    exact List.mem_append_left _ (List.mem_map.mpr ⟨cl, hcl, rfl⟩)
  have hdone {j : Nat} {l : Label} (hj : c.exchange.far.Entered j l) (hkind : l.kind = .channel) :=
    outboundDone_of_due hreach (due_of_reach hdrained hd (cancelProducer_due_of_drain hc hk hj hkind))
  refine
    { empty := fun hsame => routes_of_empty hdrained hd rfl fun j hj => ?_
      failed := fun hidle id i hin => ?_
      dismissed := fun hidle id j hin => ?_
      ended := fun j l hj => ((isOver_of_drain hc hk hj).reach hdrained hd).ended hreach
      told := fun hquiet j l hl hkind => ?_
      done := fun j l hj hkind => hdone hj hkind
      stopped := fun i j hserves hdone hatt => ended_or_asked hreach hserves hdone hatt
      released := fun hquiet j l hj hkind => ?_
      refused := send_of_closed hclosed'
      written := hwritten
      distinct := fun hn j l hl hkind => unshared_of_allotted_le hc hn hl hkind }
  · exact List.mem_append_left _ (hsame j hj)
  · exact ends_eq_of_mem hreach rfl
      (mem_done_of_stack hdrained hd (hcalls (signal_of_drain hin)) hidle)
  · exact ⟨_, told_of_stack hdrained hd (hcalls (cancelProducer_of_drain hin)) hidle,
      beq_self_eq_true j⟩
  · rcases sent_or_over hreach hl hkind with ⟨t, ht, -⟩ | hover
    · exact absurd ht hquiet.not_pending
    · exact (hover.ended hreach).resolve_right fun ⟨s, _, ht⟩ => hquiet.not_pending ht
  · have hlabel := reach_induction (P := fun d => d.exchange.far.connection.labels[j]? = some l) hc
      htail hj.label fun _ ih hmove _ => keeps_move hmove _ _ ih
    have hserves := Connection.serves_of_label hlabel hkind
    have hdone := (hdone hj hkind).resolve_right fun h =>
      h.elim hquiet.not_pending hquiet.not_pending
    refine ⟨fun hatt => ?_, fun p r hp hr =>
      isClosed_of_outboundDone hreach hquiet hserves hdone hp hr⟩
    exact (ended_or_asked hreach hserves hdone hatt).imp_right hquiet.mem_done

/-! ## Closing while a channel is set up -/

/-- A script opens a stream. -/
def oneStream : Crew Bool Chronicle Step :=
  (start.turn false [.tell (.opened 0 .requestStream ⟨"a", "b"⟩ 0)]
    (Exchange.enter { receiver := .payloads { label := "stream", initialDemand := 0 } }
      { far := {} })).play environment (List.replicate 10 false)

/-- Then it is about to open a channel, and the reader is about to close the connection. -/
def twoStreams : Crew Bool Chronicle Step :=
  (oneStream.turn false [.tell (.openedChannel 0 oneStream.exchange.interactions.size)]
    (oneStream.exchange.enter
      { receiver := .payloads { label := "channel", initialDemand := 1 }
        producer := .scripted { initial := .pending ⟨"a", "b"⟩ } })).turn true
    [.call (.resume (.close "connection closed by peer"))]
    (oneStream.exchange.enter
      { receiver := .payloads { label := "channel", initialDemand := 1 }
        producer := .scripted { initial := .pending ⟨"a", "b"⟩ } })

/-- The channel is in the table, but its producer has no peer yet, when the table is to be emptied. -/
def closingDown : Crew Bool Chronicle Step :=
  twoStreams.play environment (List.replicate 3 false ++ List.replicate 3 true)

/-- The reader is done with the connection, and then the channel gets its producer. -/
def closedDown : Crew Bool Chronicle Step :=
  (closingDown.work environment true (.tell (.resumed (.drain "connection closed by peer"))) []).play
    environment (List.replicate 14 true ++ List.replicate 20 false)

theorem stack_oneStream :
    (oneStream.stack false).isEmpty = true ∧ (oneStream.stack true).isEmpty = true := by
  decide +kernel

theorem reach_closingDown : Crew.Reach environment (newRules Bool) start closingDown := by
  obtain ⟨hfalse, htrue⟩ := stack_oneStream
  have hstream : Crew.Reach environment (newRules Bool) start oneStream :=
    (Relation.ReflTransGen.single (.start rfl
      ⟨Starts.request _ .requestStream ⟨"a", "b"⟩, opensNew_enter _ rfl _⟩)).trans
      (Crew.reach_play ..)
  have hchannel := hstream.tail (.start (List.isEmpty_iff.mp hfalse)
    ⟨Starts.channel (.payloads { label := "channel", initialDemand := 1 }) (.scripted ⟨"a", "b"⟩),
      opensNew_enter _ rfl _⟩)
  have hclose := hchannel.tail (.start
    ((Crew.stack_turn_of_ne _ _ _ (by decide)).trans (List.isEmpty_iff.mp htrue))
    ⟨Starts.finish "connection closed by peer", opensNew_self _ _ _⟩)
  exact hclose.trans (Crew.reach_play ..)

theorem stack_closingDown :
    closingDown.stack true = [.tell (.resumed (.drain "connection closed by peer"))] := by
  rfl

/-- What the run is about: both consumers fail, and the producer that comes too late is asked to
stop. -/
theorem closedDown_eq :
    ((closedDown.stack true).isEmpty = true ∧ (closedDown.stack false).isEmpty = true) ∧
      closingDown.exchange.far.connection.routes.inbound? 1 = some 0 ∧
      closingDown.exchange.far.connection.routes.inbound? 3 = some 1 ∧
      closingDown.exchange.far.connection.routes.outbound? 3 = some 1 ∧
      (closedDown.signalsTo 0).filter Signal.isTerminal = [.error "connection closed by peer"] ∧
      (closedDown.signalsTo 1).filter Signal.isTerminal = [.error "connection closed by peer"] ∧
      closedDown.exchange.far.told.any (attaches 1) = true ∧
      (closedDown.exchange.scripted? 1).map (fun p => p.emitter.canceled) = some true := by
  decide +kernel

theorem isShutDown_closedDown :
    Crew.Reach environment (newRules Bool) start closingDown ∧
      closingDown.stack true = [.tell (.resumed (.drain "connection closed by peer"))] ∧
      Crew.Reach environment (newRules Bool) (closingDown.work environment true
        (.tell (.resumed (.drain "connection closed by peer"))) []) closedDown ∧
      closedDown.Quiet ∧ IsShutDown true "connection closed by peer" closingDown closedDown := by
  have hrun : Crew.Reach environment (newRules Bool) (closingDown.work environment true
      (.tell (.resumed (.drain "connection closed by peer"))) []) closedDown :=
    Crew.reach_play ..
  exact ⟨reach_closingDown, stack_closingDown, hrun, quiet_of_isEmpty closedDown_eq.1,
    isShutDown_of_reach reach_closingDown stack_closingDown hrun⟩

end Chronicle
end Client
end StreamConformance
