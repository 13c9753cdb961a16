import StreamConformance.Proofs.Client.Departures
import StreamConformance.Proofs.Client.Isolation

/-!
# Which streams are in the route table

The route table of an open connection does not hold live streams only.  A stream with a single
direction has an entry as long as that has not ended.  A channel has one as long as its consumer has
not come to an end, but also as long as the peer has not said that it wants no more items, whether or
not the producer has ended: a producer that ends has its link done with, but nobody takes the link
out of the table.  So the entry of a channel that both sides have completed stays until the
connection ends, or until the peer cancels what has long been over.

* `Chronicle.Lives`: a direction of a stream is in use.
* `Chronicle.isSome_outbound?_iff`: whose link is in the table.
* `Chronicle.isSome_find?_iff`: what has an entry.
* `Chronicle.HoldsLive`, `Chronicle.holdsLive_iff`: the table holds live streams only, exactly if
  every channel that has ended on both sides was stopped by the peer.
* `Chronicle.not_holdsLive_finished`: a channel that is left behind.
-/

namespace StreamConformance
namespace Client

open Crew (Move Turns)

namespace Connection

variable {c : Connection} {e : Event Step} {id : UInt32}

/-- **A link stays where it is**, in the table or not, unless its stream is entered, or somebody takes
it out, or the table is emptied. -/
theorem outbound?_react_of_ne
    (hregister : ∀ j l, e = .resumed (.register j) → c.labels[j]? = some l → l.id ≠ id)
    (hdetach : e ≠ .resumed (.detachLink id)) (hdrain : ∀ reason, e ≠ .resumed (.drain reason)) :
    (c.react e).1.routes.outbound? id = c.routes.outbound? id := by
  rw [routes_react]
  cases e with
  | resumed s =>
    cases s with
    | register j =>
      rw [routesAfter]
      cases hl : c.labels[j]? with
      | none => rfl
      | some l => exact (Routes.outbound?_insert ..).trans (if_neg (hregister j l rfl hl))
    | detachLink id' =>
      have hne : id' ≠ id := fun hid => hdetach (by rw [hid])
      exact (Routes.outbound?_takeOutbound ..).trans (if_neg hne)
    | drain reason => exact absurd rfl (hdrain reason)
    | detach | fail => exact Routes.outbound?_takeInbound ..
    | receive f =>
      cases f with
      | complete | error => exact Routes.outbound?_takeInbound ..
      | next | requestN | cancel | requestResponse | requestStream | requestSubscription
      | fireAndForget | requestChannel => rfl
    | write | writeCancel | post | writeMessage | cancelProducer | askProducer | close => rfl
  | opened | openedChannel | asked | attached | heard | copied | released => rfl

/-- An entry disappears with its second half. -/
theorem isPruned_react (h : c.routes.IsPruned) (e : Event Step) :
    (c.react e).1.routes.IsPruned := by
  rw [routes_react]
  cases e with
  | resumed s =>
    cases s with
    | register j =>
      rw [routesAfter]
      cases c.labels[j]? with
      | none => exact h
      | some l => exact h.insert rfl l.id
    | detachLink id => exact h.takeOutbound id
    | drain reason => rintro id r ⟨⟩
    | detach id | fail id => exact h.takeInbound id
    | receive f =>
      cases f with
      | complete id | error id => exact h.takeInbound id
      | next | requestN | cancel | requestResponse | requestStream | requestSubscription
      | fireAndForget | requestChannel => exact h
    | write | writeCancel | post | writeMessage | cancelProducer | askProducer | close => exact h
  | opened | openedChannel | asked | attached | heard | copied | released => exact h

end Connection

namespace Chronicle

variable {ι : Type} {c d : Crew ι Chronicle Step} {reader : ι} {i j : Nat} {l : Label} {id : UInt32}

/-- A direction of the stream object `j` is in use: the stream has not ended for its consumer, or it
is a channel whose producer has not ended, and the peer has not said that it wants no more items. -/
def Lives (j : Nat) (l : Label) (c : Crew ι Chronicle Step) : Prop :=
  (¬ ∃ t, c.exchange.EndedBy t l.interaction) ∨
    (l.kind = .channel ∧ ¬ c.exchange.far.Ended j ∧ ¬ c.exchange.far.Stopped j l.id)

/-- The route table holds live streams only, and all of them.  A stream of which the end is on its
way is left out. -/
structure HoldsLive (c : Crew ι Chronicle Step) : Prop where
  /-- Every entry is that of a stream that was entered. -/
  known : ∀ id, (c.exchange.far.connection.routes.find? id).isSome = true →
    ∃ j l, c.exchange.far.connection.labels[j]? = some l ∧ l.id = id ∧ c.exchange.far.Registered j
  live : ∀ j l, c.exchange.far.Entered j l → Settled j l c →
    ((c.exchange.far.connection.routes.find? l.id).isSome = true ↔ Lives j l c)

variable [DecidableEq ι]

theorem isPruned_of_reach (h : Crew.Reach environment (newRules ι) start c) :
    c.exchange.far.connection.routes.IsPruned := by
  refine reach_induction (P := fun c => c.exchange.far.connection.routes.IsPruned) .refl h
    (by rintro id r ⟨⟩) fun _ ih hmove _ => ?_
  rcases far_cases hmove with ⟨event, -, -, hfar⟩ | ⟨-, severed, hfar⟩
  · rw [hfar]
    exact Connection.isPruned_react ih event
  · rw [hfar]
    exact ih

/-- **The link of a channel is in the table until the peer says that it wants no more items.**  Its
producer has nothing to do with that. -/
theorem isSome_outbound?_iff (h : Crew.Reach environment (newRules ι) start c)
    (hopen : c.exchange.far.connection.closed = false) (hj : c.exchange.far.Entered j l) :
    (c.exchange.far.connection.routes.outbound? l.id).isSome = true ↔
      l.kind = .channel ∧ ¬ c.exchange.far.Stopped j l.id := by
  refine entered_induction (P := fun c => c.exchange.far.connection.closed = false →
    ((c.exchange.far.connection.routes.outbound? l.id).isSome = true ↔
      l.kind = .channel ∧ ¬ c.exchange.far.Stopped j l.id)) h hj
    (fun {c d k new} hreach hl hfar hturns _ => ?_)
    (fun {c d k old new} hreach hj ih hmove hturns hopen => ?_) hopen
  · have hnew : ¬ c.exchange.far.Registered j := fun hj =>
      not_pending_register hreach hj ⟨k, hturns.mem_old (List.mem_singleton_self _)⟩
    have hroutes : d.exchange.far.connection.routes.outbound? l.id =
        if l.kind = .channel then some j else none := by
      rw [hfar, react, Connection.routes_react, Connection.routesAfter, hl]
      exact (Routes.outbound?_insert ..).trans (if_pos rfl)
    have hsince : d.exchange.far.since j = [] := since_of_register hnew (by rw [hfar]; rfl)
    rw [hroutes, Stopped, hsince]
    split <;> simp_all
  · have hold := ih (isOpen_of_move hmove hopen)
    have hstopped : d.exchange.far.Stopped j l.id ↔
        c.exchange.far.Stopped j l.id ∨ .tell (.resumed (.detachLink l.id)) ∈ old := by
      rw [Stopped, since_move hmove hj.registered, List.mem_append, Task.mem_filterMap_event?]
      rfl
    rw [hstopped]
    rcases far_cases hmove with ⟨event, rfl, -, hfar⟩ | ⟨hnone, severed, hfar⟩
    · have hpending : c.Pending (.tell event) := ⟨k, hturns.mem_old (List.mem_singleton_self _)⟩
      have hroutes : d.exchange.far.connection.routes =
          (c.exchange.far.connection.react event).1.routes := by
        rw [hfar]
        rfl
      rw [hroutes, List.mem_singleton, Task.tell.injEq]
      by_cases hdetach : event = .resumed (.detachLink l.id)
      · subst hdetach
        rw [Connection.routes_react, Connection.routesAfter, Routes.outbound?_takeOutbound,
          if_pos rfl]
        simp
      · have hsame : (c.exchange.far.connection.react event).1.routes.outbound? l.id =
            c.exchange.far.connection.routes.outbound? l.id :=
          Connection.outbound?_react_of_ne ?_ hdetach ?_
        · rw [hsame, hold, or_iff_left (Ne.symm hdetach)]
        · rintro j' l' rfl hl' hid
          obtain rfl := hj.unshared j' l l' hj.label hl' hid
          exact not_pending_register hreach hj.registered hpending
        · rintro reason rfl
          have hclosed : c.exchange.far.connection.closed = true :=
            backed_of_due hreach _ (Or.inr hpending)
          rw [isOpen_of_move hmove hopen] at hclosed
          cases hclosed
    · have hnot : .tell (.resumed (.detachLink l.id)) ∉ old := by
        rw [← Task.mem_filterMap_event?, hnone]
        exact List.not_mem_nil
      rw [hfar, or_iff_left hnot]
      exact hold

/-- **What has an entry** in the table of an open connection: a stream that has not ended for its
consumer, and a channel as long as the peer has not said that it wants no more items. -/
theorem isSome_find?_iff (h : Crew.Reach environment (readerRules reader) start c)
    (hopen : c.exchange.far.connection.closed = false) (hj : c.exchange.far.Entered j l)
    (hsettled : Settled j l c) :
    (c.exchange.far.connection.routes.find? l.id).isSome = true ↔
      (¬ ∃ t, c.exchange.EndedBy t l.interaction) ∨
        (l.kind = .channel ∧ ¬ c.exchange.far.Stopped j l.id) := by
  have hreach := reach_newRules h
  rw [(isPruned_of_reach hreach).isSome_find?_iff, isSome_inbound?_iff h hj hsettled,
    isSome_outbound?_iff hreach hopen hj]

/-- Every entry is that of a stream that was entered. -/
theorem exists_label_of_find? (h : Crew.Reach environment (newRules ι) start c)
    (hid : (c.exchange.far.connection.routes.find? id).isSome = true) :
    ∃ j l, c.exchange.far.connection.labels[j]? = some l ∧ l.id = id ∧
      c.exchange.far.Registered j := by
  rcases (isPruned_of_reach h).isSome_find?_iff.mp hid with hin | hout
  · obtain ⟨i, hi⟩ := Option.isSome_iff_exists.mp hin
    obtain ⟨j, l, hl, hid, -, hj⟩ := exists_label_of_inbound h hi
    exact ⟨j, l, hl, hid, hj⟩
  · obtain ⟨j, hj⟩ := Option.isSome_iff_exists.mp hout
    exact ⟨j, exists_label_of_outbound h hj⟩

/-- A stream is in the table as long as it lives, unless it is a channel that has ended on both
sides, by its producer, before the peer stopped it. -/
theorem isSome_find?_iff_lives (h : Crew.Reach environment (readerRules reader) start c)
    (hopen : c.exchange.far.connection.closed = false) (hj : c.exchange.far.Entered j l)
    (hsettled : Settled j l c) :
    ((c.exchange.far.connection.routes.find? l.id).isSome = true ↔ Lives j l c) ↔
      (l.kind = .channel → (∃ t, c.exchange.EndedBy t l.interaction) → c.exchange.far.Ended j →
        c.exchange.far.Stopped j l.id) := by
  rw [isSome_find?_iff h hopen hj hsettled, Lives]
  constructor
  · intro hiff hk hended hfinished
    by_contra hstopped
    rcases hiff.mp (Or.inr ⟨hk, hstopped⟩) with hlives | ⟨-, hlives, -⟩
    · exact hlives hended
    · exact hlives hfinished
  · intro hall
    refine or_congr_right' fun hended => and_congr_right fun hk => ?_
    have hfinished := hall hk (not_not.mp hended)
    exact ⟨fun hstopped => ⟨mt hfinished hstopped, hstopped⟩, And.right⟩

/-- **The route table holds live streams only, exactly if every channel that has ended on both sides
was stopped by the peer.**  That is so on an open connection, whatever any number of threads have done
with any streams and one reader with any frames, and for all streams of which no end is on its way. -/
theorem holdsLive_iff (h : Crew.Reach environment (readerRules reader) start c)
    (hopen : c.exchange.far.connection.closed = false) :
    HoldsLive c ↔ ∀ j l, c.exchange.far.Entered j l → Settled j l c → l.kind = .channel →
      (∃ t, c.exchange.EndedBy t l.interaction) → c.exchange.far.Ended j →
        c.exchange.far.Stopped j l.id := by
  constructor
  · intro hholds j l hj hsettled
    exact (isSome_find?_iff_lives h hopen hj hsettled).mp (hholds.live j l hj hsettled)
  · intro hall
    refine ⟨fun id => exists_label_of_find? (reach_newRules h), fun j l hj hsettled => ?_⟩
    exact (isSome_find?_iff_lives h hopen hj hsettled).mpr (hall j l hj hsettled)

/-! ## A channel that is left behind -/

/-- A channel is opened, and its producer sends its first item. -/
def opensChannel : Crew Bool Chronicle Step :=
  (start.turn false [.tell (.openedChannel 0 0)]
    (Exchange.enter
      { receiver := .payloads { label := "channel", initialDemand := 0 }
        producer := .scripted { initial := .pending ⟨"a", "b"⟩ } }
      { far := {} })).play environment (List.replicate 14 false)

/-- The script of the channel completes, if it may. -/
def completes (c : Crew Bool Chronicle Step) : Crew Bool Chronicle Step :=
  match c.exchange.scripted? 0 with
  | some p =>
    match p.emitter.emit .complete with
    | .sent emitter =>
      let sent := c.exchange.send 0 p emitter .complete
      c.turn false sent.2 sent.1
    | _ => c
  | none => c

/-- That has gone out, and the peer completes as well. -/
def finished : Crew Bool Chronicle Step :=
  reads ((completes opensChannel).play environment (List.replicate 4 false)) (.complete 1)

/-- Only then the peer says that it wants no more items. -/
def stoppedLate : Crew Bool Chronicle Step :=
  reads finished (.cancel 1)

theorem reach_completes {c : Crew Bool Chronicle Step} (hidle : c.stack false = []) :
    Crew.Reach environment (readerRules true) c (completes c) := by
  unfold completes
  split
  · rename_i p hp
    split
    · rename_i emitter hemit
      exact .single (.emit hidle trivial hp hemit)
    · exact .refl
  · exact .refl

/-- The label of the channel. -/
def channelLabel : Label where
  id := 1
  interaction := 0
  kind := .channel

/-- Somebody takes the link of a stream out of the table. -/
def detaches (id : UInt32) : Event Step → Bool
  | .resumed (.detachLink id') => id' == id
  | _ => false

theorem stopped_of_any {r : Chronicle} (h : (r.since j).any (detaches id) = true) :
    r.Stopped j id := by
  obtain ⟨event, hevent, hdetaches⟩ := List.any_eq_true.mp h
  unfold detaches at hdetaches
  split at hdetaches
  · rwa [eq_of_beq hdetaches] at hevent
  · cases hdetaches

/-- The only stream object there is has a number of its own. -/
theorem entered_of_labels {r : Chronicle} (hlabels : r.connection.labels = [l])
    (hregisters : r.told.any (registers 0) = true) : r.Entered 0 l := by
  have hzero {j : Nat} {l' : Label} (hl : r.connection.labels[j]? = some l') : j = 0 := by
    rw [hlabels, List.getElem?_singleton] at hl
    exact (Option.ite_none_right_eq_some.mp hl).1
  refine ⟨registered_iff.mpr (List.any_eq_true.mp hregisters), ?_, fun j' _ _ _ hl' _ => hzero hl'⟩
  rw [hlabels]
  rfl

theorem reach_finished : Crew.Reach environment (readerRules true) start finished := by
  have hchannel : Crew.Reach environment (readerRules true) start opensChannel :=
    (Relation.ReflTransGen.single (.start rfl
      ⟨⟨Starts.channel (.payloads { label := "channel", initialDemand := 0 }) (.scripted ⟨"a", "b"⟩),
        opensNew_enter _ rfl _⟩, readsAlone_enter (isFresh_payloads "channel" 0) _ _⟩)).trans
      (Crew.reach_play ..)
  exact ((hchannel.trans (reach_completes (by decide +kernel))).trans (Crew.reach_play ..)).trans
    (reach_reads ..)

/-- In this run the channel has ended on both sides, and its link is still in the table. -/
theorem finished_eq :
    finished.stack true = [] ∧ finished.stack false = [] ∧
      finished.exchange.far.connection.closed = false ∧
      finished.exchange.far.connection.labels = [channelLabel] ∧
      finished.exchange.far.told.any (registers 0) = true ∧
      finished.exchange.far.told.any (ends 0) = true ∧
      (finished.exchange.reception? 0).map (·.terminal) = some (some .completed) ∧
      finished.exchange.far.connection.routes.find? 1 = some { outbound := some 0 } := by
  decide +kernel

/-- With a cancellation that is taken out. -/
theorem stoppedLate_eq :
    stoppedLate.exchange.far.connection.closed = false ∧
      stoppedLate.exchange.far.connection.labels = [channelLabel] ∧
      stoppedLate.exchange.far.told.any (ends 0) = true ∧
      (stoppedLate.exchange.far.since 0).any (detaches 1) = true := by
  decide +kernel

theorem holdsLive_stoppedLate :
    Crew.Reach environment (readerRules true) start stoppedLate ∧
      stoppedLate.exchange.far.connection.closed = false ∧ stoppedLate.exchange.far.Ended 0 ∧
      HoldsLive stoppedLate := by
  obtain ⟨hopen, hlabels, hends, hdetaches⟩ := stoppedLate_eq
  have hreach : Crew.Reach environment (readerRules true) start stoppedLate :=
    reach_finished.trans (reach_reads ..)
  refine ⟨hreach, hopen, List.any_eq_true.mp hends, (holdsLive_iff hreach hopen).mpr ?_⟩
  intro j l hj _ _ _ _
  have hl := hj.label
  rw [hlabels, List.getElem?_singleton] at hl
  obtain ⟨rfl, hlabel⟩ := Option.ite_none_right_eq_some.mp hl
  obtain rfl := Option.some.inj hlabel
  exact stopped_of_any hdetaches

/-- **The entry of a channel stays when both of its directions have ended**, if its producer has ended
by itself. -/
theorem not_holdsLive_finished :
    ¬ ∀ c : Crew Bool Chronicle Step, Crew.Reach environment (readerRules true) start c →
      c.exchange.far.connection.closed = false → HoldsLive c := by
  intro h
  obtain ⟨htrue, hfalse, hopen, hlabels, hregisters, hends, hterm, hentry⟩ := finished_eq
  have hquiet : finished.Quiet := by
    rintro (_ | _)
    · exact hfalse
    · exact htrue
  have hended : finished.exchange.EndedBy .completed channelLabel.interaction :=
    Option.map_eq_some_iff.mp hterm
  have hsettled := settled_of_quiet hquiet 0 channelLabel
  have hlives := ((h finished reach_finished hopen).live 0 channelLabel
    (entered_of_labels hlabels hregisters) hsettled).mp (Option.isSome_of_eq_some hentry)
  rcases hlives with hlives | ⟨-, hlives, -⟩
  · exact hlives ⟨_, hended⟩
  · exact hlives (List.any_eq_true.mp hends)

end Chronicle
end Client
end StreamConformance
