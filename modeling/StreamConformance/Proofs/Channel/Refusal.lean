import StreamConformance.Proofs.Channel.Chronicle
import StreamConformance.Proofs.Crew

/-!
# Frames that are refused

A connection may refuse the frame of an item: it is closed, or severed, or the frame is too large.
The threads at a connection open channels, send items, read and close in any order.

* `Chronicle.rules`: what the threads may do.
* `Chronicle.Tidy`: the invariant of a run.  What is left to be done fits the connection, and a
  producer that gave its subscription to a link is in use, or has ended, or is told to stop.
* `Chronicle.HandlesRefusals`: with the first item that is refused, the producer's side of the
  stream is shut down and nothing more is written on it.
* `Chronicle.handlesRefusals_iff`: that is so exactly if the producer has ended or was dismissed,
  and nothing was written after an item that was too large.
-/

namespace StreamConformance
namespace Client
namespace Chronicle

open Connection (Attempt)
open Exchange (Origin)

/-! ## The threads at a connection -/

/-- A producer that has no peer yet and still has its initial payload. -/
inductive IsFresh : Producer → Prop where
  | scripted (p : Payload) : IsFresh (.scripted { initial := .pending p })
  | echo (p : Payload) : IsFresh (.echo { initial := p })

/-- What an idle thread may do next. -/
inductive Starts (e : Exchange Chronicle) : Exchange Chronicle → List (Task Step) → Prop where
  /-- Open a channel. -/
  | channel (x : Receiver) {p : Producer} (hp : IsFresh p) :
      Starts e (e.enter { receiver := x, producer := p })
        [.tell (.openedChannel 0 e.interactions.size)]
  /-- Send a request that is not a channel's. -/
  | request (x : Receiver) (kind : Script.InteractionKind) (p : Payload) :
      Starts e (e.enter { receiver := x }) [.tell (.opened 0 kind p e.interactions.size)]
  /-- Ask a consumer for items, or for the end. -/
  | own (i : Nat) (a : Ask) : Starts e e [.own i a]
  /-- Read a frame. -/
  | arrive (f : Wire.Frame) : Starts e e [.call (.resume (.receive f))]
  /-- Find the connection ended. -/
  | finish (reason : String) : Starts e e [.call (.resume (.close reason))]
  /-- Give the connection up. -/
  | release : Starts e e [.tell (.released 0)]
  /-- The connection fails, and nobody has noticed. -/
  | sever (cause : String) : Starts e { e with far := e.far.sever cause } []

theorem getElem?_enter {i : Nat} {x y : Interaction} {e : Exchange Chronicle}
    (h : e.interactions[i]? = some y) : (e.enter x).interactions[i]? = some y := by
  obtain ⟨hi, -⟩ := Array.getElem?_eq_some_iff.mp h
  rw [Exchange.enter, Array.getElem?_push, if_neg (by omega), h]

/-- What the threads may do: anything, in any order. -/
def rules (ι : Type) : Crew.Rules ι Chronicle Step where
  starts _ e e' ts := Starts e e' ts
  keeps := by
    rintro _ e e' ts h i x hx
    cases h with
    | channel | request => exact getElem?_enter hx
    | own | arrive | finish | release | sever => exact hx
  outer := by
    rintro _ e e' ts h t ht
    cases h with
    | sever => cases ht
    | _ =>
      rw [List.mem_singleton.mp ht]
      rfl
  emits _ _ _ := True

/-- A new connection, before anything has happened. -/
def start {ι : Type} : Crew ι Chronicle Step where
  exchange := { far := {} }

/-! ## The invariant -/

variable {ι : Type} {c d : Crew ι Chronicle Step}

/-- The state of an exchange at a connection. -/
structure Sorted (e : Exchange Chronicle) : Prop where
  faithful : e.far.Faithful
  book : ∀ j, e.far.Book j
  routes : e.far.connection.RoutesFit
  remotes : ∀ i r, e.remote? i = some r → e.far.connection.Serves i r.stream

/-- A producer that gave its subscription to a link is in use, or has ended, or is told to stop. -/
def Followed (c : Crew ι Chronicle Step) : Prop :=
  ∀ i j, c.exchange.far.connection.Serves i j → c.exchange.far.Attached j →
    (c.exchange.far.connection.linkAt j).attached = true ∨ c.exchange.far.Ended j ∨
      c.Due (.call (.ask i .cancel))

/-- Everything that is left to be done fits the connection. -/
structure Tidy (c : Crew ι Chronicle Step) : Prop where
  sorted : Sorted c.exchange
  pending : ∀ k, ∀ t ∈ c.stack k, c.exchange.far.connection.AllowsTask t
  followed : Followed c

theorem tidy_start : Tidy (start : Crew ι Chronicle Step) where
  sorted :=
    { faithful := faithful_nil
      book := book_nil
      routes := fun x hx => by cases hx
      remotes := fun i r h => by cases h }
  pending _ _ ht := by cases ht
  followed := by
    rintro i j - ⟨e, he, -⟩
    cases he

theorem Tidy.calm (h : Tidy c) (p : Panic) : ¬ c.Pending (.call (.raise p)) := by
  rintro ⟨k, hk⟩
  exact h.pending k _ hk

/-! ## What a task does -/

section Perform

variable {e : Exchange Chronicle} {t t' : Task Step}

theorem serves_perform {i j : Nat} (h : e.far.connection.Serves i j) (t : Task Step) :
    (e.perform environment t).1.far.connection.Serves i j := by
  rw [Exchange.far_perform]
  cases t with
  | tell event => exact h.react event
  | _ => exact h

theorem allowsTask_of_origin (h : Sorted e) (ht : e.far.connection.AllowsTask t)
    (hnew : Origin environment e t t') :
    (e.perform environment t).1.far.connection.AllowsTask t' := by
  cases hnew with
  | @call event cl hcl =>
    have hmem : cl ∈ (e.far.connection.react event).2 := hcl
    exact Connection.allowsCall_of_mem_react h.routes hmem
  | resumed s => exact ht
  | attached r hr => exact serves_perform ht _
  | @heard _ i r s hprod hr => exact ⟨i, serves_perform (h.remotes i r hr) t⟩
  | asked | copied | openGate | settle | passOn | push | drain | drainNext => trivial

theorem Sorted.perform (h : Sorted e) (ht : e.far.connection.AllowsTask t) :
    Sorted (e.perform environment t).1 := by
  have hfar : Faithful (e.perform environment t).1.far ∧
      (∀ j, Book j (e.perform environment t).1.far) ∧
      (e.perform environment t).1.far.connection.RoutesFit := by
    rw [Exchange.far_perform]
    cases t with
    | tell event => exact ⟨h.faithful.react ht, fun j => (h.book j).react ht, h.routes.react event⟩
    | _ => exact ⟨h.faithful, h.book, h.routes⟩
  refine ⟨hfar.1, hfar.2.1, hfar.2.2, fun i r hr => ?_⟩
  obtain hsame | ⟨r', rfl, -, hr'⟩ := Exchange.remote?_perform_cases environment t i e
  · rw [hsame] at hr
    exact serves_perform (h.remotes i r hr) t
  · obtain rfl : r' = r := Option.some.inj (hr'.symm.trans hr)
    exact serves_perform ht _

end Perform

theorem Followed.work (h : Tidy c) [DecidableEq ι] {k : ι} {t : Task Step} {rest : List (Task Step)}
    (hdue : ∀ t', c.Due t' → (c.work environment k t rest).Due t')
    (ht : c.exchange.far.connection.AllowsTask t) : Followed (c.work environment k t rest) := by
  intro i j hserves hatt
  rw [Crew.exchange_work, Exchange.far_perform] at *
  cases t with
  | tell event =>
    obtain hin | hended | hasked | hask :=
      attached_or_ended_or_ask (h.sorted.book j) ht (h.followed i j) hserves hatt
    · exact Or.inl hin
    · exact Or.inr (Or.inl hended)
    · exact Or.inr (Or.inr (hdue _ hasked))
    · exact Or.inr (Or.inr (Crew.due_work (List.mem_map.mpr ⟨_, hask, rfl⟩)))
  | _ =>
    obtain hin | hended | hasked := h.followed i j hserves hatt
    · exact Or.inl hin
    · exact Or.inr (Or.inl hended)
    · exact Or.inr (Or.inr (hdue _ hasked))

/-- A thread goes on with tasks that fit, and no link has changed. -/
theorem Tidy.turn [DecidableEq ι] (h : Tidy c) {k : ι} {ts : List (Task Step)}
    {e : Exchange Chronicle} (hdue : ∀ t, c.Due t → (c.turn k ts e).Due t) (he : Sorted e)
    (hstreams : e.far.connection.streams = c.exchange.far.connection.streams)
    (htold : e.far.told = c.exchange.far.told)
    (hts : ∀ t ∈ ts, e.far.connection.AllowsTask t) : Tidy (c.turn k ts e) := by
  have hlink (j : Nat) : e.far.connection.link? j = c.exchange.far.connection.link? j :=
    Connection.link?_congr hstreams j
  refine ⟨he, fun k' t ht => ?_, fun i j hserves hatt => ?_⟩
  · by_cases hk : k' = k
    · subst hk
      rw [Crew.stack_turn_self] at ht
      exact hts t ht
    · rw [Crew.stack_turn_of_ne _ _ _ hk] at ht
      refine Connection.AllowsTask.mono (fun i j hs => ?_) (h.pending k' t ht)
      obtain ⟨l, hl⟩ := hs
      exact ⟨l, (hlink j).trans hl⟩
  · obtain ⟨l, hl⟩ := hserves
    have hserves : c.exchange.far.connection.Serves i j := ⟨l, (hlink j).symm.trans hl⟩
    have hatt : c.exchange.far.Attached j := by
      rw [Attached, ← htold]
      exact hatt
    obtain hin | hended | hasked := h.followed i j hserves hatt
    · refine Or.inl ?_
      rw [Crew.exchange_turn, Connection.linkAt, hlink]
      exact hin
    · refine Or.inr (Or.inl ?_)
      rw [Crew.exchange_turn, Ended, htold]
      exact hended
    · exact Or.inr (Or.inr (hdue _ hasked))

theorem Sorted.enter {e : Exchange Chronicle} (h : Sorted e) {x : Interaction}
    (hx : x.producer.remote = none) : Sorted (e.enter x) := by
  refine ⟨h.faithful, h.book, h.routes, fun i r hr => h.remotes i r ?_⟩
  rw [Exchange.remote?, Exchange.producer?, Exchange.enter, Array.getElem?_push] at hr
  split at hr
  · rw [Option.map_some, Option.bind_some, hx] at hr
    cases hr
  · exact hr

theorem Tidy.step [DecidableEq ι] (h : Tidy c) (hstep : Crew.Step environment (rules ι) c d) :
    Tidy d := by
  have hdue : ∀ t, c.Due t → d.Due t := fun t ht => Crew.due_step hstep h.calm ht
  cases hstep with
  | @work k t rest hk hne =>
    have ht := h.pending k t (by rw [hk]; exact List.mem_cons_self)
    refine ⟨h.sorted.perform ht, fun k' t' ht' => ?_, Followed.work h hdue ht⟩
    have hmono {t' : Task Step} (ht' : c.exchange.far.connection.AllowsTask t') :
        (c.exchange.perform environment t).1.far.connection.AllowsTask t' :=
      Connection.AllowsTask.mono (fun i j hs => serves_perform hs t) ht'
    by_cases hkk : k' = k
    · subst hkk
      rw [Crew.stack_work_self] at ht'
      rcases List.mem_append.mp ht' with ht' | ht'
      · exact allowsTask_of_origin h.sorted ht (Origin.of_mem ht')
      · exact hmono (h.pending k' t' (by rw [hk]; exact List.mem_cons_of_mem _ ht'))
    · rw [Crew.stack_work_of_ne _ _ _ _ hkk] at ht'
      exact hmono (h.pending k' t' ht')
  | @panic k p rest hk =>
    exact absurd ⟨k, by rw [hk]; exact List.mem_cons_self⟩ (h.calm p)
  | @start k e ts hk hstart =>
    cases hstart with
    | channel x hp =>
      have hfresh : ∀ p, IsFresh p → p.remote = none := by
        rintro p (q | q) <;> rfl
      refine h.turn hdue (h.sorted.enter (hfresh _ hp)) rfl rfl fun t ht => ?_
      rw [List.mem_singleton.mp ht]
      trivial
    | request x kind p =>
      refine h.turn hdue (h.sorted.enter rfl) rfl rfl fun t ht => ?_
      rw [List.mem_singleton.mp ht]
      trivial
    | sever cause =>
      exact h.turn hdue ⟨h.sorted.faithful.sever cause, fun j => (h.sorted.book j).sever cause,
        h.sorted.routes, h.sorted.remotes⟩ rfl rfl (fun t ht => by cases ht)
    | own | arrive | finish | release =>
      refine h.turn hdue h.sorted rfl rfl fun t ht => ?_
      rw [List.mem_singleton.mp ht]
      trivial
  | @emit k i p emitter s hk hemit hp hs =>
    have hfar : (c.exchange.send (τ := Step) i p emitter s).1.far = c.exchange.far :=
      Exchange.far_atInteraction (τ := Step) ..
    have hremote (j : Nat) :
        (c.exchange.send (τ := Step) i p emitter s).1.remote? j = c.exchange.remote? j :=
      Exchange.remote?_send i j p emitter s c.exchange
    refine h.turn hdue ⟨?_, ?_, ?_, fun j r hr => ?_⟩ (by rw [hfar]) (by rw [hfar]) fun t ht => ?_
    · rw [hfar]
      exact h.sorted.faithful
    · rw [hfar]
      exact h.sorted.book
    · rw [hfar]
      exact h.sorted.routes
    · rw [hremote] at hr
      rw [hfar]
      exact h.sorted.remotes j r hr
    · obtain ⟨r, hr, rfl⟩ := Option.map_eq_some_iff.mp (Option.mem_toList.mp ht)
      rw [hfar]
      exact ⟨i, h.sorted.remotes i r ((Exchange.remote?_of_scripted? hp).trans hr)⟩

/-- **The invariant holds along every run.** -/
theorem tidy_of_reach [DecidableEq ι] (h : Crew.Reach environment (rules ι) start d) : Tidy d :=
  h.invariant (fun _ _ hc hstep => hc.step hstep) tidy_start

/-! ## What is to become of a refusal -/

/-- The producer's side of a stream is shut down: its link takes no more items, and a producer
that gave its subscription has ended or was told to stop. -/
structure ShutDown (j : Nat) (c : Crew ι Chronicle Step) : Prop where
  done : (c.exchange.far.connection.linkAt j).outboundDone = true
  told : ∀ i, c.exchange.far.connection.Serves i j → c.exchange.far.Attached j →
    c.exchange.far.Ended j ∨ .call (.ask i .cancel) ∈ c.done

/-- The attempt `b` is one of the link of `a`, or the cancellation of its stream. -/
def IsAlongside (a b : Attempt) : Prop :=
  b.link = a.link ∨ b.frame = .cancel a.frame.stream

/-- With the first item that is refused the producer's side of the stream is shut down, and
nothing more is written on the stream. -/
structure HandlesRefusals (j : Nat) (c : Crew ι Chronicle Step) : Prop where
  shutDown : ∀ a ∈ c.exchange.far.attemptsOf j, a.isRefusedItem = true → ShutDown j c
  silent : c.exchange.far.attempts.Pairwise fun a b =>
    a.link = some j → a.isRefusedItem = true → IsAlongside a b → b.isRefused = true

theorem HandlesRefusals.silent_attemptsOf {j : Nat} (h : HandlesRefusals j c) :
    (c.exchange.far.attemptsOf j).Pairwise fun a b =>
      a.isRefusedItem = true → b.isRefused = true := by
  refine (h.silent.filter (·.link == some j)).imp_of_mem fun ha hb hab hrefused => ?_
  have ha := eq_of_beq (List.mem_filter.mp ha).2
  have hb := eq_of_beq (List.mem_filter.mp hb).2
  exact hab ha hrefused (Or.inl (hb.trans ha.symm))

/-- The frames of a stream that were written by its link. -/
def framesOf (j : Nat) (r : Chronicle) : List Wire.Frame :=
  (r.attemptsOf j).filterMap Attempt.written?

theorem written?_of_isRefused {a : Attempt} (h : a.isRefused = true) : a.written? = none := by
  rw [Attempt.isRefused, Option.isSome_iff_exists] at h
  obtain ⟨fault, h⟩ := h
  rw [Attempt.written?, h]

theorem written?_of_not_isRefused {a : Attempt} (h : a.isRefused = false) :
    a.written? = some a.frame := by
  rw [Attempt.isRefused, Option.isSome_eq_false_iff, Option.isNone_iff_eq_none] at h
  rw [Attempt.written?, h]

theorem filterMap_written?_eq_nil {l : List Attempt} (h : ∀ a ∈ l, a.isRefused = true) :
    l.filterMap Attempt.written? = [] :=
  List.filterMap_eq_nil_iff.mpr fun a ha => written?_of_isRefused (h a ha)

/-- The items that were written are the first ones of those that were tried. -/
theorem items_isPrefix {l : List Attempt}
    (h : l.Pairwise fun a b => a.isRefusedItem = true → b.isRefused = true) :
    (l.filterMap Attempt.written?).filterMap Wire.Frame.item? <+:
      l.filterMap Attempt.item? := by
  induction l with
  | nil => exact List.prefix_refl _
  | cons a l ih =>
    obtain ⟨ha, hl⟩ := List.pairwise_cons.mp h
    cases hrefused : a.isRefused with
    | false =>
      rw [List.filterMap_cons_some (written?_of_not_isRefused hrefused)]
      cases hitem : a.item? with
      | none =>
        have hframe : a.frame.item? = none := hitem
        rw [List.filterMap_cons_none hframe, List.filterMap_cons_none hitem]
        exact ih hl
      | some p =>
        have hframe : a.frame.item? = some p := hitem
        rw [List.filterMap_cons_some hframe, List.filterMap_cons_some hitem]
        exact List.cons_prefix_cons.mpr ⟨rfl, ih hl⟩
    | true =>
      rw [List.filterMap_cons_none (written?_of_isRefused hrefused)]
      cases hitem : a.item? with
      | none =>
        rw [List.filterMap_cons_none hitem]
        exact ih hl
      | some p =>
        have hall : ∀ b ∈ l, b.isRefused = true := fun b hb =>
          ha b hb (by rw [Attempt.isRefusedItem, hitem, hrefused]; rfl)
        rw [filterMap_written?_eq_nil hall]
        exact List.nil_prefix

theorem opensFirst_written {l : List Attempt} (hfirst : OpensFirst l)
    (h : l.Pairwise fun a b => a.isRefusedItem = true → b.isRefused = true) {f : Wire.Frame}
    {fs : List Wire.Frame} (hf : l.filterMap Attempt.written? = f :: fs) :
    f.isOpening = true ∧ ∀ g ∈ fs, g.isOpening = false := by
  cases l with
  | nil => cases hf
  | cons a l =>
    obtain ⟨hopen, hrest⟩ := hfirst a l rfl
    cases hrefused : a.isRefused with
    | false =>
      rw [List.filterMap_cons_some (written?_of_not_isRefused hrefused)] at hf
      obtain ⟨rfl, rfl⟩ := List.cons.inj hf
      refine ⟨hopen, fun g hg => ?_⟩
      obtain ⟨b, hb, hbg⟩ := List.mem_filterMap.mp hg
      cases hb' : b.isRefused with
      | false =>
        rw [written?_of_not_isRefused hb'] at hbg
        rw [← Option.some.inj hbg]
        exact hrest b hb
      | true =>
        rw [written?_of_isRefused hb'] at hbg
        cases hbg
    | true =>
      have hitem : a.isRefusedItem = true := by
        rw [Attempt.isRefusedItem, hrefused, Bool.and_true]
        cases hi : a.item? with
        | some p => rfl
        | none =>
          rw [Wire.Frame.isOpening_of_item? hi] at hopen
          cases hopen
      rw [List.filterMap_cons_none (written?_of_isRefused hrefused),
        filterMap_written?_eq_nil fun b hb => (List.pairwise_cons.mp h).1 b hb hitem] at hf
      cases hf

/-- **What becomes of refusals.**  Whatever the threads at a connection do and in whichever order,
once all is quiet:

* With the first item that is refused the producer's side of a stream is shut down, and nothing
  more is written on the stream, exactly if its producer has ended or was dismissed by the reader
  in case an item was refused, and nothing was written after an item that was too large.
* If so, the items on the wire are the first ones of those that were sent, and no frame of the
  stream is on the wire without the frame that opens the channel.
* What is on the wire are the frames that were tried and not refused, and all items among them
  were tried by links. -/
theorem handlesRefusals_iff [DecidableEq ι] (hrun : Crew.Reach environment (rules ι) start d)
    (hquiet : d.Quiet) (j : Nat) :
    (HandlesRefusals j d ↔
      ((∃ a ∈ d.exchange.far.attemptsOf j, a.isRefusedItem = true) →
        d.exchange.far.Ended j ∨ d.exchange.far.Dismissed j) ∧
      d.exchange.far.attempts.Pairwise fun a b =>
        a.link = some j → a.isRefusedItem = true → a.isOversize = true → IsAlongside a b →
          b.isRefused = true) ∧
    (HandlesRefusals j d →
      (d.exchange.far.framesOf j).filterMap Wire.Frame.item? <+: d.exchange.far.sentTo j ∧
      ∀ f fs, d.exchange.far.framesOf j = f :: fs →
        f.isOpening = true ∧ ∀ g ∈ fs, g.isOpening = false) ∧
    d.exchange.far.connection.written = d.exchange.far.attempts.filterMap Attempt.written? ∧
    ∀ a ∈ d.exchange.far.attempts, a.item? ≠ none → ∃ k, a.link = some k := by
  have htidy := tidy_of_reach hrun
  have hbook := htidy.sorted.book j
  have hfaithful := htidy.sorted.faithful
  refine ⟨⟨fun h => ⟨?_, ?_⟩, fun ⟨hover, hlarge⟩ => ⟨?_, ?_⟩⟩, fun h => ⟨?_, ?_⟩,
    hfaithful.written, fun a ha hitem => ?_⟩
  · rintro ⟨a, ha, hrefused⟩
    exact hbook.done.mp (h.shutDown a ha hrefused).done
  · exact h.silent.imp fun hab hlink hrefused _ => hab hlink hrefused
  · intro a ha hrefused
    have hdone := hbook.done.mpr (hover ⟨a, ha, hrefused⟩)
    refine ⟨hdone, fun i hserves hatt => ?_⟩
    obtain hin | hended | hasked := htidy.followed i j hserves hatt
    · rw [hbook.attached hdone] at hin
      cases hin
    · exact Or.inl hended
    · exact Or.inr (hquiet.mem_done hasked)
  · refine (hfaithful.silent.and hlarge).imp fun {a b} hab hlink hrefused halong => ?_
    cases hsize : a.isOversize with
    | true => exact hab.2 hlink hrefused hsize halong
    | false =>
      rw [Attempt.isRefusedItem, Bool.and_eq_true] at hrefused
      exact hab.1 hrefused.2 hsize
  · obtain ⟨late, hsent, -⟩ := hbook.sent
    rw [hsent]
    exact (items_isPrefix h.silent_attemptsOf).trans (List.prefix_append _ _)
  · intro f fs hf
    exact opensFirst_written hbook.opening h.silent_attemptsOf hf
  · cases hk : a.link with
    | some k => exact ⟨k, rfl⟩
    | none => exact absurd (hfaithful.items a ha hk) hitem

/-! ## Closing and opening at the same time -/

/-- The reader is about to find the connection ended, and a script is about to open a channel. -/
def closing : Crew Bool Chronicle Step :=
  (start.turn true [.call (.resume (.close "connection closed by peer"))] { far := {} }).turn
    false [.tell (.openedChannel 0 0)]
    (Exchange.enter
      { receiver := .payloads { label := "channel", initialDemand := 1 }
        producer := .scripted { initial := .pending ⟨"a", "b"⟩ } }
      { far := {} })

theorem reach_closing : Crew.Reach environment (rules Bool) start closing := by
  have hclose : Crew.Step environment (rules Bool) start
      (start.turn true [.call (.resume (.close "connection closed by peer"))] { far := {} }) :=
    .start rfl (Starts.finish "connection closed by peer")
  exact (Relation.ReflTransGen.single hclose).tail
    (.start rfl (Starts.channel _ (.scripted ⟨"a", "b"⟩)))

/-- The attempt to open the channel once the connection is closed. -/
def refusedOpening : Attempt where
  link := some 0
  frame := .requestChannel 1 1 ⟨"a", "b"⟩
  fault := some .connectionClosed

/-- The reader closes the connection, but empties the route table only when the channel is in it
and its initial payload was refused. -/
def dismissed : Crew Bool Chronicle Step :=
  closing.play environment
    (List.replicate 2 true ++ List.replicate 14 false ++ List.replicate 6 true)

/-- The reader is done with the connection when the channel is opened. -/
def forgotten : Crew Bool Chronicle Step :=
  closing.play environment (List.replicate 4 true ++ List.replicate 14 false)

theorem dismissed_eq :
    ((dismissed.stack true).isEmpty = true ∧ (dismissed.stack false).isEmpty = true) ∧
      dismissed.exchange.far.attempts = [refusedOpening] ∧
      dismissed.exchange.far.told.any (dismisses 0) = true := by
  decide +kernel

theorem forgotten_eq :
    ((forgotten.stack true).isEmpty = true ∧ (forgotten.stack false).isEmpty = true) ∧
      forgotten.exchange.far.attempts = [refusedOpening] ∧
      (forgotten.exchange.far.connection.linkAt 0).outboundDone = false := by
  decide +kernel

theorem quiet_of_isEmpty {c : Crew Bool Chronicle Step}
    (h : (c.stack true).isEmpty = true ∧ (c.stack false).isEmpty = true) : c.Quiet := by
  rintro (_ | _)
  · exact List.isEmpty_iff.mp h.2
  · exact List.isEmpty_iff.mp h.1

theorem handlesRefusals_dismissed :
    Crew.Reach environment (rules Bool) start dismissed ∧ dismissed.Quiet ∧
      (∃ a ∈ dismissed.exchange.far.attemptsOf 0, a.isRefusedItem = true) ∧
      HandlesRefusals 0 dismissed := by
  obtain ⟨hempty, hattempts, htold⟩ := dismissed_eq
  have hrun : Crew.Reach environment (rules Bool) start dismissed :=
    reach_closing.trans (Crew.reach_play ..)
  have hquiet : dismissed.Quiet := quiet_of_isEmpty hempty
  have hrefused : ∃ a ∈ dismissed.exchange.far.attemptsOf 0, a.isRefusedItem = true := by
    rw [attemptsOf, hattempts]
    exact ⟨refusedOpening, by decide, by decide⟩
  refine ⟨hrun, hquiet, hrefused, (handlesRefusals_iff hrun hquiet 0).1.mpr ⟨fun _ => ?_, ?_⟩⟩
  · exact Or.inr (List.any_eq_true.mp htold)
  · rw [hattempts]
    exact List.pairwise_singleton ..

/-- **A channel that is opened on a closed connection is not shut down**, as the reader does not
find it any more: its producer waits for a demand that cannot come. -/
theorem not_handlesRefusals_forgotten :
    ¬ ∀ d : Crew Bool Chronicle Step, Crew.Reach environment (rules Bool) start d → d.Quiet →
      ∀ j, HandlesRefusals j d := by
  intro h
  obtain ⟨hempty, hattempts, hdone⟩ := forgotten_eq
  have hrun : Crew.Reach environment (rules Bool) start forgotten :=
    reach_closing.trans (Crew.reach_play ..)
  have hmem : refusedOpening ∈ forgotten.exchange.far.attemptsOf 0 := by
    rw [attemptsOf, hattempts]
    decide
  have hshut := ((h forgotten hrun (quiet_of_isEmpty hempty) 0).shutDown _ hmem (by decide)).done
  rw [hdone] at hshut
  cases hshut

end Chronicle
end Client
end StreamConformance
