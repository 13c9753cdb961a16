import StreamConformance.Proofs.Channel.Credit
import StreamConformance.Proofs.Client.Cancellations
import StreamConformance.Proofs.Responder.Channels
import StreamConformance.Proofs.Standing

/-!
# How many items the producer of a channel sends

The producer of a channel is asked for one item when it gives its subscription, as the opening frame
needs one.  From then on it is asked for as many as the peer grants, and what it is asked for goes
through several hands before an item goes out: it is set aside while the initial payload is being
delivered, passed on to the emitter, or kept by the echo.  No unit of it is used twice.

* `room`: the room for items that a task carries; `Producer.stock`: what a producer keeps.
* `Exchange.SectionConserves`, `Exchange.room_perform_le`, `Connection.rations_of_allowsEvent`:
  neither the sections of a producer nor those of its peer make more of it, but that the peer grants
  some.
* `Chronicle.length_sentTo_le`: a producer sends no more items than the first and those that the
  peer has granted.
-/

namespace StreamConformance

/-- The room for items that a producer keeps. -/
def Producer.stock : Producer → Nat
  | .scripted p =>
    (match p.initial with
      | .emitting deferred => deferred
      | _ => 0) + p.emitter.demand
  | .echo p => p.echo.demand
  | _ => 0

namespace Client

/-- The room for items of the producer `i` that a task carries, where the stream object `j` is the
peer of that producer. -/
def room (i j : Nat) : Task Step → Nat
  | .call (.attach _ r) | .tell (.attached r _) | .tell (.heard r (.next _)) =>
    if r.stream = j then 1 else 0
  | .call (.resume (.askProducer j' n)) | .tell (.resumed (.askProducer j' n)) =>
    if j' = j then n else 0
  | .call (.ask i' (.request n)) | .passOn i' (.request n) => if i' = i then n else 0
  | .settle i' n => if i' = i then n - 1 else 0
  | _ => 0

/-- Whether a stream object is told an item, as a number. -/
def delivery (j : Nat) : Task Step → Nat
  | .tell (.heard r (.next _)) => if r.stream = j then 1 else 0
  | _ => 0

end Client

/-! ## The sections of a producer -/

namespace Exchange

open Client (room Step)
open Crew (weight)

variable {i j : Nat} {t : Task Step}

/-- A section of an interaction makes no more room: what is carried by the tasks that it leaves and
what the producer keeps is no more than what the task `t` carries and what the producer kept. -/
def SectionConserves (i j : Nat) (t : Task Step)
    (f : Interaction → Interaction × List (Task Step)) : Prop :=
  ∀ x, weight (room i j) (f x).2 + (f x).1.producer.stock ≤ room i j t + x.producer.stock

theorem room_attach_le (i' : Nat) (r : Handle) (x : Interaction) :
    weight (room i j) (attach i' r x).2 ≤ room i j (.call (.attach i' r)) := by
  rcases x with ⟨c, _ | p | p | p⟩ <;> simp only [attach]
  · exact Nat.zero_le _
  · split
    · exact Nat.zero_le _
    · simp [room]
  · split
    · exact Nat.zero_le _
    · simp [room]
  · split
    · exact Nat.zero_le _
    · split <;> simp [room]

theorem stock_attach (i' : Nat) (r : Handle) (x : Interaction) :
    (attach (τ := Step) i' r x).1.producer.stock = x.producer.stock := by
  rcases x with ⟨c, _ | p | p | p⟩ <;> simp only [attach]
  · split <;> rfl
  · split <;> rfl
  · split <;> rfl

theorem conserves_attach (r : Handle) : SectionConserves i j (.call (.attach i r)) (attach i r) :=
  fun x => Nat.add_le_add (room_attach_le i r x) (stock_attach i r x).le

/-- Demand brings out the initial payload, or is set aside, or is passed on. -/
theorem conserves_askScripted (n : Nat) (p : ScriptedProducer) :
    weight (room i j) (askScripted i (.request n) p).2 +
        (Producer.scripted (askScripted (τ := Step) i (.request n) p).1).stock ≤
      n + (Producer.scripted p).stock := by
  rw [askScripted_request]
  rcases p with ⟨initial, emitter, remote, gate⟩
  by_cases hn : n = 0
  · subst hn
    exact Nat.le_refl _
  cases initial with
  | pending payload =>
    rw [InitialPayload.request_pending hn]
    cases remote with
    | none =>
      simp [room, Producer.stock]
    | some r =>
      simp only [Option.map_some, Option.toList_some, List.cons_append, List.nil_append,
        Crew.weight_cons, Crew.weight_nil, room, Producer.stock, if_true]
      split
      · omega
      · omega
  | emitting deferred =>
    have hle := Demand.add_le deferred n
    rw [InitialPayload.request_emitting hn]
    simp only [Crew.weight_nil, Producer.stock]
    omega
  | sent =>
    rw [InitialPayload.request_sent hn]
    simp [room, Producer.stock]

theorem conserves_ask (n : Nat) :
    SectionConserves i j (.call (.ask i (.request n))) (askProducer i (.request n)) := by
  have hroom : room i j (.call (.ask i (.request n))) = n := if_pos rfl
  rintro ⟨c, _ | p | p | p⟩
  · exact Nat.le_add_left _ _
  · rw [hroom]
    exact conserves_askScripted n p
  · rw [hroom]
    have hle := Demand.add_le p.echo.demand n
    simp only [askProducer, askEcho, Echo.request, Producer.stock, Crew.weight_cons,
      Crew.weight_nil, room]
    omega
  · exact Nat.le_add_left _ _

theorem conserves_ask_cancel :
    SectionConserves i j (.call (.ask i .cancel)) (askProducer i .cancel) := by
  rintro ⟨c, _ | p | p | p⟩
  · exact Nat.le_refl _
  · simp only [askProducer, askScripted, InitialPayload.cancel, Producer.stock, Crew.weight_cons,
      Crew.weight_nil, room]
    omega
  · exact Nat.le_refl _
  · exact Nat.le_refl _

/-- What is left of the demand that brought out the initial payload, and what was set aside
meanwhile, is passed on. -/
theorem conserves_settle (n : Nat) (p : ScriptedProducer) :
    weight (room i j) (if 0 < (p.initial.settle n).2 then
        [.passOn i (.request (p.initial.settle n).2)] else []) +
        (Producer.scripted { p with initial := (p.initial.settle n).1 }).stock ≤
      room i j (.settle i n) + (Producer.scripted p).stock := by
  have hleft : weight (room i j) (if 0 < (p.initial.settle n).2 then
      [.passOn i (.request (p.initial.settle n).2)] else []) = (p.initial.settle n).2 := by
    split
    · simp [room]
    · exact (Nat.eq_zero_of_not_pos ‹_›).symm
  have hroom : room i j (.settle i n) = n - 1 := if_pos rfl
  rw [hleft, hroom]
  rcases p with ⟨_ | deferred | _, emitter, remote, gate⟩
  · simp [InitialPayload.settle, Producer.stock]
  · have hle := Demand.add_le (n - 1) deferred
    simp only [InitialPayload.settle, Producer.stock]
    omega
  · simp [InitialPayload.settle, Producer.stock]

theorem conserves_passOn (a : Ask) (p : ScriptedProducer) :
    (Producer.scripted { p with emitter := p.emitter.ask a }).stock ≤
      room i j (.passOn i a) + (Producer.scripted p).stock := by
  cases a with
  | cancel => exact Nat.le_add_left _ _
  | request n =>
    have hle := Demand.add_le p.emitter.demand n
    have hroom : room i j (.passOn i (.request n)) = n := if_pos rfl
    rw [hroom]
    simp only [Producer.stock, Emitter.ask]
    omega

theorem conserves_drainNext (p : EchoProducer) :
    weight (room i j) (drainNext i p).2 + (Producer.echo (drainNext (τ := Step) i p).1).stock ≤
      room i j (.drainNext i) + (Producer.echo p).stock := by
  have hle := p.echo.length_takeNext_le
  have hroom : room i j (.drainNext i) = 0 := rfl
  rw [Producer.stock, Producer.stock, echo_drainNext, hroom, Nat.zero_add]
  refine Nat.le_trans (Nat.add_le_add_right ?_ _) hle
  unfold drainNext
  split
  · exact Nat.zero_le _
  · rename_i echo item htake
    rw [htake]
    split
    · simp only [Crew.weight_cons, Crew.weight_nil, room]
      split <;> simp
    · simp [room]

/-! ### The section of a task -/

/-- The room for items that the producer of an interaction keeps. -/
def stock {σ : Type} (i : Nat) (e : Exchange σ) : Nat :=
  ((e.producer? i).map Producer.stock).getD 0

theorem stock_congr {σ : Type} {e e' : Exchange σ} (h : e'.producer? i = e.producer? i) :
    e'.stock i = e.stock i := by
  rw [stock, h, stock]

section Perform

variable {σ : Type} {e : Exchange σ}

theorem room_atInteraction_le {f : Interaction → Interaction × List (Task Step)}
    (hf : SectionConserves i j t f) (e : Exchange σ) :
    weight (room i j) (e.atInteraction i f).2 + (e.atInteraction i f).1.stock i ≤
      room i j t + e.stock i := by
  cases hx : e.interactions[i]? with
  | none =>
    rw [atInteraction, hx]
    exact Nat.add_le_add_right (Nat.zero_le _) _
  | some x =>
    rw [atInteraction_eq hx, stock, producer?, getElem?_put_self hx, stock, producer?, hx]
    exact hf x

theorem room_atScripted_le {f : ScriptedProducer → ScriptedProducer × List (Task Step)}
    (hf : ∀ p, weight (room i j) (f p).2 + (Producer.scripted (f p).1).stock ≤
      room i j t + (Producer.scripted p).stock) (e : Exchange σ) :
    weight (room i j) (e.atScripted i f).2 + (e.atScripted i f).1.stock i ≤
      room i j t + e.stock i := by
  refine room_atInteraction_le ?_ e
  rintro ⟨c, _ | p | p | p⟩
  · exact Nat.add_le_add_right (Nat.zero_le _) _
  · exact hf p
  · exact Nat.add_le_add_right (Nat.zero_le _) _
  · exact Nat.add_le_add_right (Nat.zero_le _) _

theorem room_atEcho_le {f : EchoProducer → EchoProducer × List (Task Step)}
    (hf : ∀ p, weight (room i j) (f p).2 + (Producer.echo (f p).1).stock ≤
      room i j t + (Producer.echo p).stock) (e : Exchange σ) :
    weight (room i j) (e.atEcho i f).2 + (e.atEcho i f).1.stock i ≤ room i j t + e.stock i := by
  refine room_atInteraction_le ?_ e
  rintro ⟨c, _ | p | p | p⟩
  · exact Nat.add_le_add_right (Nat.zero_le _) _
  · exact Nat.add_le_add_right (Nat.zero_le _) _
  · exact hf p
  · exact Nat.add_le_add_right (Nat.zero_le _) _

/-- **A section of a producer makes no more room for items.** -/
theorem room_section_le (env : Environment σ Step) (ht : t.producer? = some i) (e : Exchange σ) :
    weight (room i j) (e.perform env t).2 + (e.perform env t).1.stock i ≤
      room i j t + e.stock i := by
  cases t with
  | call cl =>
    cases cl with
    | attach i' r =>
      obtain rfl := Option.some.inj ht
      exact room_atInteraction_le (conserves_attach r) e
    | ask i' a =>
      obtain rfl := Option.some.inj ht
      cases a with
      | request n => exact room_atInteraction_le (conserves_ask n) e
      | cancel => exact room_atInteraction_le conserves_ask_cancel e
    | subscribed | signal | resume | raise => cases ht
  | settle i' n =>
    obtain rfl := Option.some.inj ht
    exact room_atScripted_le (conserves_settle n) e
  | passOn i' a =>
    obtain rfl := Option.some.inj ht
    refine room_atScripted_le (fun p => ?_) e
    rw [Crew.weight_nil, Nat.zero_add]
    exact conserves_passOn a p
  | openGate i' r =>
    obtain rfl := Option.some.inj ht
    exact room_atScripted_le (fun p => Nat.add_le_add_right (Nat.zero_le _) _) e
  | push i' item =>
    obtain rfl := Option.some.inj ht
    refine room_atEcho_le (fun p => ?_) e
    rw [Producer.stock, p.echo.demand_push]
    refine Nat.add_le_add_right ?_ _
    split <;> simp [room]
  | drain i' =>
    obtain rfl := Option.some.inj ht
    refine room_atEcho_le (fun p => ?_) e
    rw [Producer.stock, p.echo.demand_beginDrain]
    refine Nat.add_le_add_right ?_ _
    split <;> simp [room]
  | drainNext i' =>
    obtain rfl := Option.some.inj ht
    exact room_atEcho_le conserves_drainNext e
  | tell event => cases ht
  | own i' a => cases ht

/-- Neither do the sections of another producer, of which the stream object is not the peer. -/
theorem room_perform_of_ne_le {env : Environment σ Step} (ht : t.producer? ≠ some i)
    (htell : ∀ event, t ≠ .tell event)
    (hpeer : ∀ i' r, e.remote? i' = some r → r.stream = j → i' = i) :
    weight (room i j) (e.perform env t).2 ≤ room i j t := by
  by_cases hattach : ∃ i' r, t = .call (.attach i' r)
  · obtain ⟨i', r, rfl⟩ := hattach
    show weight _ (e.atInteraction i' (attach i' r)).2 ≤ _
    unfold atInteraction
    split
    · exact Nat.zero_le _
    · exact room_attach_le i' r _
  by_cases hresume : ∃ s, t = .call (.resume s)
  · obtain ⟨s, rfl⟩ := hresume
    show weight _ [.tell (.resumed s)] ≤ _
    rw [Crew.weight_cons, Crew.weight_nil]
    cases s <;> exact Nat.le_refl _
  rw [Crew.weight_eq_zero fun t' hmem => ?_]
  · exact Nat.zero_le _
  have hother {i' : Nat} (ht' : t.producer? = some i') : i' ≠ i := fun h => ht (h ▸ ht')
  cases Origin.of_mem hmem with
  | call => exact absurd rfl (htell _)
  | resumed s => exact absurd ⟨s, rfl⟩ hresume
  | attached r => exact absurd ⟨_, r, rfl⟩ hattach
  | heard s ht' hr =>
    cases s with
    | next p => exact if_neg fun hj => hother ht' (hpeer _ _ hr hj)
    | complete | error => rfl
  | settle n ht' => exact if_neg (hother ht')
  | passOn a ht' =>
    cases a with
    | request n => exact if_neg (hother ht')
    | cancel => rfl
  | asked | copied | openGate | push | drain | drainNext => rfl

/-- **No section of the near side makes more room for the items of a producer.** -/
theorem room_perform_le (env : Environment σ Step) (htell : ∀ event, t ≠ .tell event)
    (hpeer : ∀ i' r, e.remote? i' = some r → r.stream = j → i' = i) :
    weight (room i j) (e.perform env t).2 + (e.perform env t).1.stock i ≤
      room i j t + e.stock i := by
  by_cases ht : t.producer? = some i
  · exact room_section_le env ht e
  · rw [stock_congr (producer?_perform env ht e)]
    exact Nat.add_le_add_right (room_perform_of_ne_le ht htell hpeer) _

end Perform

end Exchange

/-! ## The peer of a producer -/

namespace Client

open Crew (Move Turns weight)
open Wire (Frame demands onStream)

namespace Connection

variable {c : Connection} {i j : Nat} {l : Link} {e : Event Step}

theorem calls_askProducer (h : c.link? j = some (i, l)) (n : Nat) :
    (c.react (.resumed (.askProducer j n))).2 =
      if l.attached then [.ask i (.request n)] else [] := by
  obtain ⟨s, hs, rfl, hl⟩ := link?_eq_some.mp h
  simp only [react, step, atLink, atStream, hs, hl]

theorem calls_receive_requestN (id : UInt32) (n : Nat) :
    (c.react (.resumed (.receive (.requestN id n)))).2 =
      ((c.routes.outbound? id).map fun j => .resume (.askProducer j n)).toList :=
  rfl

/-- The room that the peer grants by an event for the items of the stream object `j`. -/
def grantOn (j : Nat) (e : Event Step) (c : Connection) : Nat :=
  match e with
  | .resumed (.receive (.requestN id n)) => if c.routes.outbound? id = some j then n else 0
  | _ => 0

/-- The room for items of the producer `i`, of which the stream object `j` is the peer: what is
handed on by the calls on an event is no more than what the event carries, but that a channel is
opened or the peer grants some. -/
def Rations (i j : Nat) (e : Event Step) (c : Connection) : Prop :=
  weight (room i j) ((c.react e).2.map .call) + delivery j (.tell e) + c.present j ≤
    room i j (.tell e) + (c.react e).1.present j + c.grantOn j e

theorem rations_of_weight_le
    (h : weight (room i j) ((c.react e).2.map .call) + delivery j (.tell e) ≤
      room i j (.tell e) + c.grantOn j e) : c.Rations i j e := by
  have hpresent := present_react_le e j c
  rw [Rations]
  omega

/-- A channel is opened: its producer is about to be attached to a new stream object. -/
theorem rations_openedChannel (n i' : Nat) : c.Rations i j (.openedChannel n i') := by
  have hlength : (c.react (.openedChannel n i')).1.labels.length = c.labels.length + 1 := by
    rw [labels_react, List.length_append]
    rfl
  have hcalls : weight (room i j) ((c.react (.openedChannel n i')).2.map .call) =
      if c.labels.length = j then 1 else 0 := by
    rw [length_labels]
    simp [react, openedChannel, addStream, room]
  have hdelivery : delivery j (.tell (.openedChannel n i')) = 0 := rfl
  rw [Rations, hcalls, hdelivery, present, present, hlength]
  split <;> split <;> split <;> omega

/-- The peer grants some. -/
theorem rations_requestN (id : UInt32) (n : Nat) :
    c.Rations i j (.resumed (.receive (.requestN id n))) := by
  have hcalls : weight (room i j) ((c.react (.resumed (.receive (.requestN id n)))).2.map .call) =
      c.grantOn j (.resumed (.receive (.requestN id n))) := by
    rw [calls_receive_requestN, grantOn]
    cases c.routes.outbound? id with
    | none => rfl
    | some j' => simp [room]
  have hdelivery : delivery j (.tell (.resumed (.receive (.requestN id n)))) = 0 := rfl
  refine rations_of_weight_le ?_
  rw [hcalls, hdelivery]
  exact Nat.le_add_left _ _

section Sole

variable (hsole : ∀ j', c.Serves i j' → j' = j)
include hsole

/-- What concerns another link concerns another producer. -/
theorem room_ask_of_ne {i' j' : Nat} {l : Link} (hj : j' ≠ j) (hl : c.link? j' = some (i', l))
    (a : Ask) : room i j (.call (.ask i' a)) = 0 := by
  cases a with
  | cancel => rfl
  | request n =>
    refine if_neg ?_
    rintro rfl
    exact hj (hsole j' ⟨l, hl⟩)

/-- A producer gives its subscription: it is asked for one item at most. -/
theorem rations_attached {r : Handle} {n : Nat} {l : Link} (hl : c.link? r.stream = some (n, l)) :
    c.Rations i j (.attached r n) := by
  have hdelivery : delivery j (.tell (.attached r n)) = 0 := rfl
  refine rations_of_weight_le ?_
  rw [calls_attached hl, hdelivery, List.map_singleton, Crew.weight_cons, Crew.weight_nil]
  by_cases hj : r.stream = j
  · have hone : room i j (.tell (.attached r n)) = 1 := if_pos hj
    have hle : room i j (.call (.ask n l.attach.2)) ≤ 1 := by
      unfold Link.attach
      split
      · exact Nat.zero_le _
      · simp only [room]
        split <;> omega
    omega
  · rw [room_ask_of_ne hsole hj hl]
    exact Nat.zero_le _

/-- What the peer grants is passed on. -/
theorem rations_askProducer {j' n i' : Nat} {l : Link} (hl : c.link? j' = some (i', l)) :
    c.Rations i j (.resumed (.askProducer j' n)) := by
  have hdelivery : delivery j (.tell (.resumed (.askProducer j' n))) = 0 := rfl
  refine rations_of_weight_le ?_
  rw [calls_askProducer hl, hdelivery]
  cases l.attached with
  | false => exact Nat.zero_le _
  | true =>
    rw [if_pos rfl, List.map_singleton, Crew.weight_cons, Crew.weight_nil]
    by_cases hj : j' = j
    · have hroom : room i j (.tell (.resumed (.askProducer j' n))) = n := if_pos hj
      have hle : room i j (.call (.ask i' (.request n))) ≤ n := by
        simp only [room]
        split <;> omega
      omega
    · rw [room_ask_of_ne hsole hj hl]
      exact Nat.zero_le _

/-- **A connection hands on no more room for items than there is.** -/
theorem rations_of_allowsEvent (he : c.AllowsEvent e) : c.Rations i j e := by
  by_cases hattached : ∃ r n, e = .attached r n
  · obtain ⟨r, n, rfl⟩ := hattached
    have hserves : c.Serves n r.stream := he
    obtain ⟨l, hl⟩ := hserves
    exact rations_attached hsole hl
  by_cases hask : ∃ j' n i' l, e = .resumed (.askProducer j' n) ∧ c.link? j' = some (i', l)
  · obtain ⟨j', n, i', l, rfl, hl⟩ := hask
    exact rations_askProducer hsole hl
  by_cases hopened : ∃ n i', e = .openedChannel n i'
  · obtain ⟨n, i', rfl⟩ := hopened
    exact rations_openedChannel n i'
  by_cases hgrant : ∃ id n, e = .resumed (.receive (.requestN id n))
  · obtain ⟨id, n, rfl⟩ := hgrant
    exact rations_requestN id n
  refine rations_of_weight_le ?_
  rw [Crew.weight_eq_zero fun t ht => ?_, Nat.zero_add]
  · refine Nat.le_add_right_of_le ?_
    cases e with
    | heard r s => cases s <;> exact Nat.le_refl _
    | _ => exact Nat.zero_le _
  · obtain ⟨cl, hcl, rfl⟩ := List.mem_map.mp ht
    cases makes_of_mem hcl with
    | attach n i' => exact absurd ⟨n, i', rfl⟩ hopened
    | ask _ _ h =>
      obtain ⟨r, n, rfl⟩ := h
      exact absurd ⟨r, n, rfl⟩ hattached
    | askRequest hl => exact absurd ⟨_, _, _, _, rfl, hl⟩ hask
    | askProducer n => exact absurd ⟨_, n, rfl⟩ hgrant
    | _ => rfl

end Sole

end Connection

namespace Chronicle

variable {ι : Type} {c d : Crew ι Chronicle Step} {e e' : Exchange Chronicle} {k : ι} {i j : Nat}
  {l : Label} {old new : List (Task Step)}

/-- The room for the items of a producer: it is on its way, or kept by the producer, or used by an
item that the peer is told. -/
def credit (i j : Nat) : Tally Chronicle Step where
  carried _ := room i j
  kept := Exchange.stock i
  used := delivery j

/-- The demand that the peer has granted on a channel since its link was entered into the table. -/
def demanded (j : Nat) (l : Label) (r : Chronicle) : Nat :=
  demands (onStream l.id (r.framesSince j))

/-- An interaction that is opened adds nothing. -/
theorem stock_enter {x : Interaction} (hx : x.producer.stock = 0) (e : Exchange Chronicle) :
    (e.enter x).stock i = e.stock i := by
  rw [Exchange.stock, Exchange.producer?, Exchange.enter, Array.getElem?_push, Exchange.stock,
    Exchange.producer?]
  split
  · subst i
    simp [hx]
  · rfl

theorem stock_of_isFresh {p : Producer} (h : IsFresh p) : p.stock = 0 := by
  cases h <;> rfl

/-- The script of a producer uses one unit for an item that it sends. -/
theorem stock_send_le {i' : Nat} {p : ScriptedProducer} {emitter : Emitter} {s : Signal Payload}
    (hp : e.scripted? i' = some p) (hs : p.emitter.emit s = .sent emitter)
    (hpeer : ∀ i' r, e.remote? i' = some r → r.stream = j → i' = i) :
    weight (room i j) (e.send i' p emitter s).2 + (e.send (τ := Step) i' p emitter s).1.stock i ≤
      e.stock i := by
  obtain ⟨hp', hnew⟩ := Exchange.send_of_scripted? (τ := Step) hp emitter s
  rw [hnew]
  have hroom (r : Handle) : room i j (.tell (.heard r s)) ≤ s.item?.toList.length := by
    cases s with
    | next p =>
      simp only [room]
      split <;> simp [Signal.item?]
    | complete | error => exact Nat.zero_le _
  by_cases hi : i' = i
  · subst hi
    have hbefore : e.stock i' = (Producer.scripted p).stock := by
      rw [Exchange.stock, Exchange.scripted?_eq_some.mp hp]
      rfl
    have hafter : (e.send (τ := Step) i' p emitter s).1.stock i' =
        (Producer.scripted { p with emitter := emitter }).stock := by
      rw [Exchange.stock, Exchange.scripted?_eq_some.mp hp']
      rfl
    have hdemand := Emitter.demand_of_sent hs
    rw [hbefore, hafter]
    simp only [Producer.stock]
    cases p.remote with
    | none =>
      simp only [Option.map_none, Option.toList_none, Crew.weight_nil]
      omega
    | some r =>
      have hle := hroom r
      simp only [Option.map_some, Option.toList_some, Crew.weight_cons, Crew.weight_nil]
      omega
  · rw [Exchange.stock_congr (Exchange.producer?_send_of_ne (τ := Step) hi p emitter s e),
      Crew.weight_eq_zero fun t ht => ?_, Nat.zero_add]
    obtain ⟨r, hr, rfl⟩ := Option.map_eq_some_iff.mp (Option.mem_toList.mp ht)
    cases s with
    | next p' =>
      exact if_neg fun hj => hi (hpeer i' r ((Exchange.remote?_of_scripted? hp).trans hr) hj)
    | complete | error => rfl

/-- What is performed uses no more room than there was, and hands on the rest, but for what the peer
grants: `n` is what it had granted before, and `n'` what it has granted since. -/
theorem credit_perform_le {t : Task Step} {n n' : Nat}
    (hsole : ∀ j', e.far.connection.Serves i j' → j' = j)
    (hpeer : ∀ i' r, e.remote? i' = some r → r.stream = j → i' = i)
    (hallows : e.far.connection.AllowsTask t) (hmore : n ≤ n')
    (hgrant : ∀ event, t = .tell event → e.far.connection.grantOn j event + n ≤ n') :
    weight (room i j) (e.perform environment t).2 + (e.perform environment t).1.stock i +
        delivery j t + (e.far.connection.present j + n) ≤
      room i j t + e.stock i +
        ((e.perform environment t).1.far.connection.present j + n') := by
  by_cases ht : ∃ event, t = .tell event
  · obtain ⟨event, rfl⟩ := ht
    have hrations := Connection.rations_of_allowsEvent hsole hallows
    have hgranted := hgrant event rfl
    have hstock : (e.perform environment (.tell event)).1.stock i = e.stock i := rfl
    have hnew : (e.perform environment (.tell event)).2 =
      (e.far.connection.react event).2.map .call := rfl
    have hfar : (e.perform environment (.tell event)).1.far.connection =
      (e.far.connection.react event).1 := rfl
    rw [Connection.Rations] at hrations
    rw [hstock, hnew, hfar]
    omega
  · have hne : ∀ event, t ≠ .tell event := fun event h => ht ⟨event, h⟩
    have hle := Exchange.room_perform_le environment hne hpeer
    have hzero : delivery j t = 0 := by
      unfold delivery
      split
      · exact absurd rfl (hne _)
      · rfl
    rw [Exchange.far_perform_of_ne environment hne]
    omega

/-- What is begun makes no room, and no stream object. -/
theorem credit_starts {ts : List (Task Step)} (h : Starts e e' ts) :
    weight (room i j) ts + e'.stock i = e.stock i ∧
      e'.far.connection.present j = e.far.connection.present j := by
  cases h with
  | sever cause => exact ⟨Nat.zero_add _, rfl⟩
  | channel x hfresh =>
    refine ⟨?_, rfl⟩
    rw [stock_enter (stock_of_isFresh hfresh)]
    simp [room]
  | request =>
    refine ⟨?_, rfl⟩
    rw [stock_enter rfl]
    simp [room]
  | own | arrive | finish | release => simp [room]

/-- What the peer has granted it has granted for good. -/
theorem demanded_le_move (h : Move environment (newRules ι) k e old new e') :
    e.far.demanded j l ≤ e'.far.demanded j l := by
  by_cases hj : e.far.Registered j
  · rw [demanded, demanded, framesSince, framesSince, since_move h hj, List.filterMap_append,
      Wire.onStream_append, Wire.demands_append]
    exact Nat.le_add_right _ _
  · rw [demanded, framesSince, since_of_not_registered hj]
    exact Nat.zero_le _

variable [DecidableEq ι]

/-- What is granted to a stream object is granted by a frame of its stream. -/
theorem grantOn_add_demanded_le (h : Crew.Reach environment (newRules ι) start c)
    (hl : ∀ l', c.exchange.far.connection.labels[j]? = some l' → l' = l) {event : Event Step}
    (hmove : Move environment (newRules ι) k c.exchange [.tell event] new e') :
    c.exchange.far.connection.grantOn j event + c.exchange.far.demanded j l ≤
      e'.far.demanded j l := by
  by_cases hgrant : ∃ id n, event = .resumed (.receive (.requestN id n)) ∧
      c.exchange.far.connection.routes.outbound? id = some j
  · obtain ⟨id, n, rfl, hout⟩ := hgrant
    obtain ⟨l', hl', rfl, hj⟩ := exists_label_of_outbound h hout
    obtain rfl := hl l' hl'
    have hsince : e'.far.framesSince j = c.exchange.far.framesSince j ++ [.requestN l'.id n] := by
      rw [framesSince, since_move hmove hj, List.filterMap_append]
      rfl
    have hown : onStream l'.id [.requestN l'.id n] = [.requestN l'.id n] :=
      Wire.onStream_eq_self fun f hf => by rw [List.mem_singleton.mp hf]; rfl
    have hgrant :
        c.exchange.far.connection.grantOn j (.resumed (.receive (.requestN l'.id n))) = n :=
      if_pos hout
    have hmore : e'.far.demanded j l' = c.exchange.far.demanded j l' + n := by
      rw [demanded, hsince, Wire.onStream_append, hown, Wire.demands_append, Wire.demands_singleton]
      rfl
    rw [hgrant, hmore, Nat.add_comm]
  · have hzero : c.exchange.far.connection.grantOn j event = 0 := by
      unfold Connection.grantOn
      split
      · exact if_neg fun hout => hgrant ⟨_, _, rfl, hout⟩
      · rfl
    rw [hzero, Nat.zero_add]
    exact demanded_le_move hmove

/-- **No room for the items of a producer comes from anywhere but from the peer.** -/
theorem atMost_credit (h : Crew.Reach environment (newRules ι) start c)
    (hsole : c.exchange.far.connection.Sole l.interaction j)
    (hl : ∀ l', c.exchange.far.connection.labels[j]? = some l' → l' = l) :
    (credit l.interaction j).AtMost
      (c.exchange.far.connection.present j + c.exchange.far.demanded j l) c := by
  refine reach_induction (P := fun c => c.exchange.far.connection.Sole l.interaction j →
    (∀ l', c.exchange.far.connection.labels[j]? = some l' → l' = l) →
    (credit l.interaction j).AtMost
      (c.exchange.far.connection.present j + c.exchange.far.demanded j l) c) .refl h
    (fun _ _ => ⟨0, Crew.weighs_of_forall fun _ => rfl, Nat.zero_le _⟩)
    (fun {c d k old new} hreach ih hmove hturns hsole hl => ?_) hsole hl
  have hkeeps := keeps_move hmove
  have hsole := hsole.of_keeps hkeeps
  have hl : ∀ l', c.exchange.far.connection.labels[j]? = some l' → l' = l := fun l' hl' =>
    hl l' (hkeeps j l' hl')
  refine (ih hsole hl).of_turns hturns (fun _ _ _ => Nat.le_refl _) ?_
  have htidy := tidy_of_reach (reach_rules hreach)
  have hpeer : ∀ i' r, c.exchange.remote? i' = some r → r.stream = j → i' = l.interaction := by
    rintro i' r hr rfl
    obtain ⟨l', hl', rfl, -⟩ := Connection.exists_label_of_serves (htidy.sorted.remotes i' r hr)
    rw [hl l' hl']
  show weight (room l.interaction j) new + d.exchange.stock l.interaction +
      weight (delivery j) old +
        (c.exchange.far.connection.present j + c.exchange.far.demanded j l) ≤
    weight (room l.interaction j) old + c.exchange.stock l.interaction +
      (d.exchange.far.connection.present j + d.exchange.far.demanded j l)
  have hallows : ∀ t ∈ old, c.exchange.far.connection.AllowsTask t := fun t ht =>
    htidy.pending k t (hturns.mem_old ht)
  have hmore : c.exchange.far.demanded j l ≤ d.exchange.far.demanded j l :=
    demanded_le_move hmove
  have hgrant (event : Event Step) (heq : old = [.tell event]) :
      c.exchange.far.connection.grantOn j event + c.exchange.far.demanded j l ≤
        d.exchange.far.demanded j l :=
    grantOn_add_demanded_le hreach hl (heq ▸ hmove)
  clear hturns
  generalize d.exchange = e' at hmove hmore hgrant ⊢
  cases hmove with
  | @perform t hcalm =>
    simp only [Crew.weight_cons, Crew.weight_nil, Nat.add_zero]
    exact credit_perform_le (fun _ => hsole.eq_of_serves) hpeer
      (hallows t (List.mem_singleton_self _)) hmore fun event heq => hgrant event (by rw [heq])
  | start hstart =>
    obtain ⟨hstock, hpresent⟩ := credit_starts (i := l.interaction) (j := j) hstart.1
    rw [Crew.weight_nil, Crew.weight_nil]
    omega
  | @emit i' p emitter s hemit hp hs =>
    have hfar : (c.exchange.send (τ := Step) i' p emitter s).1.far = c.exchange.far :=
      Exchange.far_atInteraction (τ := Step) ..
    have hle := stock_send_le hp hs hpeer
    rw [hfar, Crew.weight_nil]
    omega

omit [DecidableEq ι] in
theorem weight_delivery (j : Nat) (ts : List (Task Step)) :
    weight (delivery j) ts = ((ts.filterMap Task.event?).filterMap (item? j)).length := by
  induction ts with
  | nil => rfl
  | cons t ts ih =>
    rw [Crew.weight_cons, ih]
    cases t with
    | tell event =>
      have hdelivery : delivery j (.tell event) = (item? j event).toList.length := by
        cases event with
        | heard r s =>
          cases s with
          | next p =>
            simp only [delivery, item?]
            split <;> rfl
          | complete | error => rfl
        | _ => rfl
      have hevent :
          (Task.tell event :: ts).filterMap Task.event? = event :: ts.filterMap Task.event? :=
        List.filterMap_cons_some rfl
      rw [hevent, List.filterMap_cons, hdelivery]
      cases item? j event with
      | none => exact Nat.zero_add _
      | some p => exact Nat.add_comm 1 _
    | _ => exact Nat.zero_add _

/-- **A producer sends no more items than the first and those that the peer has granted.** -/
theorem length_sentTo_le (h : Crew.Reach environment (newRules ι) start c)
    (hl : c.exchange.far.connection.labels[j]? = some l) :
    (c.exchange.far.sentTo j).length ≤ 1 + c.exchange.far.demanded j l := by
  have hsole : c.exchange.far.connection.Sole l.interaction j := fun j' l' hl' hi =>
    eq_of_interaction h hl' hl hi
  have hle := (atMost_credit h hsole fun l' hl' =>
    Option.some.inj (hl'.symm.trans hl)).kept_add_used_le
  have hused : weight (credit l.interaction j).used c.done =
      (c.exchange.far.sentTo j).length := by
    rw [sentTo, told_eq h]
    exact weight_delivery j c.done
  have hpresent : c.exchange.far.connection.present j = 1 :=
    if_pos (List.getElem?_eq_some_iff.mp hl).1
  rw [hused, hpresent] at hle
  exact (Nat.le_add_left _ _).trans hle

end Chronicle
end Client
end StreamConformance
