import StreamConformance.Proofs.Channel.OpenLine

/-!
# A channel from end to end

What the consumer of a scripted channel gets is what the producer of the channel sent, sent back
by the reference responder.  This file says so for every interleaving of the script, the reader
and the responder, from the moment at which the script begins to open the channel.

Until the opening frame is written only the script has anything to do, and what it does next is
settled (`Stage`).  From then on the line is open, and the invariant of `OpenLine` holds.

* `exists_openLine_of_reach`: every sound line is being opened, or is open and consistent.
* `channel_echoes`: what the consumer holds, in every state that can be reached.
-/

namespace StreamConformance

open Client (Connection Step Stream Link)
open Responder (Conversation Echoes)
open Wire (Frame ChannelTape payloads grants)

namespace Line

/-! ## Opening the channel -/

/-- A line on which only the script has anything to do, and nothing was written. -/
def opening (consumer : Consumer Payload Handle Target) (p : ScriptedProducer) (k : Connection)
    (ts done : List (Task Step)) : Crew Party Line Step where
  exchange :=
    { far := { connection := k }
      interactions := #[{ receiver := .payloads consumer, producer := .scripted p }] }
  stack
    | .script => ts
    | .reader => []
    | .responder => []
  done := done

/-- The connection once it has given a stream to the channel, whose link is `l`. -/
def carrying (l : Link) (routes : Client.Routes) : Connection where
  nextStream := 3
  streams := #[{ id := stream, interaction := 0, side := .channel l }]
  routes := routes

/-- The route table once it knows the channel. -/
def channelRoutes : Client.Routes where
  entries := [(stream, { inbound := some 0, outbound := some 0 })]

/-- The consumer holds the subscription, and nothing else. -/
structure IsFresh (c : Consumer Payload Handle Target) : Prop where
  values : c.values = []
  terminal : c.terminal = none
  subscription : c.subscription = some peer
  forward : c.forward = none

/-- How far the script has got with opening the channel. -/
inductive Stage (label : String) (n0 : Nat) (p0 : Payload) :
    Consumer Payload Handle Target → ScriptedProducer → Connection → List (Task Step) → Prop where
  | subscribing : Stage label n0 p0 { label := label, initialDemand := n0 }
      { initial := .pending p0 } {} [.tell (.openedChannel 0 0)]
  | registering : Stage label n0 p0 { label := label, initialDemand := n0 }
      { initial := .pending p0 } (carrying {} {})
      [.call (.resume (.register 0)), .call (.subscribed 0 peer), .call (.attach 0 peer)]
  | registered : Stage label n0 p0 { label := label, initialDemand := n0 }
      { initial := .pending p0 } (carrying {} {})
      [.tell (.resumed (.register 0)), .call (.subscribed 0 peer), .call (.attach 0 peer)]
  | handing : Stage label n0 p0 { label := label, initialDemand := n0 }
      { initial := .pending p0 } (carrying {} channelRoutes)
      [.call (.subscribed 0 peer), .call (.attach 0 peer)]
  | granting {c : Consumer Payload Handle Target} (hc : IsFresh c) :
      Stage label n0 p0 c { initial := .pending p0 } (carrying {} channelRoutes)
        [.tell (.asked peer (.request n0)), .call (.attach 0 peer)]
  | attaching {c : Consumer Payload Handle Target} (hc : IsFresh c) :
      Stage label n0 p0 c { initial := .pending p0 } (carrying { held := n0 } channelRoutes)
        [.call (.attach 0 peer)]
  | attached {c : Consumer Payload Handle Target} (hc : IsFresh c) :
      Stage label n0 p0 c { initial := .pending p0, remote := some peer }
        (carrying { held := n0 } channelRoutes) [.tell (.attached peer 0), .openGate 0 peer]
  | asking {c : Consumer Payload Handle Target} (hc : IsFresh c) :
      Stage label n0 p0 c { initial := .pending p0, remote := some peer }
        (carrying { held := n0, attached := true } channelRoutes)
        [.call (.ask 0 (.request 1)), .openGate 0 peer]
  | sending {c : Consumer Payload Handle Target} (hc : IsFresh c) :
      Stage label n0 p0 c { initial := .emitting 0, remote := some peer }
        (carrying { held := n0, attached := true } channelRoutes)
        [.tell (.heard peer (.next p0)), .settle 0 1, .openGate 0 peer]

variable {label : String} {n0 : Nat} {p0 : Payload} {c d : Crew Party Line Step}
  {consumer consumer' : Consumer Payload Handle Target} {p p' : ScriptedProducer}
  {k k' : Connection} {t : Task Step} {rest new ts done : List (Task Step)}

/-- The script is opening the channel. -/
def IsOpening (label : String) (n0 : Nat) (p0 : Payload) (c : Crew Party Line Step) : Prop :=
  ∃ consumer p k ts done, Stage label n0 p0 consumer p k ts ∧
    c = opening consumer p k ts done ∧ sent c = [] ∧ asked c = 0

theorem isOpening_start : IsOpening label n0 p0 (start label n0 p0) := by
  refine ⟨_, _, _, _, [], .subscribing, ?_, rfl, rfl⟩
  rfl

/-- While the channel is being opened nothing was written. -/
theorem Stage.written (h : Stage label n0 p0 consumer p k ts) : k.written = [] := by
  cases h <;> rfl

/-- The script has something to do, and does not panic. -/
theorem Stage.exists_cons (h : Stage label n0 p0 consumer p k ts) :
    ∃ t rest, ts = t :: rest ∧ ∀ q, t ≠ .call (.raise q) := by
  cases h <;> exact ⟨_, _, rfl, by simp⟩

/-- While the channel is being opened, the script does the next step. -/
theorem eq_work_of_step (hk : k.written = []) (ht : ∀ q, t ≠ .call (.raise q))
    (h : Crew.Step environment rules (opening consumer p k (t :: rest) done) d) :
    d = (opening consumer p k (t :: rest) done).work environment .script t rest := by
  cases h with
  | @work k' t' rest' hk' ht' =>
    cases k' with
    | script =>
      obtain ⟨rfl, rfl⟩ := List.cons.inj hk'
      rfl
    | reader => cases hk'
    | responder => cases hk'
  | @panic k' q rest' hk' =>
    cases k' with
    | script => exact absurd (List.cons.inj hk').1 (ht q)
    | reader => cases hk'
    | responder => cases hk'
  | start hk' hstart =>
    cases hstart with
    | ask n => cases hk'
    | take hf => cases hf
    | handle hf =>
      have hwritten : k.written.drop 0 = _ := hf
      rw [hk] at hwritten
      cases hwritten
  | @emit k' i q emitter s hk' hemit hq hs =>
    obtain ⟨rfl, -⟩ := hemit
    cases hk'

theorem work_opening
    (hp : (opening consumer p k (t :: rest) done).exchange.perform environment t =
      ((opening consumer' p' k' (new ++ rest) done).exchange, new)) :
    (opening consumer p k (t :: rest) done).work environment .script t rest =
      opening consumer' p' k' (new ++ rest) (done ++ [t]) := by
  refine Crew.work_eq hp ?_ rfl
  funext party
  cases party <;> rfl

/-- The script gets on with opening the channel. -/
theorem isOpening_of_perform
    (hp : (opening consumer p k (t :: rest) done).exchange.perform environment t =
      ((opening consumer' p' k' (new ++ rest) done).exchange, new))
    (hstage : Stage label n0 p0 consumer' p' k' (new ++ rest)) (ht : IsQuiet t)
    (hsent : sent (opening consumer p k (t :: rest) done) = [])
    (hasked : asked (opening consumer p k (t :: rest) done) = 0) :
    IsOpening label n0 p0
      ((opening consumer p k (t :: rest) done).work environment .script t rest) := by
  refine ⟨_, _, _, _, _, hstage, work_opening hp, ?_, ?_⟩
  · rw [sent_of_done (Crew.done_work ..), hsent, ht.1]
    rfl
  · rw [asked_of_done (Crew.done_work ..), hasked, ht.2]

/-- The consumer takes the subscription, and asks for its initial demand. -/
theorem subscribed_fresh (hlimit : n0 ≤ Demand.limit) (label : String) :
    ∃ c : Consumer Payload Handle Target, IsFresh c ∧
      Consumer.subscribed peer { label := label, initialDemand := n0 } =
        (c, { ask := if 0 < n0 then some (peer, .request n0) else none }) := by
  have hadd : Demand.add n0 0 = n0 := Demand.add_eq hlimit
  let c : Consumer Payload Handle Target := { label := label, initialDemand := n0 }
  have hsub : c.subscribed peer =
      ({ c with subscription := some peer, pending := 0, outstanding := Demand.add 0 n0 },
        { ask := if 0 < n0 then some (peer, .request n0) else none }) := by
    simp [Consumer.subscribed, Consumer.isCanceled, hadd, c]
  exact ⟨_, ⟨rfl, rfl, rfl, rfl⟩, hsub⟩

/-- The link holds the demand of the consumer back. -/
theorem perform_hold (hlimit : n0 ≤ Demand.limit) (v : OpenLine) (hlink : v.link = {}) :
    v.exchange.perform environment (.tell (.asked peer (.request n0))) =
      ({ v with link := { held := n0 } }.exchange, []) := by
  have hgrant : v.link.grant stream n0 = ({ held := n0 }, none) := by
    by_cases hn : n0 = 0
    · simp [Link.grant, hn, hlink]
    · simp [Link.grant, hn, hlink, Demand.add_eq ((Nat.zero_add n0).symm ▸ hlimit)]
  have hreact : v.line.connection.react (.asked peer (.request n0)) =
      v.line.connection.writeLink 0 (fun id => Link.grant id n0) Connection.failStream := rfl
  have hframe : v.line.connection.linkFrame? (.asked peer (.request n0)) =
      (v.link.grant stream n0).2 := rfl
  rw [OpenLine.writeLink_connection, hgrant] at hreact
  rw [OpenLine.perform_tell, Line.react, hreact, Line.fails, hframe, hgrant]
  rfl

/-- A step of a line that is being opened, before the opening frame is written. -/
theorem isOpening_of_work (hlimit : n0 ≤ Demand.limit)
    (hstage : Stage label n0 p0 consumer p k (t :: rest)) (ht : t ≠ .tell (.heard peer (.next p0)))
    (hsent : sent (opening consumer p k (t :: rest) done) = [])
    (hasked : asked (opening consumer p k (t :: rest) done) = 0) :
    IsOpening label n0 p0
      ((opening consumer p k (t :: rest) done).work environment .script t rest) := by
  cases hstage with
  | subscribing =>
    exact isOpening_of_perform rfl .registering ⟨rfl, rfl⟩ hsent hasked
  | registering => exact isOpening_of_perform rfl .registered ⟨rfl, rfl⟩ hsent hasked
  | registered => exact isOpening_of_perform rfl .handing ⟨rfl, rfl⟩ hsent hasked
  | handing =>
    obtain ⟨c, hc, hsub⟩ := subscribed_fresh hlimit label
    have hp : (opening { label := label, initialDemand := n0 } { initial := .pending p0 }
          (carrying {} channelRoutes) [.call (.subscribed 0 peer), .call (.attach 0 peer)]
          done).exchange.perform environment (.call (.subscribed 0 peer)) =
        ((opening (Consumer.subscribed peer { label := label, initialDemand := n0 }).1
            { initial := .pending p0 } (carrying {} channelRoutes) [] done).exchange,
          Exchange.effectTasks 0
            (.ofPayloads (Consumer.subscribed peer { label := label, initialDemand := n0 }).2)) :=
      rfl
    rw [hsub] at hp
    by_cases hn : 0 < n0
    · rw [if_pos hn] at hp
      exact isOpening_of_perform hp (.granting hc) ⟨rfl, rfl⟩ hsent hasked
    · obtain rfl : n0 = 0 := by omega
      exact isOpening_of_perform hp (.attaching hc) ⟨rfl, rfl⟩ hsent hasked
  | granting hc =>
    let v : OpenLine :=
      { consumer := consumer, producer := { initial := .pending p0 }, link := {}, written := [],
        done := done }
    exact isOpening_of_perform (perform_hold hlimit v rfl) (.attaching hc) ⟨rfl, rfl⟩ hsent hasked
  | attaching hc => exact isOpening_of_perform rfl (.attached hc) ⟨rfl, rfl⟩ hsent hasked
  | attached hc => exact isOpening_of_perform rfl (.asking hc) ⟨rfl, rfl⟩ hsent hasked
  | asking hc => exact isOpening_of_perform rfl (.sending hc) ⟨rfl, rfl⟩ hsent hasked
  | sending hc => exact absurd rfl ht

/-- A line on which the opening frame is about to be written. -/
def breaking (n0 : Nat) (p0 : Payload) (c : Consumer Payload Handle Target)
    (done : List (Task Step)) : OpenLine where
  consumer := c
  producer := { initial := .emitting 0, remote := some peer }
  link := { held := n0, attached := true }
  written := []
  hand := .sending (.next p0)
  scriptRest := [.settle 0 1, .openGate 0 peer]
  done := done

theorem opening_eq_crew (c : Consumer Payload Handle Target) :
    opening c { initial := .emitting 0, remote := some peer }
        (carrying { held := n0, attached := true } channelRoutes)
        [.tell (.heard peer (.next p0)), .settle 0 1, .openGate 0 peer] done =
      (breaking n0 p0 c done).crew := by
  rw [opening, OpenLine.crew]
  congr 1

/-- The opening frame is written, and the line is open. -/
theorem exists_openLine_of_sending {c : Consumer Payload Handle Target} (hc : IsFresh c)
    {v : OpenLine} (hv : v = breaking n0 p0 c done)
    (hsent : sent v.crew = []) (hasked : asked v.crew = 0)
    (hsound : (v.crew.work environment .script (.tell (.heard peer (.next p0)))
      v.scriptRest).exchange.far.IsSound) :
    ∃ v' : OpenLine, v'.IsConsistent n0 p0 ∧
      v.crew.work environment .script (.tell (.heard peer (.next p0))) v.scriptRest = v'.crew := by
  have hsend : v.link.send stream p0 =
      ({ opened := true, held := 0, attached := true },
        some (.requestChannel stream n0 p0)) := by
    rw [hv]
    rfl
  have hreact : v.line.connection.react (.heard peer (.next p0)) =
      v.line.connection.writeLink 0 (fun id => Link.send id p0) Connection.failStream := rfl
  have hframe : v.line.connection.linkFrame? (.heard peer (.next p0)) =
      (v.link.send stream p0).2 := rfl
  rw [OpenLine.writeLink_connection, hsend] at hreact
  rw [hsend] at hframe
  have hp := OpenLine.perform_write hframe hreact hsound.1
  let v' : OpenLine := { v with
    link := { opened := true, held := 0, attached := true }
    written := v.written ++ [.requestChannel stream n0 p0]
    hand := .free
    done := v.done ++ [.tell (.heard peer (.next p0))] }
  have hwritten : v'.written = [.requestChannel stream n0 p0] := by
    show v.written ++ _ = _
    rw [hv]
    rfl
  have hsent' : Line.sent v'.crew = [p0] := by
    rw [sent_of_done (c := v.crew) rfl, hsent]
    rfl
  have hasked' : Line.asked v'.crew = 0 := by
    rw [asked_of_done (c := v.crew) rfl, hasked]
    rfl
  refine ⟨v', ?_, Crew.work_eq hp (OpenLine.stack_script _ rfl rfl rfl) rfl⟩
  subst hv
  exact
    { scriptRest := by
        intro t ht
        rcases List.mem_cons.mp ht with rfl | ht
        · exact .settle 1
        · rw [List.mem_singleton.mp ht]
          exact .openGate peer
      readerRest := fun t ht => by cases ht
      remote := rfl
      delivered := fun q hq => by cases hq
      opened := rfl
      inboundDone := rfl
      forward := hc.forward
      subscription := fun _ => hc.subscription
      tape := .opening n0 p0
      sent := hsent'.symm
      first := ⟨[], rfl⟩
      open_of_outboundDone := fun _ => by simp [hwritten]
      outboundDone := fun _ => rfl
      sending := fun s hs => by cases hs
      grants_le := by
        rw [hasked', hwritten]
        exact Nat.le_of_eq (Nat.zero_add n0)
      grants_eq := fun _ => by
        rw [hasked', hwritten]
        exact Nat.zero_add n0
      handled_le := Nat.zero_le _
      echoes := .fresh
      read_le := Nat.le_refl 0
      reads := .idle trivial hc.values.symm (Or.inl ⟨hc.terminal, rfl, List.not_mem_nil⟩) }

/-- **Every line that can be reached** and that is sound is being opened, or it is open and
consistent. -/
theorem exists_openLine_of_reach
    (hrun : Crew.Reach environment rules (start label n0 p0) d) (hsound : d.exchange.far.IsSound)
    (htotal : n0 + asked d ≤ Demand.limit) :
    IsOpening label n0 p0 d ∨ ∃ v : OpenLine, v.IsConsistent n0 p0 ∧ d = v.crew := by
  induction hrun with
  | refl => exact Or.inl isOpening_start
  | @tail c d hreach hstep ih =>
    have hle := asked_le_of_step hstep
    have hlimit : n0 ≤ Demand.limit := by omega
    rcases ih (isSound_of_step hstep hsound) (by omega) with hopening | ⟨v, hv, rfl⟩
    · obtain ⟨consumer, p, k, ts, done, hstage, rfl, hsent, hasked⟩ := hopening
      obtain ⟨t, rest, rfl, ht⟩ := hstage.exists_cons
      obtain rfl := eq_work_of_step hstage.written ht hstep
      by_cases hopens : t = .tell (.heard peer (.next p0))
      · subst hopens
        cases hstage with
        | sending hc =>
          rw [opening_eq_crew] at hsent hasked hsound ⊢
          exact Or.inr (exists_openLine_of_sending hc rfl hsent hasked hsound)
      · exact Or.inl (isOpening_of_work hlimit hstage hopens hsent hasked)
    · exact Or.inr (OpenLine.exists_of_step hv hstep hsound (by omega))

/-! ## What the consumer holds -/

variable {v : OpenLine}

/-- What the reader has taken is with the consumer, or in the hand of the reader. -/
theorem values_append_of_reads {c : Consumer Payload Handle Target} {inbound : Option Nat}
    {fs : List Frame} {r : Reading} (h : OpenLine.Reads c inbound fs r) :
    c.values ++ payloads (r.tasks.filterMap dispatched?) = payloads fs := by
  cases h with
  | idle hr hitems hopen =>
    rw [hitems]
    cases r with
    | free | crediting | credited | granted => exact List.append_nil _
    | taken | handed | delivering | completing => cases hr
  | taken hitems | handed hitems | delivering hitems | completing hitems =>
    rw [Wire.payloads_append, hitems]
    rfl

/-- A stream that has ended was completed, behind all of its items. -/
theorem completed_of_reads {c : Consumer Payload Handle Target} {inbound : Option Nat}
    {fs : List Frame} {r : Reading} (h : OpenLine.Reads c inbound fs r) (hterm : c.terminal ≠ none) :
    c.terminal = some .completed ∧ .complete stream ∈ fs ∧ c.values = payloads fs := by
  cases h with
  | idle hr hitems hopen =>
    rcases hopen with ⟨hnone, -⟩ | ⟨hcompleted, hdone⟩
    · exact absurd hnone hterm
    · exact ⟨hcompleted, hdone, hitems.symm⟩
  | taken _ hopen | handed _ hopen | delivering _ hopen | completing _ hopen =>
    exact absurd hopen hterm

theorem toClient_crew (h : v.IsConsistent n0 p0) :
    toClient v.crew =
      v.reading.tasks.filterMap dispatched? ++ v.replied.drop v.read := by
  have hrest : v.readerRest.filterMap dispatched? = [] := by
    rw [List.filterMap_eq_nil_iff]
    intro t ht
    cases h.readerRest t ht <;> rfl
  show (v.reading.tasks ++ v.readerRest).filterMap dispatched? ++ v.replied.drop v.read = _
  rw [List.filterMap_append, hrest, List.append_nil]

/-- What was sent back is with the consumer, or on its way to it. -/
theorem values_append_toClient (h : v.IsConsistent n0 p0) :
    values v.crew ++ payloads (toClient v.crew) = payloads v.replied := by
  have hvalues : values v.crew = v.consumer.values := rfl
  rw [toClient_crew h, Wire.payloads_append, ← List.append_assoc, hvalues,
    values_append_of_reads h.reads, ← Wire.payloads_append, List.take_append_drop]

theorem payloads_take_append_outgoing (h : v.IsConsistent n0 p0) :
    payloads (v.written.take v.handled) ++ payloads v.line.outgoing = sent v.crew := by
  rw [← Wire.payloads_append, ← h.sent]
  exact congrArg payloads (List.take_append_drop ..)

theorem length_values_le (h : v.IsConsistent n0 p0) :
    (values v.crew).length ≤ n0 + asked v.crew := by
  have hreplied := congrArg List.length (values_append_toClient h)
  have hle := h.echoes.length_payloads_le
  have hgrants := h.grants_le
  rw [← List.take_append_drop v.handled v.written, Wire.grants_append] at hgrants
  rw [List.length_append] at hreplied
  omega

/-- The stream of the consumer ends behind all that was sent. -/
theorem values_of_completed (h : v.IsConsistent n0 p0) (hterm : v.consumer.terminal ≠ none) :
    .complete stream ∈ v.written ∧ values v.crew = sent v.crew := by
  obtain ⟨-, hdone, hitems⟩ := completed_of_reads h.reads hterm
  -- Nothing comes behind the completion, on either side.
  have hdrop : v.replied.drop v.read = [] :=
    h.echoes.eq_nil_of_complete (List.take_append_drop v.read v.replied).symm hdone
  obtain ⟨hwritten, hall⟩ := h.echoes.of_complete (List.mem_of_mem_take hdone)
  have htape := h.tape
  rw [← List.take_append_drop v.handled v.written] at htape
  have hout : payloads v.line.outgoing = [] := htape.payloads_eq_nil hwritten
  refine ⟨List.mem_of_mem_take hwritten, ?_⟩
  calc values v.crew = payloads (v.replied.take v.read) := hitems
    _ = payloads (v.replied.take v.read ++ v.replied.drop v.read) := by
      rw [hdrop, List.append_nil]
    _ = payloads (v.written.take v.handled) := by rw [List.take_append_drop, hall]
    _ = sent v.crew := by
      rw [← payloads_take_append_outgoing h, hout, List.append_nil]

/-- If nothing is on its way, the consumer holds what it asked for. -/
theorem values_eq_take (h : v.IsConsistent n0 p0) (hscript : v.crew.stack .script = [])
    (hclient : toClient v.crew = []) (hout : v.line.outgoing = []) :
    values v.crew = (sent v.crew).take (n0 + asked v.crew) := by
  by_cases hterm : v.consumer.terminal = none
  · have hgrants := h.grants_eq hterm
    rw [(OpenLine.free_of_script hscript).1] at hgrants
    have hgrants : grants v.written = n0 + asked v.crew := (Nat.zero_add _).symm.trans hgrants
    have hreplied := values_append_toClient h
    rw [hclient, Wire.payloads_nil, List.append_nil] at hreplied
    have hle : v.written.length ≤ v.handled := List.drop_eq_nil_iff.mp hout
    have htake := h.echoes.take_eq
    rw [List.take_of_length_le hle, h.sent, hgrants] at htake
    rw [hreplied, htake]
  · have hall := (values_of_completed h hterm).2
    have hle := length_values_le h
    rw [hall] at hle ⊢
    rw [List.take_of_length_le hle]

/-- What is to be seen of a line that is being opened. -/
theorem values_of_isOpening (h : IsOpening label n0 p0 d) :
    values d = [] ∧ toClient d = [] ∧ d.exchange.far.outgoing = [] ∧
      d.exchange.far.conversation.queue stream = [] ∧ sent d = [] ∧
      ∀ c, consumer? d = some c → c.terminal = none := by
  obtain ⟨consumer, p, k, ts, done, hstage, rfl, hsent, -⟩ := h
  have hout : (opening consumer p k ts done).exchange.far.outgoing = [] := by
    show k.written.drop 0 = []
    rw [hstage.written]
    rfl
  have hvalues : consumer.values = [] ∧ consumer.terminal = none := by
    cases hstage with
    | subscribing | registering | registered | handing => exact ⟨rfl, rfl⟩
    | granting hc | attaching hc | attached hc | asking hc | sending hc =>
      exact ⟨hc.values, hc.terminal⟩
  refine ⟨hvalues.1, rfl, hout, rfl, hsent, fun c hc => ?_⟩
  obtain rfl : consumer = c := Option.some.inj hc
  exact hvalues.2

/-- **A channel from end to end.**  The consumer begins with a demand of `n0`, and the initial
payload is `p0`.  Whatever the script asks for and sends, and in whichever order the script, the
reader and the responder get on:

* What the consumer holds, what is on its way to it, what the responder keeps and what is on its
  way to the responder are, one after another, the items that were sent, the initial payload
  first.
* The consumer holds no more than it asked for.
* Its stream ends only after the client has completed, and then it holds all that was sent.
* If the script is not in the middle of something and nothing is on its way, the consumer holds as
  much of what was sent as it asked for. -/
theorem channel_echoes (label : String) (n0 : Nat) (p0 : Payload) {d : Crew Party Line Step}
    (hrun : Crew.Reach environment rules (start label n0 p0) d) (hsound : d.exchange.far.IsSound)
    (htotal : n0 + asked d ≤ Demand.limit) :
    (values d ++ payloads (toClient d) ++ d.exchange.far.conversation.queue stream ++
        payloads d.exchange.far.outgoing = sent d ∧
      (sent d = [] ∨ ∃ items, sent d = p0 :: items)) ∧
    (values d).length ≤ n0 + asked d ∧
    (∀ c, consumer? d = some c → c.terminal ≠ none →
      c.terminal = some .completed ∧ .complete stream ∈ d.exchange.far.connection.written ∧
        values d = sent d) ∧
    (d.stack .script = [] → toClient d = [] → d.exchange.far.outgoing = [] →
      values d = (sent d).take (min (n0 + asked d) (sent d).length)) := by
  rcases exists_openLine_of_reach hrun hsound htotal with h | ⟨v, h, rfl⟩
  · obtain ⟨hvalues, hclient, hout, hqueue, hsent, hterm⟩ := values_of_isOpening h
    rw [hvalues, hclient, hout, hqueue, hsent]
    refine ⟨⟨rfl, Or.inl rfl⟩, Nat.zero_le _, fun c hc hne => absurd (hterm c hc) hne, ?_⟩
    rintro - - -
    exact List.take_nil.symm
  · have hsent := h.sent
    obtain ⟨items, hfirst⟩ := h.first
    refine ⟨⟨?_, Or.inr ⟨items, hsent.symm.trans hfirst⟩⟩, length_values_le h, ?_, ?_⟩
    · rw [values_append_toClient h, ← payloads_take_append_outgoing h]
      exact congrArg (· ++ payloads v.line.outgoing) h.echoes.payloads_append_queue
    · rintro c hc hterm
      obtain rfl : v.consumer = c := Option.some.inj hc
      exact ⟨(completed_of_reads h.reads hterm).1, values_of_completed h hterm⟩
    · intro hscript hclient hout
      rw [values_eq_take h hscript hclient hout, ← List.take_take, List.take_length]

/-- The script opens a channel without demand, and the responder keeps the initial payload; then
the script asks for an item, and gets it back. -/
def roundTrip : Crew Party Line Step :=
  play (List.replicate 10 .script ++ [.responder] ++ List.replicate 7 .reader ++
      List.replicate 3 .script ++ [.responder] ++ List.replicate 4 .reader)
    (start "channel" 0 ⟨"a", "b"⟩)

theorem roundTrip_eq :
    roundTrip.exchange.far.failed = false ∧ roundTrip.exchange.far.conversation.ended = none ∧
      asked roundTrip = 1 ∧ values roundTrip = [⟨"a", "b"⟩] ∧ roundTrip.stack .script = [] ∧
      toClient roundTrip = [] ∧ roundTrip.exchange.far.outgoing = [] := by
  decide +kernel

theorem channel_echoes_roundTrip :
    Crew.Reach environment rules (start "channel" 0 ⟨"a", "b"⟩) roundTrip ∧
      roundTrip.exchange.far.IsSound ∧ 0 + asked roundTrip ≤ Demand.limit ∧
      values roundTrip = [⟨"a", "b"⟩] ∧
      values roundTrip = (sent roundTrip).take (min 1 (sent roundTrip).length) := by
  obtain ⟨hfailed, hended, hasked, hvalues, hscript, hclient, hout⟩ := roundTrip_eq
  have hrun : Crew.Reach environment rules (start "channel" 0 ⟨"a", "b"⟩) roundTrip :=
    reach_play ..
  have htotal : 0 + asked roundTrip ≤ Demand.limit := by
    rw [hasked]
    decide
  obtain ⟨-, -, -, htake⟩ :=
    channel_echoes "channel" 0 ⟨"a", "b"⟩ hrun ⟨hfailed, hended⟩ htotal
  rw [hasked] at htake
  exact ⟨hrun, ⟨hfailed, hended⟩, htotal, hvalues, htake hscript hclient hout⟩

end Line
end StreamConformance
