import StreamConformance.Proofs.Inquiry.Unopened

/-!
# With the subscription

The consumer of an inquiry holds its subscription.  Its demand goes out on the tape of the request,
as long as every frame can be written; the responder answers what has arrived of it, and the reader
brings the answers to the consumer.

* `Inquiry.Opened.IsConsistent.exists_replied`: the replies are the answers to some of the demand.
* `Inquiry.Opened.IsConsistent.values_isPrefix`: the consumer holds some of the items in them.
* `Inquiry.Opened.hasEnded_of_signal`: its stream ends with the last of the answers.
* `Inquiry.Opened.stage_of_step`: every step leads to a stage.
-/

namespace StreamConformance
namespace Inquiry

open Client (Connection Step openingFrame)
open Line (stream peer take_succ_of_drop)
open Responder (replies GoesOn)
open Wire (Frame)

variable {kind : Script.InteractionKind} {p : Payload} {n0 : Nat} {d : Crew Party Line Step}
  {consumer : Consumer Payload Handle Target}

/-- The demand that a consumer with a subscription is asked for goes there. -/
theorem request_of_subscribed (hterm : consumer.terminal = none)
    (hsub : consumer.subscription = some peer) {n : Nat} (hn : n ≠ 0) :
    consumer.request n = ({ consumer with outstanding := Demand.add consumer.outstanding n },
      { ask := some (peer, .request n) }) := by
  simp [Consumer.request, Consumer.isTerminated, hterm, hsub, hn]

/-- A consumer whose stream is open lets a completion or an error end it. -/
theorem deliver_of_isTerminal (hterm : consumer.terminal = none) {s : Signal Payload}
    (hs : s.isTerminal = true) :
    (consumer.deliver s).1.terminal = s.ending? ∧
      (consumer.deliver s).1.values = consumer.values := by
  cases s with
  | next => cases hs
  | complete | error =>
    simp [Consumer.deliver, Consumer.terminate, Consumer.isTerminated, Consumer.values, hterm,
      Signal.ending?]

namespace Opened

variable {v v' : Opened}

/-! ## What the consumer holds -/

/-- The replies are the answers to what has arrived. -/
theorem IsConsistent.replied_eq (h : v.IsConsistent kind p n0) (hkind : kind ≠ .fireAndForget)
    (hlimit : n0 + askedIn v.done ≤ Demand.limit) {ms : List Nat} (hms : ms <+: v.grants)
    (htape : v.written.take v.handled = tape kind p ms) : v.replied = answers kind p ms.sum := by
  have hgoes : GoesOn (tape kind p ms) := by
    rw [GoesOn, ← htape, h.conversation]
    exact h.ended
  have hsum : ms.sum ≤ Demand.limit := by
    have hle : ms.sum ≤ v.grants.sum := hms.sublist.sum_le_sum fun _ _ => Nat.zero_le _
    have hdemand := h.demand
    omega
  rw [← replies_tape hkind hgoes (fun n hn => h.grants n (hms.subset hn)) hsum, replies, ← htape,
    h.conversation]

/-- The replies are the answers to some of the demand. -/
theorem IsConsistent.exists_replied (h : v.IsConsistent kind p n0) (hkind : kind ≠ .fireAndForget)
    (hlimit : n0 + askedIn v.done ≤ Demand.limit) :
    ∃ demand, demand ≤ n0 + askedIn v.done ∧ v.replied = answers kind p demand := by
  have hprefix : v.written.take v.handled <+: tape kind p v.grants := by
    rw [← h.written]
    exact (List.take_prefix ..).trans (List.prefix_append ..)
  obtain ⟨ms, hms, htape⟩ := exists_of_prefix_tape hprefix
  have hle : ms.sum ≤ v.grants.sum := hms.sublist.sum_le_sum fun _ _ => Nat.zero_le _
  have hdemand := h.demand
  exact ⟨ms.sum, by omega, h.replied_eq hkind hlimit hms htape⟩

section Reads

variable {vs : List Payload} {known : Bool} {fs : List Frame} {f : Frame} {s : Signal Payload}

/-- The items of the consumer are the first of the frames that were taken. -/
theorem Reads.isPrefix {r : Reading} (h : Reads vs known fs r) : vs.map (.next stream) <+: fs := by
  cases h with
  | free => exact List.prefix_refl _
  | taken | handed | delivering => exact List.prefix_append ..

theorem Reads.take (h : Reads vs known fs .free) (f : Frame) :
    Reads vs known (fs ++ [f]) (.taken f) := by
  cases h with
  | free => exact .taken f

theorem Reads.handOver (h : Reads vs known fs (.taken f)) : Reads vs known fs (.handed f) := by
  cases h with
  | taken => exact .handed f

theorem Reads.of_handed (h : Reads vs known fs (.handed f)) : known = true ∧ f ∈ fs := by
  cases h with
  | handed => exact ⟨rfl, List.mem_append_right _ (List.mem_singleton_self f)⟩

theorem Reads.dispatch (h : Reads vs known fs (.handed (frameOf s))) :
    Reads vs (!s.isTerminal) fs (.delivering s) := by
  cases h with
  | handed => exact .delivering s

theorem Reads.eq_of_free (h : Reads vs known fs .free) : fs = vs.map (.next stream) := by
  cases h with
  | free => rfl

theorem Reads.eq_append (h : Reads vs known fs (.delivering s)) :
    fs = vs.map (.next stream) ++ [frameOf s] := by
  cases h with
  | delivering => rfl

theorem Reads.deliver {item : Payload} (h : Reads vs known fs (.delivering (.next item))) :
    Reads (vs ++ [item]) known fs .free := by
  have hitems : vs.map (.next stream) ++ [frameOf (.next item)] =
      (vs ++ [item]).map (.next stream) := by
    rw [List.map_append]
    rfl
  cases h with
  | delivering =>
    rw [hitems]
    exact .free

end Reads

/-- The consumer holds copies of the payload, and no more of them than it has asked for. -/
theorem IsConsistent.values_isPrefix (h : v.IsConsistent kind p n0)
    (hkind : kind ≠ .fireAndForget) (hlimit : n0 + askedIn v.done ≤ Demand.limit) :
    v.consumer.values <+: itemsOf kind p (n0 + askedIn v.done) := by
  obtain ⟨demand, hle, hreplied⟩ := h.exists_replied hkind hlimit
  have hitems : v.consumer.values.map (.next stream) <+: answers kind p demand := by
    rw [← hreplied]
    exact h.reads.isPrefix.trans (List.take_prefix ..)
  exact (isPrefix_of_items hitems).trans (itemsOf_isPrefix hle)

/-! ## What the owner does -/

theorem stack_owner (ts : List (Task Step)) (hts : v'.hand.tasks = ts)
    (hreading : v'.reading = v.reading) (hcanceling : v'.canceling = v.canceling) :
    (v'.crew kind p).stack = Function.update (v.crew kind p).stack .owner ts := by
  funext k
  cases k with
  | owner => exact hts
  | canceler => exact congrArg cancelTasks hcanceling
  | reader => exact congrArg Reading.tasks hreading
  | responder => rfl

theorem stack_canceler (ts : List (Task Step)) (hts : cancelTasks v'.canceling = ts)
    (hhand : v'.hand = v.hand) (hreading : v'.reading = v.reading) :
    (v'.crew kind p).stack = Function.update (v.crew kind p).stack .canceler ts := by
  funext k
  cases k with
  | owner => exact congrArg Hand.tasks hhand
  | canceler => exact hts
  | reader => exact congrArg Reading.tasks hreading
  | responder => rfl

theorem stack_reader (ts : List (Task Step)) (hts : v'.reading.tasks = ts)
    (hhand : v'.hand = v.hand) (hcanceling : v'.canceling = v.canceling) :
    (v'.crew kind p).stack = Function.update (v.crew kind p).stack .reader ts := by
  funext k
  cases k with
  | owner => exact congrArg Hand.tasks hhand
  | canceler => exact congrArg cancelTasks hcanceling
  | reader => exact hts
  | responder => rfl

/-- The owner does something. -/
theorem stage_of_owner_work (v' : Opened) (new : List (Task Step)) {t : Task Step}
    {rest : List (Task Step)} (h : v'.IsConsistent kind p n0)
    (hp : (v.crew kind p).exchange.perform environment t = ((v'.crew kind p).exchange, new))
    (hts : v'.hand.tasks = new ++ rest) (hreading : v'.reading = v.reading)
    (hcanceling : v'.canceling = v.canceling) (hdone : v'.done = v.done ++ [t]) :
    Stage kind p n0 ((v.crew kind p).work environment .owner t rest) := by
  rw [Crew.work_eq hp (stack_owner _ hts hreading hcanceling) hdone]
  exact .opened h

/-- The consumer is asked for `n` items. -/
theorem stage_of_asking (h : v.IsConsistent kind p n0) {n : Nat} (hhand : v.hand = .asking n) :
    Stage kind p n0 ((v.crew kind p).work environment .owner (.own 0 (.request n)) []) := by
  have hdemand : v.grants.sum = n0 + askedIn v.done := by
    simpa [hhand, Hand.demand] using h.demand
  have hp := perform_own (.request n) v.consumer (v.line kind p)
  obtain ⟨c, hrequest, hterm, hforward, hsub, hvalues⟩ : ∃ c, v.consumer.demand (.request n) =
      (c, { ask := if n = 0 then none else some (peer, .request n) }) ∧ c.terminal = none ∧
        c.forward = none ∧ c.subscription = some peer ∧ c.values = v.consumer.values := by
    by_cases hn : n = 0
    · refine ⟨v.consumer, ?_, h.terminal, h.forward, h.subscription, rfl⟩
      simp [Consumer.demand, Consumer.request, hn]
    · rw [if_neg hn]
      exact ⟨_, request_of_subscribed h.terminal h.subscription hn, h.terminal, h.forward,
        h.subscription, rfl⟩
  rw [hrequest, Hand.tasks_ofDemand] at hp
  refine stage_of_owner_work { v with
    consumer := c
    hand := .ofDemand n
    done := v.done ++ [.own 0 (.request n)] } _ { h with
      terminal := hterm
      forward := hforward
      subscription := hsub
      canceled := by simpa [cancels] using h.canceled
      demand := ?_
      granting := fun m => Hand.pos_of_ofDemand
      written := ?_
      reads := hvalues ▸ h.reads } hp (List.append_nil _).symm rfl rfl rfl
  · rw [Hand.demand_ofDemand, askedIn_append, askedIn_singleton]
    show n + v.grants.sum = n0 + (askedIn v.done + n)
    omega
  · rw [Hand.frames_ofDemand]
    simpa [hhand, Hand.frames] using h.written

/-- The request is asked for `n` items, and has decided what to write for that. -/
theorem stage_of_decided (h : v.IsConsistent kind p n0) {n : Nat} (hhand : v.hand = .granting n)
    {fs : List Frame} (hand : Hand) (hdemand : hand.demand = 0) (hframes : hand.frames = fs)
    (hnot : ∀ m, hand ≠ .granting m)
    (htape : tape kind p (v.grants ++ [n]) = tape kind p v.grants ++ fs)
    (hp : (v.crew kind p).exchange.perform environment (.tell (.asked peer (.request n))) =
      (({ v with grants := v.grants ++ [n] } : Opened).crew kind p |>.exchange, hand.tasks)) :
    Stage kind p n0
      ((v.crew kind p).work environment .owner (.tell (.asked peer (.request n))) []) := by
  have hwritten : v.written = tape kind p v.grants := by
    simpa [hhand, Hand.frames] using h.written
  have hgranted : n + v.grants.sum = n0 + askedIn v.done := by
    simpa [hhand, Hand.demand] using h.demand
  refine stage_of_owner_work { v with
    grants := v.grants ++ [n]
    hand := hand
    done := v.done ++ [.tell (.asked peer (.request n))] } _ { h with
      canceled := by simpa [cancels] using h.canceled
      demand := ?_
      granting := fun m hm => absurd hm (hnot m)
      grants := ?_
      written := ?_ } hp (List.append_nil _).symm rfl rfl rfl
  · rw [hdemand, List.sum_append, List.sum_singleton, askedIn_append, askedIn_singleton]
    show 0 + (v.grants.sum + n) = n0 + (askedIn v.done + 0)
    omega
  · intro m hm
    rcases List.mem_append.mp hm with hm | hm
    · exact h.grants m hm
    · rw [List.mem_singleton.mp hm]
      exact h.granting n hhand
  · rw [hframes, htape, hwritten]

/-- What the line makes of demand is what the request makes of it. -/
theorem react_asked (n : Nat) (v : Opened) :
    react (.asked peer (.request n)) (v.line kind p) =
      match Client.Request.request stream n { kind := kind, phase := phase p v.grants } with
      | (r, f) =>
        ({ v.line kind p with connection := connection r.kind r.phase v.known v.written },
          (f.map fun f => .resume (.write f)).toList) :=
  rfl

/-- The request is asked for `n` items. -/
theorem stage_of_granting (h : v.IsConsistent kind p n0) {n : Nat} (hhand : v.hand = .granting n) :
    Stage kind p n0
      ((v.crew kind p).work environment .owner (.tell (.asked peer (.request n))) []) := by
  have hn : n ≠ 0 := (h.granting n hhand).ne'
  have htape := tape_concat kind p v.grants n
  have hp := perform_tell (.asked peer (.request n)) v.consumer (v.line kind p)
  rw [react_asked] at hp
  obtain ⟨consumer, grants, known, written, conversation, handled, replied, read, hand, reading,
    canceling, done⟩ := v
  cases grants with
  | nil =>
    have hrequest : Client.Request.request stream n { kind := kind, phase := .unsent p } =
        ({ kind := kind, phase := .sent }, some (openingFrame kind stream n p)) := by
      simp [Client.Request.request, hn]
    dsimp only [phase] at hp
    rw [hrequest] at hp
    exact stage_of_decided h hhand (.sending (openingFrame kind stream n p)) rfl rfl
      (by simp) htape hp
  | cons m ms =>
    rw [if_neg (List.cons_ne_nil m ms)] at htape
    have hrequest : Client.Request.request stream n { kind := kind, phase := .sent } =
        ({ kind := kind, phase := .sent },
          if kind = .requestResponse then none else some (.requestN stream n)) := by
      simp [Client.Request.request, hn]
    dsimp only [phase] at hp
    rw [hrequest] at hp
    -- A request with a single answer needs no more than the opening frame.
    by_cases hresponse : kind = .requestResponse
    · rw [if_pos hresponse] at hp htape
      exact stage_of_decided h hhand .free rfl rfl (by simp) htape hp
    · rw [if_neg hresponse] at hp htape
      exact stage_of_decided h hhand (.sending (.requestN stream n)) rfl rfl (by simp) htape
        hp

/-- A frame is written, unless the line is unsound. -/
theorem stage_of_writing (h : v.IsConsistent kind p n0) {f : Frame} (hhand : v.hand = .writing f)
    (hsound : ((v.crew kind p).work environment .owner (.tell (.resumed (.write f)))
      []).exchange.far.failed = false) :
    Stage kind p n0
      ((v.crew kind p).work environment .owner (.tell (.resumed (.write f))) []) := by
  have hp := perform_tell (.resumed (.write f)) v.consumer (v.line kind p)
  have hrefusal : (v.line kind p).connection.refusal? f = none := by
    have hfails : ((v.line kind p).connection.refusal? f).isSome = false := hsound
    exact Option.not_isSome_iff_eq_none.mp (by rw [hfails]; exact Bool.false_ne_true)
  have hreact : react (.resumed (.write f)) (v.line kind p) =
      ({ v with written := v.written ++ [f] }.line kind p, []) := by
    have hwrite : (v.line kind p).connection.react (.resumed (.write f)) =
        ({ v with written := v.written ++ [f] }.line kind p |>.connection, []) := by
      show (v.line kind p).connection.sendOr f _ = _
      rw [Connection.sendOr_eq, hrefusal]
      rfl
    have hfails : fails (.resumed (.write f)) (v.line kind p).connection = false := by
      show ((v.line kind p).connection.refusal? f).isSome = false
      rw [hrefusal]
      rfl
    rw [react, hwrite, hfails]
    rfl
  rw [hreact] at hp
  refine stage_of_owner_work { v with
    written := v.written ++ [f]
    hand := .free
    done := v.done ++ [.tell (.resumed (.write f))] } [] { h with
      canceled := by simpa [cancels] using h.canceled
      demand := by simpa [hhand, Hand.demand, Line.requested] using h.demand
      granting := fun m hm => by cases hm
      written := by simpa [hhand, Hand.frames] using h.written
      handled_le := ?_
      conversation := ?_ } hp rfl rfl rfl rfl
  · rw [List.length_append]
    exact Nat.le_add_right_of_le h.handled_le
  · rw [List.take_append_of_le_length h.handled_le]
    exact h.conversation

/-- The owner does what it has in hand. -/
theorem stage_of_owner (h : v.IsConsistent kind p n0) {t : Task Step} {rest : List (Task Step)}
    (hk : v.hand.tasks = t :: rest)
    (hsound : ((v.crew kind p).work environment .owner t rest).exchange.far.failed = false) :
    Stage kind p n0 ((v.crew kind p).work environment .owner t rest) := by
  cases hhand : v.hand with
  | free =>
    rw [hhand] at hk
    cases hk
  | asking n =>
    rw [hhand] at hk
    obtain ⟨rfl, rfl⟩ := List.cons.inj hk
    exact stage_of_asking h hhand
  | granting n =>
    rw [hhand] at hk
    obtain ⟨rfl, rfl⟩ := List.cons.inj hk
    exact stage_of_granting h hhand
  | sending f =>
    rw [hhand] at hk
    obtain ⟨rfl, rfl⟩ := List.cons.inj hk
    exact stage_of_owner_work { v with
      hand := .writing f
      done := v.done ++ [.call (.resume (.write f))] } [.tell (.resumed (.write f))] { h with
        canceled := by simpa [cancels] using h.canceled
        demand := by simpa [hhand, Hand.demand, Line.requested] using h.demand
        granting := fun m hm => by cases hm
        written := by simpa [hhand, Hand.frames] using h.written } rfl rfl rfl rfl rfl
  | writing f =>
    rw [hhand] at hk
    obtain ⟨rfl, rfl⟩ := List.cons.inj hk
    exact stage_of_writing h hhand hsound

/-! ## What the reader does -/

/-- The reader does something that concerns the consumer only if it gets an item. -/
theorem stage_of_reader_work (v' : Opened) (new : List (Task Step)) {t : Task Step}
    {rest : List (Task Step)} (h : v'.IsConsistent kind p n0)
    (hp : (v.crew kind p).exchange.perform environment t = ((v'.crew kind p).exchange, new))
    (hts : v'.reading.tasks = new ++ rest) (hhand : v'.hand = v.hand)
    (hcanceling : v'.canceling = v.canceling) (hdone : v'.done = v.done ++ [t]) :
    Stage kind p n0 ((v.crew kind p).work environment .reader t rest) := by
  rw [Crew.work_eq hp (stack_reader _ hts hhand hcanceling) hdone]
  exact .opened h

/-- What the connection makes of a frame that arrives as a signal. -/
theorem perform_handed (s : Signal Payload) (v : Opened) (hknown : v.known = true) :
    (v.crew kind p).exchange.perform environment (.tell (.resumed (.receive (frameOf s)))) =
      (({ v with known := !s.isTerminal } : Opened).crew kind p |>.exchange,
        (Reading.delivering s).tasks) := by
  obtain ⟨consumer, grants, known, written, conversation, handled, replied, read, hand, reading,
    canceling, done⟩ := v
  obtain rfl : known = true := hknown
  cases s <;> rfl

/-- The consumer gets an item. -/
theorem stage_of_item (h : v.IsConsistent kind p n0) {item : Payload}
    (hreading : v.reading = .delivering (.next item)) :
    Stage kind p n0
      ((v.crew kind p).work environment .reader (.call (.signal 0 (.next item))) []) := by
  obtain ⟨c, hnext, hvalues, hterm, hforward, hsub⟩ : ∃ c, v.consumer.deliver (.next item) =
      (c, { wakes := true }) ∧ c.values = v.consumer.values ++ [item] ∧ c.terminal = none ∧
        c.forward = none ∧ c.subscription = some peer := by
    refine ⟨(v.consumer.deliver (.next item)).1, ?_, ?_, ?_, ?_, ?_⟩ <;>
      simp [Consumer.deliver, Consumer.next, Consumer.isTerminated, Consumer.values, h.terminal,
        h.forward, h.subscription]
  have hp := perform_signal (.next item) v.consumer (v.line kind p)
  rw [hnext] at hp
  refine stage_of_reader_work { v with
    consumer := c
    reading := .free
    done := v.done ++ [.call (.signal 0 (.next item))] } [] { h with
      terminal := hterm
      forward := hforward
      subscription := hsub
      canceled := by simpa [cancels] using h.canceled
      demand := by simpa [Line.requested] using h.demand
      reads := ?_ } hp rfl rfl rfl rfl
  have hreads := h.reads
  rw [hreading] at hreads
  rw [hvalues]
  exact hreads.deliver

/-- Nobody offers a subscription to a consumer that holds one. -/
theorem isUnoffered_crew (v : Opened) : IsUnoffered (v.crew kind p) where
  hasSubscribed hnone := by cases hnone
  offers k := by
    cases k with
    | owner => exact v.hand.offers_tasks
    | canceler => exact offers_cancelTasks v.canceling
    | reader => exact v.reading.offers_tasks
    | responder => exact fun t ht => by cases ht

/-- The stream of the consumer ends. -/
theorem hasEnded_of_signal (h : v.IsConsistent kind p n0) (hkind : kind ≠ .fireAndForget)
    (hlimit : n0 + askedIn v.done ≤ Demand.limit) {s : Signal Payload}
    (hreading : v.reading = .delivering s) (hs : s.isTerminal = true) {rest : List (Task Step)}
    (hk : v.reading.tasks = .call (.signal 0 s) :: rest) :
    HasEnded kind p n0 ((v.crew kind p).work environment .reader (.call (.signal 0 s)) rest) := by
  -- What was taken are the items of the consumer and the signal, and nothing is behind that.
  have hreads := h.reads
  rw [hreading] at hreads
  obtain ⟨fs, hfs⟩ : ∃ fs, v.replied = v.consumer.values.map (.next stream) ++ frameOf s :: fs := by
    refine ⟨v.replied.drop v.read, ?_⟩
    conv_lhs => rw [← List.take_append_drop v.read v.replied]
    rw [hreads.eq_append, List.append_assoc, List.singleton_append]
  obtain ⟨demand, hle, hreplied⟩ := h.exists_replied hkind hlimit
  have hterminal : (frameOf s).isTerminal = true := by
    cases s with
    | next => cases hs
    | complete | error => rfl
  obtain ⟨hvalues, hlast, -⟩ := eq_of_ending (hfs.symm.trans hreplied) hterminal
  obtain ⟨t, ht, hends⟩ := ends_of_ending? (v.done.any cancels) hlast hle
  obtain ⟨hended, hkept⟩ := deliver_of_isTerminal h.terminal hs
  have hstep : Crew.Step environment (rules kind p) (v.crew kind p)
      ((v.crew kind p).work environment .reader (.call (.signal 0 s)) rest) :=
    .work hk (by simp)
  have hterm : (v.consumer.deliver s).1.terminal = some t := hended.trans ht
  refine ⟨(v.consumer.deliver s).1, t,
    ⟨⟨v.line kind p, rfl⟩, by rw [hterm]; exact Option.some_ne_none t,
      Or.inr (v.isUnoffered_crew.step hstep)⟩, hterm, ?_⟩
  rw [hkept, hvalues, asked, isCanceled, Crew.done_work, askedIn_append, List.any_append]
  exact hends.mono (Nat.add_le_add_left (Nat.le_add_right ..) n0) fun hc => by
    show (v.done.any cancels || _) = true
    rw [hc, Bool.true_or]

/-- The reader does what it has in hand. -/
theorem stage_of_reader (h : v.IsConsistent kind p n0) (hkind : kind ≠ .fireAndForget)
    (hlimit : n0 + askedIn v.done ≤ Demand.limit) {t : Task Step} {rest : List (Task Step)}
    (hk : v.reading.tasks = t :: rest) :
    Stage kind p n0 ((v.crew kind p).work environment .reader t rest) := by
  have hreads := h.reads
  cases hreading : v.reading with
  | free =>
    rw [hreading] at hk
    cases hk
  | taken f =>
    rw [hreading] at hk hreads
    obtain ⟨rfl, rfl⟩ := List.cons.inj hk
    exact stage_of_reader_work { v with
      reading := .handed f
      done := v.done ++ [.call (.resume (.receive f))] } [.tell (.resumed (.receive f))] { h with
        canceled := by simpa [cancels] using h.canceled
        demand := by simpa [Line.requested] using h.demand
        reads := hreads.handOver } rfl rfl rfl rfl rfl
  | handed f =>
    rw [hreading] at hk hreads
    obtain ⟨rfl, rfl⟩ := List.cons.inj hk
    obtain ⟨hknown, hmem⟩ := hreads.of_handed
    obtain ⟨demand, -, hreplied⟩ := h.exists_replied hkind hlimit
    obtain ⟨s, rfl⟩ : ∃ s, f = frameOf s :=
      exists_frameOf (hreplied ▸ List.mem_of_mem_take hmem)
    exact stage_of_reader_work { v with
      known := !s.isTerminal
      reading := .delivering s
      done := v.done ++ [.tell (.resumed (.receive (frameOf s)))] } _ { h with
        canceled := by simpa [cancels] using h.canceled
        demand := by simpa [Line.requested] using h.demand
        reads := hreads.dispatch } (perform_handed s v hknown) (List.append_nil _).symm rfl rfl rfl
  | delivering s =>
    rw [hreading] at hk
    cases s with
    | next item =>
      obtain ⟨rfl, rfl⟩ := List.cons.inj hk
      exact stage_of_item h hreading
    | complete | error =>
      obtain ⟨rfl, rfl⟩ := List.cons.inj hk
      exact .ended (hasEnded_of_signal h hkind hlimit hreading rfl (by rw [hreading]; rfl))

/-! ## What the parties begin with -/

theorem hand_of_free (hk : v.hand.tasks = []) : v.hand = .free := by
  cases hhand : v.hand with
  | free => rfl
  | _ =>
    rw [hhand] at hk
    cases hk

theorem reading_of_free (hk : v.reading.tasks = []) : v.reading = .free := by
  cases hreading : v.reading with
  | free => rfl
  | delivering s =>
    rw [hreading] at hk
    cases s <;> cases hk
  | _ =>
    rw [hreading] at hk
    cases hk

/-- The owner begins to ask for items. -/
theorem stage_of_begin (h : v.IsConsistent kind p n0) (hk : v.hand.tasks = []) (n : Nat) :
    Stage kind p n0
      ((v.crew kind p).turn .owner [.own 0 (.request n)] (v.crew kind p).exchange) := by
  have hhand := hand_of_free hk
  have hturn : (v.crew kind p).turn .owner [.own 0 (.request n)] (v.crew kind p).exchange =
      ({ v with hand := .asking n } : Opened).crew kind p :=
    Crew.turn_eq rfl (stack_owner _ rfl rfl rfl) rfl
  rw [hturn]
  exact .opened { h with
    demand := by simpa [hhand, Hand.demand] using h.demand
    granting := fun m hm => by cases hm
    written := by simpa [hhand, Hand.frames] using h.written }

/-- The canceler begins to cancel. -/
theorem stage_of_canceling (h : v.IsConsistent kind p n0) :
    Stage kind p n0
      ((v.crew kind p).turn .canceler [.own 0 .cancel] (v.crew kind p).exchange) := by
  have hturn : (v.crew kind p).turn .canceler [.own 0 .cancel] (v.crew kind p).exchange =
      ({ v with canceling := true } : Opened).crew kind p :=
    Crew.turn_eq rfl (stack_canceler _ rfl rfl rfl) rfl
  rw [hturn]
  exact .opened { h with }

/-- The reader takes a frame. -/
theorem IsConsistent.take (h : v.IsConsistent kind p n0) (hk : v.reading.tasks = []) {f : Frame}
    {fs : List Frame} (hf : (v.line kind p).incoming = f :: fs) :
    ({ v with reading := .taken f, read := v.read + 1 } : Opened).IsConsistent kind p n0 := by
  obtain ⟨hlt, htake⟩ := take_succ_of_drop hf
  refine { h with read_le := hlt, reads := ?_ }
  have hreads := h.reads
  rw [reading_of_free hk] at hreads
  show Reads v.consumer.values v.known (v.replied.take (v.read + 1)) (.taken f)
  rw [show v.replied.take (v.read + 1) = v.replied.take v.read ++ [f] from htake]
  exact hreads.take f

/-- The responder handles a frame. -/
theorem IsConsistent.handle (h : v.IsConsistent kind p n0) {f : Frame} {fs : List Frame}
    (hf : (v.line kind p).outgoing = f :: fs) (hsound : (v.conversation.receive f).1.ended = none) :
    ({ v with
        conversation := (v.conversation.receive f).1
        handled := v.handled + 1
        replied := v.replied ++ (v.conversation.receive f).2 } :
      Opened).IsConsistent kind p n0 := by
  obtain ⟨hlt, htake⟩ := take_succ_of_drop hf
  refine { h with
    handled_le := hlt, conversation := ?_, ended := hsound, read_le := ?_, reads := ?_ }
  · show ({} : Responder.Conversation).receiveAll (v.written.take (v.handled + 1)) = _
    rw [show v.written.take (v.handled + 1) = v.written.take v.handled ++ [f] from htake,
      Responder.Conversation.receiveAll_append, h.conversation]
    rfl
  · rw [List.length_append]
    exact Nat.le_add_right_of_le h.read_le
  · rw [List.take_append_of_le_length h.read_le]
    exact h.reads

/-- Nobody is about to panic. -/
theorem not_raise {k : Party} {panic : Panic} {rest : List (Task Step)}
    (hk : (v.crew kind p).stack k = .call (.raise panic) :: rest) : False := by
  cases k with
  | owner =>
    have hk' : v.hand.tasks = .call (.raise panic) :: rest := hk
    cases hhand : v.hand <;> rw [hhand] at hk' <;> cases hk'
  | canceler => cases (eq_cancel_of_cons hk).1
  | reader =>
    have hk' : v.reading.tasks = .call (.raise panic) :: rest := hk
    cases hreading : v.reading with
    | delivering s =>
      rw [hreading] at hk'
      cases s <;> cases hk'
    | free | taken | handed =>
      rw [hreading] at hk'
      cases hk'
  | responder => cases hk

/-- **Every step with the subscription** leads to a stage, as long as every frame can be written. -/
theorem stage_of_step (h : v.IsConsistent kind p n0) (hkind : kind ≠ .fireAndForget)
    (hstep : Crew.Step environment (rules kind p) (v.crew kind p) d)
    (hsound : d.exchange.far.IsSound) (hlimit : n0 + askedIn v.done ≤ Demand.limit) :
    Stage kind p n0 d := by
  cases hstep with
  | @work k t rest hk ht =>
    cases k with
    | owner => exact stage_of_owner h hk hsound.1
    | canceler =>
      obtain ⟨rfl, -⟩ := eq_cancel_of_cons hk
      exact .ended (hasEnded_of_cancel rfl h.terminal (h.values_isPrefix hkind hlimit))
    | reader => exact stage_of_reader h hkind hlimit hk
    | responder => cases hk
  | panic hk => exact (not_raise hk).elim
  | @start k e ts hk hstart =>
    cases hstart with
    | subscribe hnone => cases hnone
    | ask n => exact stage_of_begin h hk n
    | cancel => exact stage_of_canceling h
    | @take f fs hf =>
      have hturn : (v.crew kind p).turn .reader [.call (.resume (.receive f))]
          { (v.crew kind p).exchange with far := { v.line kind p with read := v.read + 1 } } =
          ({ v with reading := .taken f, read := v.read + 1 } : Opened).crew kind p :=
        Crew.turn_eq rfl (stack_reader _ rfl rfl rfl) rfl
      exact hturn ▸ .opened (h.take hk hf)
    | @handle f fs hf =>
      have hturn : (v.crew kind p).turn .responder []
          { (v.crew kind p).exchange with far := (v.line kind p).handle f } =
          ({ v with
              conversation := (v.conversation.receive f).1
              handled := v.handled + 1
              replied := v.replied ++ (v.conversation.receive f).2 } : Opened).crew kind p :=
        Crew.turn_eq rfl (Function.update_eq_self _ _).symm rfl
      exact hturn ▸ .opened (h.handle hf hsound.2)
  | emit hk hemit => exact hemit.elim

end Opened
end Inquiry
end StreamConformance
