import StreamConformance.Proofs.Inquiry.Opened

/-!
# Requests from end to end

A consumer makes one request on a line to the reference responder.  Its owner asks for items before
and after that, somebody may cancel, and all frames can be written.  Whatever the order in which the
owner, the canceler, the reader and the responder get on, the consumer finds what the demand alone
decides: `Inquiry.IsServed` if its payload does not ask for an error, `Inquiry.IsRejected` if it
does.

* `Inquiry.stage_of_reach`: an inquiry is always at one of its stages.
* `Inquiry.Stage.isAccounted`: what a stage means for the consumer.
* `Inquiry.isServed_of_reach`: what the consumer finds.
-/

namespace StreamConformance
namespace Inquiry

open Client (Step)
open Line (stream)

variable {kind : Script.InteractionKind} {p : Payload} {n0 : Nat} {label : String}
  {c d : Crew Party Line Step}

/-- **An inquiry is always at one of its stages**, as long as every frame can be written. -/
theorem stage_of_reach (hkind : kind ≠ .fireAndForget)
    (hrun : Crew.Reach environment (rules kind p) (start label n0) c)
    (hsound : c.exchange.far.IsSound) (hlimit : n0 + asked c ≤ Demand.limit) :
    Stage kind p n0 c := by
  induction hrun with
  | refl =>
    let v : Unopened := { consumer := { label := label, initialDemand := n0 } }
    have hstart : v.crew kind p = start label n0 := by
      have hstack : (v.crew kind p).stack = fun _ => [] := by
        funext k
        cases k <;> rfl
      rw [start, ← hstack]
      rfl
    rw [← hstart]
    exact .unopened
      { terminal := rfl
        forward := rfl
        subscription := rfl
        values := rfl
        demand := rfl
        canceled := rfl }
  | @tail c d hreach hstep ih =>
    have hle := (asked_of_step hstep).1
    cases ih (isSound_of_step hstep hsound) (by omega) with
    | unopened h => exact Unopened.stage_of_step h hkind hstep hlimit
    | opened h =>
      refine Opened.stage_of_step h hkind hstep hsound (Nat.le_trans ?_ hlimit)
      exact Nat.add_le_add_left hle n0
    | ended h => exact .ended (h.step hstep)

/-! ## What a stage means for the consumer -/

/-- The items and the end of a stream are what the demand decides. -/
structure IsAccounted (kind : Script.InteractionKind) (p : Payload) (n0 : Nat)
    (c : Crew Party Line Step) : Prop where
  values : values c <+: itemsOf kind p (n0 + asked c)
  ended : ∀ t, terminal c = some t → Ends kind p (n0 + asked c) (isCanceled c) (Inquiry.values c) t
  canceled : isCanceled c = true → terminal c ≠ none
  settled : IsSettled c → HasSubscribed c → terminal c = none →
    Inquiry.values c = itemsOf kind p (n0 + asked c) ∧ ending? kind p (n0 + asked c) = none

/-- The consumer of a settled inquiry holds all items that its demand is answered by. -/
theorem Opened.IsConsistent.eq_of_isSettled {v : Opened} (h : v.IsConsistent kind p n0)
    (hkind : kind ≠ .fireAndForget) (hlimit : n0 + askedIn v.done ≤ Demand.limit)
    (hsettled : IsSettled (v.crew kind p)) :
    v.consumer.values = itemsOf kind p (n0 + askedIn v.done) ∧
      ending? kind p (n0 + askedIn v.done) = none := by
  have hhand := hand_of_free hsettled.owner
  have hreading := reading_of_free hsettled.reader
  -- All that was written has arrived, and all that was replied has been dispatched.
  have hwritten : v.written.take v.handled = tape kind p v.grants := by
    have hle : v.written.length ≤ v.handled := List.drop_eq_nil_iff.mp hsettled.outgoing
    have htape := h.written
    rw [hhand] at htape
    rw [List.take_of_length_le hle, ← htape]
    exact (List.append_nil _).symm
  have hdemand : v.grants.sum = n0 + askedIn v.done := by
    simpa [hhand, Hand.demand] using h.demand
  have hreplied := h.replied_eq hkind hlimit (List.prefix_refl _) hwritten
  have hread : v.replied.take v.read = v.replied :=
    List.take_of_length_le (List.drop_eq_nil_iff.mp hsettled.incoming)
  have hreads := h.reads
  rw [hreading, hread, hreplied, hdemand] at hreads
  exact eq_of_items hreads.eq_of_free.symm

theorem Stage.isAccounted (h : Stage kind p n0 c) (hkind : kind ≠ .fireAndForget)
    (hlimit : n0 + asked c ≤ Demand.limit) : IsAccounted kind p n0 c := by
  cases h with
  | @unopened v h =>
    obtain ⟨hterm, hvalues⟩ := seen_of_consumer? (c := v.crew kind p) (consumer?_of_exchange rfl)
    rw [h.terminal] at hterm
    rw [h.values] at hvalues
    refine
      { values := by
          rw [hvalues]
          exact List.nil_prefix
        ended := fun t ht => by
          rw [hterm] at ht
          cases ht
        canceled := fun hc => absurd (hc.symm.trans h.canceled) (by decide)
        settled := fun hsettled hsubscribed => ?_ }
    -- An owner with nothing in hand has not begun to subscribe.
    have happroach := Unopened.approach_of_free hsettled.owner
    refine absurd ?_ hsubscribed
    show (v.approach.connection kind p).streams = #[]
    rw [happroach]
    rfl
  | @opened v h =>
    obtain ⟨hterm, hvalues⟩ := seen_of_consumer? (c := v.crew kind p) (consumer?_of_exchange rfl)
    rw [h.terminal] at hterm
    exact
      { values := by
          rw [hvalues]
          exact h.values_isPrefix hkind hlimit
        ended := fun t ht => by
          rw [hterm] at ht
          cases ht
        canceled := fun hc => absurd (hc.symm.trans h.canceled) (by decide)
        settled := fun hsettled _ _ => by
          rw [hvalues]
          exact h.eq_of_isSettled hkind hlimit hsettled }
  | ended h =>
    obtain ⟨consumer, t, hover, ht, hends⟩ := h
    obtain ⟨line, hline⟩ := hover.exchange
    obtain ⟨hterm, hvalues⟩ := seen_of_consumer? (consumer?_of_exchange hline)
    rw [ht] at hterm
    rw [← hvalues] at hends
    exact
      { values := hends.isPrefix
        ended := fun t' ht' => by
          rw [hterm] at ht'
          obtain rfl := Option.some.inj ht'
          exact hends
        canceled := fun _ => by
          rw [hterm]
          exact Option.some_ne_none t
        settled := fun _ _ hnone => by
          rw [hterm] at hnone
          cases hnone }

/-! ## What the consumer finds -/

/-- What a consumer finds whose payload does not ask for an error.  It began with a demand of
`n0`. -/
structure IsServed (kind : Script.InteractionKind) (p : Payload) (n0 : Nat)
    (c : Crew Party Line Step) : Prop where
  copies : ∀ q ∈ values c, q = p
  atMost : (values c).length ≤ itemsFor kind (n0 + asked c)
  /-- A stream is complete with its last item only. -/
  completed : terminal c = some .completed → itemLimit kind = some (values c).length
  unfailed : ∀ message, terminal c ≠ some (.errored message)
  /-- Once nothing is on its way, the demand has been answered. -/
  settled : IsSettled c → HasSubscribed c → isCanceled c = false →
    (values c).length = itemsFor kind (n0 + asked c) ∧
      (terminal c = some .completed ↔ ∃ k, itemLimit kind = some k ∧ k ≤ n0 + asked c)

/-- What a consumer finds whose payload asks for an error.  It began with a demand of `n0`. -/
structure IsRejected (p : Payload) (n0 : Nat) (c : Crew Party Line Step) : Prop where
  empty : values c = []
  uncompleted : terminal c ≠ some .completed
  /-- Once nothing is on its way, any demand has been answered by the error. -/
  settled : IsSettled c → HasSubscribed c → isCanceled c = false →
    terminal c = if 0 < n0 + asked c then some (.errored p.requestedError) else none

theorem IsAccounted.isServed (h : IsAccounted kind p n0 c) (hp : p.asksForError = false) :
    IsServed kind p n0 c := by
  have hitems : itemsOf kind p (n0 + asked c) =
      List.replicate (itemsFor kind (n0 + asked c)) p := by
    rw [itemsOf, hp, if_neg Bool.false_ne_true]
  have hvalues := h.values
  rw [hitems] at hvalues
  have hcompleted (ht : terminal c = some .completed) :
      ∃ k, itemLimit kind = some k ∧ k ≤ n0 + asked c ∧ (Inquiry.values c).length = k := by
    cases h.ended _ ht with
    | @completed k _ hk hle hvs => exact ⟨k, hk, hle, by rw [hvs, List.length_replicate]⟩
  refine
    { copies := fun q hq => List.eq_of_mem_replicate (hvalues.subset hq)
      atMost := by simpa using hvalues.length_le
      completed := fun ht => ?_
      unfailed := fun message ht => ?_
      settled := fun hsettled hsubscribed hcanceled => ?_ }
  · obtain ⟨k, hk, -, hlength⟩ := hcompleted ht
    rw [hk, hlength]
  · cases h.ended _ ht with
    | errored hp' => exact absurd (hp.symm.trans hp') (by decide)
  · cases ht : terminal c with
    | none =>
      obtain ⟨hall, hnone⟩ := h.settled hsettled hsubscribed ht
      refine ⟨by rw [hall, hitems, List.length_replicate], iff_of_false (by simp) ?_⟩
      rintro ⟨k, hk, hle⟩
      simp [ending?, hp, hk, hle] at hnone
    | some t =>
      cases h.ended t ht with
      | @completed k _ hk hle hvs =>
        refine ⟨?_, iff_of_true rfl ⟨k, hk, hle⟩⟩
        rw [hvs, List.length_replicate, itemsFor, hk]
        exact (Nat.min_eq_left hle).symm
      | errored hp' => exact absurd (hp.symm.trans hp') (by decide)
      | canceled hc => exact absurd (hcanceled.symm.trans hc) (by decide)

theorem IsAccounted.isRejected (h : IsAccounted kind p n0 c) (hp : p.asksForError = true) :
    IsRejected p n0 c := by
  have hvalues := h.values
  rw [itemsOf, if_pos hp, List.prefix_nil] at hvalues
  refine
    { empty := hvalues
      uncompleted := fun ht => ?_
      settled := fun hsettled hsubscribed hcanceled => ?_ }
  · cases h.ended _ ht with
    | completed hp' => exact absurd (hp'.symm.trans hp) (by decide)
  · cases ht : terminal c with
    | none =>
      have hnone := (h.settled hsettled hsubscribed ht).2
      rw [ending?, if_pos hp] at hnone
      split at hnone
      · rw [if_neg (by omega)]
      · cases hnone
    | some t =>
      cases h.ended t ht with
      | completed hp' => exact absurd (hp'.symm.trans hp) (by decide)
      | errored _ hd => rw [if_pos (Nat.pos_of_ne_zero hd)]
      | canceled hc => exact absurd (hcanceled.symm.trans hc) (by decide)

/-- Once somebody has canceled, nothing changes for the consumer any more. -/
theorem Stage.consumer?_eq (h : Stage kind p n0 c) (hc : isCanceled c = true)
    (hrun : Crew.Reach environment (rules kind p) c d) : consumer? d = consumer? c := by
  cases h with
  | unopened h => exact absurd (hc.symm.trans h.canceled) (by decide)
  | opened h => exact absurd (hc.symm.trans h.canceled) (by decide)
  | ended h =>
    obtain ⟨consumer, t, hover, -, -⟩ := h
    obtain ⟨line, hline⟩ := hover.exchange
    obtain ⟨line', hline'⟩ := (hrun.invariant (fun _ _ hover => hover.step) hover).exchange
    rw [consumer?_of_exchange hline, consumer?_of_exchange hline']

/-- **A request from end to end.**  The consumer begins with a demand of `n0`, and the payload of
the request is `p`.  In whichever order the owner of the consumer, the canceler, the reader and the
responder get on, and however the demand is split:

* The consumer is served if the payload does not ask for an error, and is told the error if it does.
* Once somebody has canceled, the stream of the consumer has ended, and nothing changes for the
  consumer any more. -/
theorem isServed_of_reach (hkind : kind ≠ .fireAndForget)
    (hrun : Crew.Reach environment (rules kind p) (start label n0) c)
    (hsound : c.exchange.far.IsSound) (hlimit : n0 + asked c ≤ Demand.limit) :
    (p.asksForError = false → IsServed kind p n0 c) ∧
    (p.asksForError = true → IsRejected p n0 c) ∧
    (isCanceled c = true → terminal c ≠ none ∧
      ∀ d, Crew.Reach environment (rules kind p) c d → consumer? d = consumer? c) := by
  have hstage := stage_of_reach hkind hrun hsound hlimit
  have h := hstage.isAccounted hkind hlimit
  exact ⟨h.isServed, h.isRejected, fun hc => ⟨h.canceled hc, fun d => hstage.consumer?_eq hc⟩⟩

/-- The consumer is asked for an item before it subscribes to a stream, which is one more than it
begins with; when both have come, it is asked for more than there are. -/
def asksTwice : Crew Party Line Step :=
  play .requestStream ⟨"a", "b"⟩
    ([.ask 1, .goOn .owner, .subscribe] ++ List.replicate 7 (.goOn .owner) ++ [.handle] ++
      dispatch ++ dispatch ++ [.ask 5] ++ List.replicate 4 (.goOn .owner) ++ [.handle] ++
      dispatch ++ dispatch)
    (start "stream" 1)
where
  dispatch : List Turn := .take :: List.replicate 3 (.goOn .reader)

theorem asksTwice_eq :
    asksTwice.exchange.far.failed = false ∧ asksTwice.exchange.far.conversation.ended = none ∧
      asked asksTwice = 6 ∧ isCanceled asksTwice = false ∧ asksTwice.stack .owner = [] ∧
      asksTwice.stack .reader = [] ∧ asksTwice.exchange.far.outgoing = [] ∧
      asksTwice.exchange.far.incoming = [] ∧
      asksTwice.exchange.far.connection.streams.size = 1 := by
  decide +kernel

theorem isServed_asksTwice :
    Crew.Reach environment (rules .requestStream ⟨"a", "b"⟩) (start "stream" 1) asksTwice ∧
      asksTwice.exchange.far.IsSound ∧ 1 + asked asksTwice ≤ Demand.limit ∧
      values asksTwice = List.replicate 3 ⟨"a", "b"⟩ ∧ terminal asksTwice = some .completed := by
  obtain ⟨hfailed, hended, hasked, hcanceled, howner, hreader, hout, hin, hsize⟩ := asksTwice_eq
  have hrun : Crew.Reach environment (rules .requestStream ⟨"a", "b"⟩) (start "stream" 1)
      asksTwice := reach_play ..
  have hlimit : 1 + asked asksTwice ≤ Demand.limit := by
    rw [hasked]
    decide
  have hsubscribed : HasSubscribed asksTwice := fun hnone => by
    rw [hnone] at hsize
    cases hsize
  obtain ⟨hserved, -, -⟩ := isServed_of_reach (by decide) hrun ⟨hfailed, hended⟩ hlimit
  have h := hserved (by decide)
  obtain ⟨hlength, hcompleted⟩ := h.settled ⟨howner, hreader, hout, hin⟩ hsubscribed hcanceled
  rw [hasked] at hlength hcompleted
  exact ⟨hrun, ⟨hfailed, hended⟩, hlimit, List.eq_replicate_iff.mpr ⟨hlength, h.copies⟩,
    hcompleted.mpr ⟨3, rfl, by decide⟩⟩

end Inquiry
end StreamConformance
