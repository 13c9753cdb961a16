import StreamConformance.Proofs.Responder.Streams
import StreamConformance.Proofs.Wire.Body

/-!
# How the responder answers requests

A request for a stream of `streamLength` items and a subscription are answered by copies of the
payload, as many as were asked for.  How the demand is split into frames, and what else a client
sends on the stream, does not matter.

* `Wire.demandUntilStop`: the demand that counts for a stream that is open.
* `Responder.answerAll_stream`, `Responder.answerAll_subscription`: the answers to all frames behind
  a request.
* `Responder.IsAnswered`: what a client finds on a stream.
* `Responder.isAnswered_of_goesOn`: that is so for every stream that is opened once, whatever happens
  on the others.
-/

namespace StreamConformance

namespace Wire

/-- The demand that a frame brings to a stream that is open. -/
def Frame.demand : Frame → Nat
  | .requestN _ n => n
  | _ => 0

/-- The demand that some frames bring before the client gives the stream up. -/
def demandUntilStop (fs : List Frame) : Nat :=
  ((fs.takeWhile (!·.stops)).map Frame.demand).sum

@[simp] theorem demandUntilStop_nil : demandUntilStop [] = 0 := rfl

theorem demandUntilStop_cons (f : Frame) (fs : List Frame) :
    demandUntilStop (f :: fs) = if f.stops then 0 else f.demand + demandUntilStop fs := by
  unfold demandUntilStop
  cases hf : f.stops
  · rw [List.takeWhile_cons_of_pos (by rw [hf]; rfl), List.map_cons, List.sum_cons]
    rfl
  · rw [List.takeWhile_cons_of_neg (by rw [hf]; exact Bool.false_ne_true)]
    rfl

/-- No stream is opened twice. -/
def OpensOnce (fs : List Frame) : Prop :=
  ((fs.filter Frame.opens).map Frame.stream).Nodup

instance (fs : List Frame) : Decidable (OpensOnce fs) :=
  inferInstanceAs (Decidable (List.Nodup _))

/-- Before and behind the frame that opens a stream there is no other. -/
theorem OpensOnce.not_opens {stream : UInt32} {fs before after : List Frame} {f : Frame}
    (h : OpensOnce fs) (hfs : onStream stream fs = before ++ f :: after) (hf : f.opens = true) :
    (∀ g ∈ before, g.opens = false) ∧ ∀ g ∈ after, g.opens = false := by
  have hstream : ∀ g ∈ before ++ f :: after, g.stream = stream := by
    intro g hg
    rw [← hfs] at hg
    exact eq_of_beq (List.mem_filter.mp hg).2
  -- Two frames that open the stream would be two mentions of it.
  have hpair {g g' : Frame} (hsub : [g, g'].Sublist (before ++ f :: after)) (hg : g.opens = true)
      (hg' : g'.opens = true) : False := by
    have hsub' : [g, g'].Sublist fs := (hfs ▸ hsub).trans List.filter_sublist
    have hstreams := ((hsub'.filter Frame.opens).map Frame.stream).nodup h
    rw [List.filter_cons_of_pos hg, List.filter_cons_of_pos hg', List.filter_nil, List.map_cons,
      List.map_cons, List.map_nil, hstream g (hsub.subset List.mem_cons_self),
      hstream g' (hsub.subset (List.mem_cons_of_mem g List.mem_cons_self))] at hstreams
    simp at hstreams
  refine ⟨fun g hg => ?_, fun g hg => ?_⟩
  · by_contra hopens
    have hsub : ([g] ++ [f]).Sublist (before ++ f :: after) :=
      (List.singleton_sublist.mpr hg).append (List.singleton_sublist.mpr List.mem_cons_self)
    exact hpair hsub (eq_true_of_ne_false hopens) hf
  · by_contra hopens
    have hsub : [f, g].Sublist (before ++ f :: after) :=
      ((List.singleton_sublist.mpr hg).cons_cons f).trans (List.sublist_append_right ..)
    exact hpair hsub hf (eq_true_of_ne_false hopens)

end Wire

namespace Responder

open Wire (Frame onStream onStream_append onStream_cons_of_eq demandUntilStop demandUntilStop_cons
  OpensOnce)

variable {stream : UInt32} {p : Payload} {f : Frame} {fs gs : List Frame}

/-! ## Streams and subscriptions -/

/-- What is said on a stream of `k` items with a demand of `n`. -/
def itemsUpTo (stream : UInt32) (p : Payload) (k n : Nat) : List Frame :=
  List.replicate (min k n) (.next stream p) ++ if k ≤ n then [.complete stream] else []

theorem itemsUpTo_of_lt {k d : Nat} (h : d < k) (n : Nat) :
    List.replicate d (.next stream p) ++ itemsUpTo stream p (k - d) n =
      itemsUpTo stream p k (d + n) := by
  have hmin : d + min (k - d) n = min k (d + n) := by omega
  have hall : k - d ≤ n ↔ k ≤ d + n := by omega
  rw [itemsUpTo, itemsUpTo, ← List.append_assoc, List.replicate_append_replicate, hmin]
  simp only [hall]

theorem flush_stream (k d : Nat) :
    (Activity.stream k p d).flush stream =
      if k ≤ d then (none, List.replicate k (.next stream p) ++ [.complete stream])
      else (some (.stream (k - d) p 0), List.replicate d (.next stream p)) := by
  simp only [Activity.flush]
  by_cases h : k ≤ d
  · rw [if_pos h, Nat.min_eq_right h, if_pos (by simp)]
  · have hmin : min d k = d := by omega
    have hleft : ¬ (k - d == 0) = true := by
      rw [beq_iff_eq]
      omega
    rw [if_neg h, hmin, if_neg hleft, Nat.sub_self]

theorem answer_of_stops (h : f.stops = true) (a : Option Activity) : answer f a = (none, []) := by
  cases f with
  | cancel | error => rfl
  | _ => cases h

/-- An activity waits for demand: without it, only what ends the stream changes anything. -/
structure Activity.IsWaiting (stream : UInt32) (a : Activity) : Prop where
  flush : a.flush stream = (some a, [])
  grant : a.grant 0 = a
  not_channel : ∀ c, a ≠ .channel c

theorem isWaiting_stream {k : Nat} (hk : 0 < k) :
    (Activity.stream k p 0).IsWaiting stream where
  flush := by
    rw [flush_stream, if_neg (by omega)]
    rfl
  grant := rfl
  not_channel c h := by cases h

theorem isWaiting_subscription : (Activity.subscription p 0).IsWaiting stream where
  flush := rfl
  grant := rfl
  not_channel c h := by cases h

/-- A frame counts for the demand that it brings, and for nothing else. -/
theorem Activity.IsWaiting.answer {a : Activity} (h : a.IsWaiting stream) (hf : f.stream = stream)
    (ho : f.opens = false) (hs : f.stops = false) :
    Responder.answer f (some a) = (a.grant f.demand).flush stream := by
  subst hf
  cases f with
  | requestResponse | requestStream | requestSubscription | requestChannel => cases ho
  | error | cancel => cases hs
  | requestN stream n => rfl
  | fireAndForget stream q => exact h.grant.symm ▸ h.flush.symm
  | next stream q =>
    cases a with
    | channel c => exact absurd rfl (h.not_channel c)
    | stream | subscription => exact congrArg (Activity.flush stream) h.grant.symm
  | complete stream =>
    cases a with
    | channel c => exact absurd rfl (h.not_channel c)
    | stream | subscription => exact congrArg (Activity.flush stream) h.grant.symm

theorem Activity.IsWaiting.answerAll_cons {a : Activity} (h : a.IsWaiting stream)
    (hf : f.stream = stream) (ho : ∀ g ∈ f :: fs, g.opens = false) :
    (answerAll (f :: fs) (some a)).2 =
      if f.stops then []
      else ((a.grant f.demand).flush stream).2 ++
        (answerAll fs ((a.grant f.demand).flush stream).1).2 := by
  rw [answerAll]
  cases hs : f.stops with
  | true =>
    rw [answer_of_stops hs, answerAll_none fun g hg => ho g (List.mem_cons_of_mem f hg)]
    rfl
  | false =>
    rw [h.answer hf (ho f List.mem_cons_self) hs]
    rfl

/-- **The answers on a stream of `k` items**, of which `d` are asked for at the beginning. -/
theorem answerAll_stream {k : Nat} (hk : 0 < k) (hlimit : k ≤ Demand.limit) (d : Nat)
    (hs : ∀ f ∈ fs, f.stream = stream) (ho : ∀ f ∈ fs, f.opens = false) :
    ((Activity.stream k p d).flush stream).2 ++
        (answerAll fs ((Activity.stream k p d).flush stream).1).2 =
      itemsUpTo stream p k (d + demandUntilStop fs) := by
  induction fs generalizing k d with
  | nil =>
    rw [flush_stream, itemsUpTo]
    by_cases h : k ≤ d
    · simp [answerAll, h]
    · have hmin : min k d = d := by omega
      simp [answerAll, h, hmin]
  | cons f fs ih =>
    rw [flush_stream]
    by_cases h : k ≤ d
    · -- All items were sent, and the rest comes too late.
      have hall : k ≤ d + demandUntilStop (f :: fs) := by omega
      rw [if_pos h, answerAll_none ho, itemsUpTo, Nat.min_eq_left hall, if_pos hall,
        List.append_nil]
    · have hleft : 0 < k - d := by omega
      rw [if_neg h, ← itemsUpTo_of_lt (by omega), demandUntilStop_cons,
        (isWaiting_stream hleft).answerAll_cons (hs f List.mem_cons_self) ho]
      refine congrArg (List.replicate d _ ++ ·) ?_
      split
      · rw [itemsUpTo, Nat.min_zero, if_neg (by omega)]
        rfl
      · -- Demand beyond the limit is lost, but the limit is enough for all items.
        have hrest := ih hleft (by omega) (Demand.add 0 f.demand)
          (fun g hg => hs g (List.mem_cons_of_mem f hg))
          (fun g hg => ho g (List.mem_cons_of_mem f hg))
        have hadd : Demand.add 0 f.demand = min f.demand Demand.limit := by
          rw [Demand.add, Nat.zero_add]
        have hmin : min (k - d) (min f.demand Demand.limit + demandUntilStop fs) =
            min (k - d) (f.demand + demandUntilStop fs) := by omega
        have hall : k - d ≤ min f.demand Demand.limit + demandUntilStop fs ↔
            k - d ≤ f.demand + demandUntilStop fs := by omega
        rw [Activity.grant, hrest, hadd, itemsUpTo, itemsUpTo, hmin]
        simp only [hall]

/-- **The answers to a subscription**, of which `d` are asked for at the beginning. -/
theorem answerAll_subscription (d : Nat) (hs : ∀ f ∈ fs, f.stream = stream)
    (ho : ∀ f ∈ fs, f.opens = false) (hw : ∀ f ∈ fs, f.HasWordCount) :
    ((Activity.subscription p d).flush stream).2 ++
        (answerAll fs ((Activity.subscription p d).flush stream).1).2 =
      List.replicate (d + demandUntilStop fs) (.next stream p) := by
  induction fs generalizing d with
  | nil => exact List.append_nil _
  | cons f fs ih =>
    have hflush : (Activity.subscription p d).flush stream =
        (some (.subscription p 0), List.replicate d (.next stream p)) := rfl
    rw [hflush, ← List.replicate_append_replicate, demandUntilStop_cons,
      isWaiting_subscription.answerAll_cons (hs f List.mem_cons_self) ho]
    refine congrArg (List.replicate d _ ++ ·) ?_
    split
    · rfl
    · have hword : f.demand ≤ Demand.limit := by
        cases f with
        | requestN stream n => exact hw _ List.mem_cons_self
        | _ => exact Nat.zero_le _
      have hadd : Demand.add 0 f.demand = f.demand := by
        rw [Demand.add, Nat.zero_add, Nat.min_eq_left hword]
      rw [Activity.grant, hadd]
      exact ih f.demand (fun g hg => hs g (List.mem_cons_of_mem f hg))
        (fun g hg => ho g (List.mem_cons_of_mem f hg))
        fun g hg => hw g (List.mem_cons_of_mem f hg)

/-! ## What a client finds on a stream -/

/-- What the responder replies to some frames. -/
def replies (fs : List Frame) : List Frame :=
  (({} : Conversation).receiveAll fs).2

/-- The conversation goes on behind some frames. -/
def GoesOn (fs : List Frame) : Prop :=
  (({} : Conversation).receiveAll fs).1.ended = none

/-- A client ends a conversation with the shutdown payload. -/
theorem Conversation.ended_receive_iff {v : Conversation} (hv : v.ended = none) :
    (v.receive f).1.ended = some (.ok ()) ↔
      ∃ s q, f = .fireAndForget s q ∧ q.isShutdown = true := by
  rw [receive, hv, Option.isSome_none, if_neg Bool.false_ne_true]
  constructor
  · intro h
    rcases hw : written (v.responder.handle f).2.1 with ⟨frames, _ | fault⟩
    · simp only [hw] at h
      split at h
      · cases h
      · rename_i hstops
        cases f with
        | fireAndForget s q => exact ⟨s, q, rfl, by simpa [handle] using hstops⟩
        | _ => exact absurd rfl hstops
    · simp only [hw] at h
      cases h
  · rintro ⟨s, q, rfl, hq⟩
    simp [handle, written, hq]

theorem Conversation.receiveAll_of_ended {v : Conversation} (hv : v.ended ≠ none)
    (fs : List Wire.Frame) : v.receiveAll fs = (v, []) := by
  induction fs with
  | nil => rfl
  | cons f fs ih =>
    have hf : v.receive f = (v, []) := if_pos (Option.isSome_iff_ne_none.mpr hv)
    rw [receiveAll_cons, hf, ih, List.append_nil]

/-- A conversation goes on unless a frame had the shutdown payload or a reply could not be
written. -/
theorem goesOn_iff : GoesOn fs ↔
    (∀ s q, .fireAndForget s q ∈ fs → q.isShutdown = false) ∧
      ∀ fault, (({} : Conversation).receiveAll fs).1.ended ≠ some (.error fault) := by
  have hrun (v : Conversation) (hv : v.ended = none) : (v.receiveAll fs).1.ended = none ↔
      (∀ s q, .fireAndForget s q ∈ fs → q.isShutdown = false) ∧
        ∀ fault, (v.receiveAll fs).1.ended ≠ some (.error fault) := by
    induction fs generalizing v with
    | nil =>
      have hnil : (v.receiveAll []).1.ended = none := hv
      simp [hnil]
    | cons f fs ih =>
      have hshutdown := Conversation.ended_receive_iff (f := f) hv
      rw [Conversation.receiveAll_cons]
      rcases hf : (v.receive f).1.ended with _ | ended
      · have hlasts : ∀ s q, f = .fireAndForget s q → q.isShutdown = false := by
          intro s q hfire
          by_contra hq
          rw [hshutdown.mpr ⟨s, q, hfire, eq_true_of_ne_false hq⟩] at hf
          cases hf
        rw [ih _ hf]
        refine and_congr_left fun _ => ⟨fun h s q hmem => ?_, fun h s q hmem => ?_⟩
        · rcases List.mem_cons.mp hmem with heq | hmem
          · exact hlasts s q heq.symm
          · exact h s q hmem
        · exact h s q (List.mem_cons_of_mem f hmem)
      · have hstays : (v.receive f).1.receiveAll fs = ((v.receive f).1, []) :=
          Conversation.receiveAll_of_ended (by rw [hf]; simp) fs
        rw [hstays, hf]
        rcases ended with fault | ⟨⟨⟩⟩
        · simp
        · obtain ⟨s, q, rfl, hq⟩ := hshutdown.mp hf
          refine iff_of_false (by simp) fun h => ?_
          rw [h.1 s q List.mem_cons_self] at hq
          cases hq
  exact hrun {} rfl

theorem GoesOn.of_append (h : GoesOn (fs ++ gs)) : GoesOn fs := by
  rw [GoesOn, Conversation.receiveAll_append] at h
  exact Conversation.ended_of_receiveAll h

theorem GoesOn.onStream_replies (h : GoesOn fs) (stream : UInt32) :
    onStream stream (replies fs) = (answerAll (onStream stream fs) none).2 :=
  congrArg Prod.snd (Conversation.onStream_receiveAll h stream)

/-- Where the frames that follow are not answered, nothing more is said. -/
theorem GoesOn.onStream_replies_append (h : GoesOn (fs ++ gs))
    (hsilent :
      (answerAll (onStream stream gs) (answerAll (onStream stream fs) none).1).2 = []) :
    onStream stream (replies (fs ++ gs)) = onStream stream (replies fs) := by
  rw [h.onStream_replies, h.of_append.onStream_replies, onStream_append, answerAll_append, hsilent,
    List.append_nil]

/-- A frame with which a client gives a stream up is not answered, and nothing is behind it. -/
theorem GoesOn.onStream_replies_of_stops (h : GoesOn (fs ++ f :: gs)) (hf : f.stream = stream)
    (hstops : f.stops = true) (hrest : ∀ g ∈ onStream stream gs, g.opens = false) :
    onStream stream (replies (fs ++ f :: gs)) = onStream stream (replies fs) := by
  refine h.onStream_replies_append ?_
  rw [onStream_cons_of_eq hf, answerAll, answer_of_stops hstops, answerAll_none hrest]
  rfl

/-- What a client finds on a stream. -/
structure IsAnswered (stream : UInt32) (fs : List Frame) : Prop where
  /-- What happens on other streams makes no difference. -/
  alone : ∀ gs, GoesOn gs → onStream stream gs = onStream stream fs →
    onStream stream (replies gs) = onStream stream (replies fs)
  response : ∀ p before after, onStream stream fs = before ++ .requestResponse stream p :: after →
    onStream stream (replies fs) =
      if p.asksForError then [.error stream p.requestedError]
      else [.next stream p, .complete stream]
  items : ∀ n p before after, onStream stream fs = before ++ .requestStream stream n p :: after →
    onStream stream (replies fs) =
      if p.asksForError then [.error stream p.requestedError]
      else
        List.replicate (min 3 (n + demandUntilStop after)) (.next stream p) ++
          if 3 ≤ n + demandUntilStop after then [.complete stream] else []
  subscription : ∀ n p before after,
    onStream stream fs = before ++ .requestSubscription stream n p :: after →
    onStream stream (replies fs) =
      if p.asksForError then [.error stream p.requestedError]
      else List.replicate (n + demandUntilStop after) (.next stream p)
  /-- Nothing is said before the stream is opened. -/
  unopened : ∀ gs hs, fs = gs ++ hs → (∀ f ∈ onStream stream gs, f.opens = false) →
    onStream stream (replies gs) = []
  /-- Nothing is said behind a completion or an error. -/
  ended : ∀ gs hs g, fs = gs ++ hs → g ∈ onStream stream (replies gs) → g.isTerminal = true →
    onStream stream (replies fs) = onStream stream (replies gs)
  /-- Nothing is said once the client has given up the stream that it had opened. -/
  stopped : ∀ gs f hs, fs = gs ++ f :: hs → f.stream = stream → f.stops = true →
    (∃ g ∈ onStream stream gs, g.opens = true) →
    onStream stream (replies fs) = onStream stream (replies gs)

/-- Frames before the one that opens a stream do not matter. -/
theorem answerAll_opening {before after : List Frame} (h : ∀ g ∈ before, g.opens = false) :
    (answerAll (before ++ f :: after) none).2 =
      (answer f none).2 ++ (answerAll after (answer f none).1).2 := by
  rw [answerAll_append, answerAll_none h, List.nil_append, answerAll]

/-- A request that asks for an error is answered with one, and with nothing else. -/
theorem answerAll_request {o : Option Activity × List Frame} {message : Frame}
    {after : List Frame} (h : ∀ g ∈ after, g.opens = false) (b : Prop) [Decidable b] :
    (if b then (none, [message]) else o).2 ++
        (answerAll after (if b then (none, [message]) else o).1).2 =
      if b then [message] else o.2 ++ (answerAll after o.1).2 := by
  split
  · rw [answerAll_none h, List.append_nil]
  · rfl

/-- **What a client finds on a stream.**  A conversation goes on, and no stream is opened twice in
it; then every stream is answered by itself, and requests are answered as they ask to be. -/
theorem isAnswered_of_goesOn (hgoes : GoesOn fs) (hwords : ∀ f ∈ fs, f.HasWordCount)
    (honce : OpensOnce fs) (stream : UInt32) : IsAnswered stream fs := by
  have hreplies := hgoes.onStream_replies stream
  have hstream : ∀ f ∈ onStream stream fs, f.stream = stream :=
    fun f hf => eq_of_beq (List.mem_filter.mp hf).2
  have hword : ∀ f ∈ onStream stream fs, f.HasWordCount :=
    fun f hf => hwords f (List.mem_filter.mp hf).1
  have hgoes' {gs hs : List Frame} (hfs : fs = gs ++ hs) : GoesOn gs :=
    GoesOn.of_append (hfs ▸ hgoes)
  -- What comes behind the frame that opens the stream.
  have hopened {o : Frame} {before after : List Frame}
      (hfs : onStream stream fs = before ++ o :: after) (ho : o.opens = true) :
      onStream stream (replies fs) = (answer o none).2 ++ (answerAll after (answer o none).1).2 ∧
        (∀ g ∈ after, g.opens = false) ∧ (∀ g ∈ after, g.stream = stream) ∧
          ∀ g ∈ after, g.HasWordCount := by
    obtain ⟨hbefore, hafter⟩ := honce.not_opens hfs ho
    have hmem {g : Frame} (hg : g ∈ after) : g ∈ onStream stream fs := by
      rw [hfs]
      exact List.mem_append_right _ (List.mem_cons_of_mem o hg)
    refine ⟨?_, hafter, fun g hg => hstream g (hmem hg), fun g hg => hword g (hmem hg)⟩
    rw [hreplies, hfs, answerAll_opening hbefore]
  exact
    { alone := fun gs hgs hsame => by rw [hgs.onStream_replies, hsame, hreplies]
      response := fun p before after hfs => by
        obtain ⟨hall, hafter, -⟩ := hopened hfs rfl
        rw [hall, answer, answerAll_none hafter, List.append_nil]
      items := fun n p before after hfs => by
        obtain ⟨hall, hafter, hs, -⟩ := hopened hfs rfl
        rw [hall, answer, answerAll_request hafter,
          answerAll_stream (by decide) (by decide) n hs hafter]
        rfl
      subscription := fun n p before after hfs => by
        obtain ⟨hall, hafter, hs, hw⟩ := hopened hfs rfl
        rw [hall, answer, answerAll_request hafter, answerAll_subscription n hs hafter hw]
      unopened := fun gs hs hfs hgs => by
        rw [(hgoes' hfs).onStream_replies, answerAll_none hgs]
      ended := fun gs hs g hfs hg hterminal => by
        rw [(hgoes' hfs).onStream_replies] at hg
        have hopens : ∃ o ∈ onStream stream gs, o.opens = true := by
          by_contra hnone
          rw [answerAll_none fun o ho => eq_false_of_ne_true fun hopen => hnone ⟨o, ho, hopen⟩] at hg
          cases hg
        obtain ⟨o, ho, hopen⟩ := hopens
        obtain ⟨before, after, hgs⟩ := List.append_of_mem ho
        have hown : onStream stream fs = before ++ o :: (after ++ onStream stream hs) := by
          rw [hfs, onStream_append, hgs, List.append_assoc, List.cons_append]
        obtain ⟨hbefore, hbehind⟩ := honce.not_opens hown hopen
        have hafter : ∀ g ∈ after, g.opens = false :=
          fun g hg => hbehind g (List.mem_append_left _ hg)
        have hover : (answerAll (onStream stream gs) none).1 = none := by
          rw [hgs, answerAll_opening hbefore] at hg
          rw [hgs, answerAll_append, answerAll_none hbefore, answerAll]
          rcases List.mem_append.mp hg with hfirst | hlater
          · rw [fst_answer_of_terminal (fun _ => rfl) hfirst hterminal, answerAll_none hafter]
          · exact fst_answerAll_of_terminal hafter hlater hterminal
        subst hfs
        refine hgoes.onStream_replies_append ?_
        rw [hover, answerAll_none fun g hg => hbehind g (List.mem_append_right _ hg)]
      stopped := fun gs f hs hfs hf hstops hopens => by
        obtain ⟨o, ho, hopen⟩ := hopens
        obtain ⟨before, after, hgs⟩ := List.append_of_mem ho
        have hown : onStream stream fs = before ++ o :: (after ++ f :: onStream stream hs) := by
          rw [hfs, onStream_append, hgs, onStream_cons_of_eq hf, List.append_assoc,
            List.cons_append]
        have hbehind := (honce.not_opens hown hopen).2
        subst hfs
        exact hgoes.onStream_replies_of_stops hf hstops fun g hg =>
          hbehind g (List.mem_append_right _ (List.mem_cons_of_mem f hg)) }

/-- Three streams at once: one gets its items bit by bit, one is given up, and one gets its answer,
with the frames of the others in between. -/
def tangled : List Frame :=
  [.requestN 1 9, .requestStream 1 0 ⟨"a", "b"⟩, .requestSubscription 3 2 ⟨"c", "d"⟩, .requestN 1 2,
    .requestResponse 5 ⟨"e", "f"⟩, .next 1 ⟨"h", "i"⟩, .cancel 3, .requestN 3 4, .complete 1,
    .requestN 1 5, .requestN 1 1, .fireAndForget 5 ⟨"j", "k"⟩]

theorem goesOn_tangled : GoesOn tangled := by
  rw [GoesOn]
  decide +kernel

theorem isAnswered_tangled :
    GoesOn tangled ∧ (∀ f ∈ tangled, f.HasWordCount) ∧ OpensOnce tangled ∧
      onStream 1 (replies tangled) =
        [.next 1 ⟨"a", "b"⟩, .next 1 ⟨"a", "b"⟩, .next 1 ⟨"a", "b"⟩, .complete 1] ∧
      onStream 3 (replies tangled) = [.next 3 ⟨"c", "d"⟩, .next 3 ⟨"c", "d"⟩] ∧
      onStream 5 (replies tangled) = [.next 5 ⟨"e", "f"⟩, .complete 5] := by
  have hwords : ∀ f ∈ tangled, f.HasWordCount := by decide
  have honce : OpensOnce tangled := by decide
  have h := isAnswered_of_goesOn goesOn_tangled hwords honce
  refine ⟨goesOn_tangled, hwords, honce, ?_, ?_, ?_⟩
  · exact (h 1).items 0 ⟨"a", "b"⟩ [.requestN 1 9]
      [.requestN 1 2, .next 1 ⟨"h", "i"⟩, .complete 1, .requestN 1 5, .requestN 1 1] (by decide)
  · exact (h 3).subscription 2 ⟨"c", "d"⟩ [] [.cancel 3, .requestN 3 4] (by decide)
  · exact (h 5).response ⟨"e", "f"⟩ [] [.fireAndForget 5 ⟨"j", "k"⟩] (by decide)

end Responder
end StreamConformance
