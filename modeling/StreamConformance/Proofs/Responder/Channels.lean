import StreamConformance.Proofs.Responder.Requests

/-!
# How the responder answers channels

The items of a channel are echoed in order, as far as there is demand for them, whichever comes
first.  So all that the responder keeps for a channel is determined by what the client has sent and
by what it has asked for: the items beyond the demand wait, or the demand beyond the items does.
When the client has completed and nothing waits, the channel is over, with whichever frame that
happens.

The opening frame brings an item of its own, for which no credit is needed.  The credit is renewed
with every item that makes their number a multiple of `channelCredit`.

* `Channel.kept`: what the responder keeps for a channel.
* `Channel.IsOver`, `Channel.Lasts`: when a channel is over, and for how long its frames count.
* `Channel.counted`: the frames of a channel that count, which are its longest beginning that lasts.
* `Channel.Echoed`: what the responder has said on a channel, and what it keeps.
* `Channel.echoed_of_lasts`: that is so as long as the frames of the channel count.
* `Channel.answerAll_of_closed`: behind these nothing is said, and there is nothing left.
* `Responder.isEchoed_of_goesOn`: what a client finds on the stream of a channel.
-/

namespace StreamConformance

namespace Wire

/-- The item that a frame carries on a stream that is open. -/
def Frame.next? : Frame → Option Payload
  | .next _ p => some p
  | _ => none

/-- The items that some frames carry on a stream that is open, in order. -/
def nexts (fs : List Frame) : List Payload :=
  fs.filterMap Frame.next?

/-- The demand that some frames bring to a stream that is open. -/
def demands (fs : List Frame) : Nat :=
  (fs.map Frame.demand).sum

@[simp] theorem nexts_nil : nexts [] = [] := rfl

@[simp] theorem nexts_append (fs gs : List Frame) : nexts (fs ++ gs) = nexts fs ++ nexts gs :=
  List.filterMap_append

@[simp] theorem nexts_map_next (stream : UInt32) (ps : List Payload) :
    nexts (ps.map (.next stream)) = ps := by
  induction ps with
  | nil => rfl
  | cons p ps ih => exact congrArg (p :: ·) ih

theorem nexts_singleton (f : Frame) : nexts [f] = f.next?.toList := by
  cases f <;> rfl

@[simp] theorem demands_nil : demands [] = 0 := rfl

@[simp] theorem demands_append (fs gs : List Frame) :
    demands (fs ++ gs) = demands fs + demands gs := by
  simp [demands]

@[simp] theorem demands_singleton (f : Frame) : demands [f] = f.demand := rfl

@[simp] theorem demands_map_next (stream : UInt32) (ps : List Payload) :
    demands (ps.map (.next stream)) = 0 := by
  induction ps with
  | nil => rfl
  | cons p ps ih => exact (Nat.zero_add _).trans ih

end Wire

namespace Responder

open Wire (Frame onStream onStream_append onStream_cons_of_eq nexts demands OpensOnce nexts_append
  nexts_singleton nexts_map_next demands_append demands_singleton demands_map_next)

/-- The opening frame of a channel. -/
structure Channel where
  stream : UInt32
  initial : Nat
  payload : Payload
  deriving DecidableEq

namespace Channel

variable {c : Channel} {f : Frame} {fs gs us vs : List Frame}

/-- The frame that opens the channel. -/
def opening (c : Channel) : Frame :=
  .requestChannel c.stream c.initial c.payload

/-- The items that the client has sent, with the frames `us` behind the opening. -/
def sent (c : Channel) (us : List Frame) : List Payload :=
  c.payload :: nexts us

/-- The items that the client has asked for. -/
def asked (c : Channel) (us : List Frame) : Nat :=
  c.initial + demands us

/-- The client has completed, and there is demand for all that it has sent. -/
def IsOver (c : Channel) (us : List Frame) : Prop :=
  .complete c.stream ∈ us ∧ (c.sent us).length ≤ c.asked us

instance (c : Channel) (us : List Frame) : Decidable (c.IsOver us) :=
  inferInstanceAs (Decidable (_ ∧ _))

/-- The client has not given the channel up, and it was not over before the last frame. -/
def Lasts (c : Channel) (us : List Frame) : Prop :=
  (∀ f ∈ us, f.stops = false) ∧ ∀ k < us.length, ¬ c.IsOver (us.take k)

instance (c : Channel) (us : List Frame) : Decidable (c.Lasts us) :=
  inferInstanceAs (Decidable (_ ∧ _))

/-- The client has given the channel up, or it is over. -/
def IsClosed (c : Channel) (us : List Frame) : Prop :=
  (∃ f ∈ us, f.stops = true) ∨ ∃ vs, vs <+: us ∧ c.IsOver vs

theorem lasts_nil (c : Channel) : c.Lasts [] :=
  ⟨fun _ hf => absurd hf List.not_mem_nil, fun _ hk => absurd hk (Nat.not_lt_zero _)⟩

theorem lasts_concat : c.Lasts (us ++ [f]) ↔ c.Lasts us ∧ f.stops = false ∧ ¬ c.IsOver us := by
  constructor
  · rintro ⟨hstops, hover⟩
    refine ⟨⟨fun g hg => hstops g (List.mem_append_left _ hg), fun k hk => ?_⟩,
      hstops f (List.mem_append_right _ List.mem_cons_self), ?_⟩
    · have := hover k (by rw [List.length_append]; omega)
      rwa [List.take_append_of_le_length (Nat.le_of_lt hk)] at this
    · have := hover us.length (by rw [List.length_append]; exact Nat.lt_succ_self _)
      rwa [List.take_left] at this
  · rintro ⟨⟨hstops, hover⟩, hf, hlast⟩
    refine ⟨fun g hg => ?_, fun k hk => ?_⟩
    · rcases List.mem_append.mp hg with hg | hg
      · exact hstops g hg
      · rwa [List.mem_singleton.mp hg]
    · rw [List.length_append, List.length_singleton] at hk
      rw [List.take_append_of_le_length (Nat.le_of_lt_succ hk)]
      rcases Nat.lt_succ_iff_lt_or_eq.mp hk with hk | rfl
      · exact hover k hk
      · rwa [List.take_length]

/-- A channel that is not closed lasts. -/
theorem lasts_or_isClosed (c : Channel) (us : List Frame) : c.Lasts us ∨ c.IsClosed us := by
  by_contra h
  obtain ⟨hlasts, hclosed⟩ := not_or.mp h
  refine hlasts ⟨fun f hf => ?_, fun k hk hover => ?_⟩
  · exact eq_false_of_ne_true fun hstops => hclosed (Or.inl ⟨f, hf, hstops⟩)
  · exact hclosed (Or.inr ⟨us.take k, List.take_prefix k us, hover⟩)

theorem Lasts.of_append_cons (h : c.Lasts (us ++ f :: vs)) : f.stops = false ∧ ¬ c.IsOver us := by
  refine ⟨h.1 f (List.mem_append_right _ List.mem_cons_self), ?_⟩
  have hshorter : us.length < (us ++ f :: vs).length := by
    rw [List.length_append, List.length_cons]
    omega
  have hopen := h.2 us.length hshorter
  rwa [List.take_left] at hopen

/-- A channel that lasts and is closed has just been over. -/
theorem Lasts.isOver_of_isClosed (h : c.Lasts us) (hclosed : c.IsClosed us) : c.IsOver us := by
  rcases hclosed with ⟨f, hf, hstops⟩ | ⟨vs, ⟨ws, rfl⟩, hover⟩
  · rw [h.1 f hf] at hstops
    cases hstops
  · cases ws with
    | nil => rwa [List.append_nil]
    | cons f ws => exact absurd hover h.of_append_cons.2

/-- The frames that count when `us` have counted and `fs` follow. -/
def countingFrom (c : Channel) (us : List Frame) : List Frame → List Frame
  | [] => us
  | f :: fs => if f.stops = true ∨ c.IsOver us then us else c.countingFrom (us ++ [f]) fs

/-- The frames behind the opening that count.  They end in front of the one with which the client
gives the channel up, or with the one with which it is over. -/
def counted (c : Channel) (us : List Frame) : List Frame :=
  c.countingFrom [] us

theorem lasts_countingFrom (h : c.Lasts us) (fs : List Frame) :
    c.Lasts (c.countingFrom us fs) := by
  induction fs generalizing us with
  | nil => exact h
  | cons f fs ih =>
    rw [countingFrom]
    split
    next => exact h
    next hopen =>
      obtain ⟨hstops, hover⟩ := not_or.mp hopen
      exact ih (lasts_concat.mpr ⟨h, eq_false_of_ne_true hstops, hover⟩)

theorem lasts_counted (c : Channel) (us : List Frame) : c.Lasts (c.counted us) :=
  lasts_countingFrom c.lasts_nil us

theorem exists_behind_countingFrom (c : Channel) (us fs : List Frame) :
    ∃ ws, us ++ fs = c.countingFrom us fs ++ ws ∧
      ∀ f ∈ ws.head?, f.stops = true ∨ c.IsOver (c.countingFrom us fs) := by
  induction fs generalizing us with
  | nil => exact ⟨[], rfl, fun _ hf => absurd hf (Option.not_mem_none _)⟩
  | cons f fs ih =>
    rw [countingFrom]
    split
    next hclosed => exact ⟨f :: fs, rfl, fun g hg => Option.some_inj.mp hg ▸ hclosed⟩
    next =>
      obtain ⟨ws, hws, hhead⟩ := ih (us ++ [f])
      exact ⟨ws, by rw [← hws, List.append_assoc, List.singleton_append], hhead⟩

/-- The first frame that does not count gives the channel up, or finds it over. -/
theorem exists_behind_counted (c : Channel) (us : List Frame) :
    ∃ ws, us = c.counted us ++ ws ∧ ∀ f ∈ ws.head?, f.stops = true ∨ c.IsOver (c.counted us) :=
  c.exists_behind_countingFrom [] us

/-- As long as a channel lasts, all its frames count. -/
theorem counted_of_lasts (h : c.Lasts us) : c.counted us = us := by
  obtain ⟨ws, hus, hhead⟩ := c.exists_behind_counted us
  generalize c.counted us = vs at *
  subst hus
  cases ws with
  | nil => exact (List.append_nil vs).symm
  | cons f ws =>
    obtain ⟨hstops, hover⟩ := h.of_append_cons
    rcases hhead f rfl with hstops' | hover'
    · rw [hstops] at hstops'
      cases hstops'
    · exact absurd hover' hover

/-! ## Items and demand -/

/-- What a channel keeps when the items `sent` have come and `asked` of them may go. -/
def settled (sent : List Payload) (asked : Nat) (done : Bool) : EchoChannel where
  queue := sent.drop asked
  demand := asked - sent.length
  received := sent.length
  clientDone := done

/-- And when the items `new` and the demand `more` have arrived as well. -/
def arrived (sent new : List Payload) (asked more : Nat) (done : Bool) : EchoChannel where
  queue := sent.drop asked ++ new
  demand := asked - sent.length + more
  received := (sent ++ new).length
  clientDone := done

/-- The items that go with them. -/
def fresh (sent new : List Payload) (asked more : Nat) : List Payload :=
  (sent.drop asked ++ new).take (asked - sent.length + more)

/-- What has gone before, and what goes now, is what may go. -/
theorem take_append_fresh (sent new : List Payload) (asked more : Nat) :
    sent.take asked ++ fresh sent new asked more = (sent ++ new).take (asked + more) := by
  unfold fresh
  rcases Nat.le_total sent.length asked with h | h
  · rw [List.take_of_length_le h, List.drop_of_length_le h, List.nil_append, List.take_append,
      List.take_of_length_le (by omega : sent.length ≤ asked + more)]
    congr 2
    omega
  · have hlength : (sent.take asked).length = asked := List.length_take_of_le h
    conv_rhs => rw [← List.take_append_drop asked sent, List.append_assoc, List.take_append]
    rw [hlength, List.take_of_length_le (by omega : (sent.take asked).length ≤ asked + more)]
    congr 2
    omega

/-- What waits then is what may not go. -/
theorem drop_arrived (sent new : List Payload) (asked more : Nat) :
    (sent.drop asked ++ new).drop (asked - sent.length + more) =
      (sent ++ new).drop (asked + more) := by
  suffices hwhole : (sent ++ new).take (asked + more) ++
      (sent.drop asked ++ new).drop (asked - sent.length + more) =
        (sent ++ new).take (asked + more) ++ (sent ++ new).drop (asked + more) from
    List.append_cancel_left hwhole
  calc (sent ++ new).take (asked + more) ++
        (sent.drop asked ++ new).drop (asked - sent.length + more)
      = sent.take asked ++ (fresh sent new asked more ++
          (sent.drop asked ++ new).drop (asked - sent.length + more)) := by
        rw [← take_append_fresh, List.append_assoc]
    _ = sent.take asked ++ (sent.drop asked ++ new) := by rw [fresh, List.take_append_drop]
    _ = sent ++ new := by rw [← List.append_assoc, List.take_append_drop]
    _ = (sent ++ new).take (asked + more) ++ (sent ++ new).drop (asked + more) :=
        (List.take_append_drop ..).symm

/-- Sending what demand allows. -/
theorem flush_arrived (stream : UInt32) (sent new : List Payload) (asked more : Nat)
    (done : Bool) :
    (Activity.channel (arrived sent new asked more done)).flush stream =
      if done = true ∧ (sent ++ new).length ≤ asked + more then
        (none, (fresh sent new asked more).map (.next stream) ++ [.complete stream])
      else
        (some (.channel (settled (sent ++ new) (asked + more) done)),
          (fresh sent new asked more).map (.next stream)) := by
  have hfresh : (sent.drop asked ++ new).take (asked - sent.length + more) =
      fresh sent new asked more := rfl
  have hempty : ((sent ++ new).drop (asked + more)).isEmpty = true ↔
      (sent ++ new).length ≤ asked + more := by
    rw [List.isEmpty_iff, List.drop_eq_nil_iff]
  have hdemand : asked - sent.length + more - (fresh sent new asked more).length =
      asked + more - (sent ++ new).length := by
    rw [fresh, List.length_take, List.length_append, List.length_append, List.length_drop]
    omega
  simp only [Activity.flush, arrived, settled, drop_arrived, hfresh, List.length_map, hdemand,
    Bool.and_eq_true, hempty]

/-! ## What is said -/

/-- What the responder keeps for a channel, with the frames `us` behind the opening. -/
def kept (c : Channel) (us : List Frame) : EchoChannel :=
  settled (c.sent us) (c.asked us) (decide (.complete c.stream ∈ us))

/-- The credit for the client's items, which are `received` with the last one. -/
def credit (stream : UInt32) (f : Frame) (received : Nat) : List Frame :=
  if f.next?.isSome ∧ received % channelCredit = 0 then [.requestN stream channelCredit] else []

/-- What the responder has done with the frames of a channel, `us` of them behind the opening: what
it keeps for it, and what it has said. -/
structure Echoed (c : Channel) (us : List Frame) (done : Option Activity × List Frame) : Prop where
  kept : done.1 = if c.IsOver us then none else some (.channel (c.kept us))
  items : nexts done.2 = (c.sent us).take (c.asked us)
  credit : demands done.2 = channelCredit * (1 + (c.sent us).length / channelCredit)
  completes : if c.IsOver us then ∃ rs, done.2 = rs ++ [.complete c.stream] ∧ .complete c.stream ∉ rs
    else .complete c.stream ∉ done.2

theorem sent_concat (c : Channel) (us : List Frame) (f : Frame) :
    c.sent (us ++ [f]) = c.sent us ++ f.next?.toList := by
  rw [sent, nexts_append, nexts_singleton, sent, List.cons_append]

theorem asked_concat (c : Channel) (us : List Frame) (f : Frame) :
    c.asked (us ++ [f]) = c.asked us + f.demand := by
  rw [asked, demands_append, demands_singleton, asked, Nat.add_assoc]

/-- What arrives with a frame. -/
def receiving (c : Channel) (us : List Frame) (f : Frame) : EchoChannel :=
  arrived (c.sent us) f.next?.toList (c.asked us) f.demand (decide (.complete c.stream ∈ us ++ [f]))

/-- The items that are echoed with a frame. -/
def echoes (c : Channel) (us : List Frame) (f : Frame) : List Payload :=
  fresh (c.sent us) f.next?.toList (c.asked us) f.demand

theorem flush_receiving (c : Channel) (us : List Frame) (f : Frame) :
    (Activity.channel (c.receiving us f)).flush c.stream =
      (if c.IsOver (us ++ [f]) then none else some (.channel (c.kept (us ++ [f]))),
        (c.echoes us f).map (.next c.stream) ++
          if c.IsOver (us ++ [f]) then [.complete c.stream] else []) := by
  have hover : (decide (.complete c.stream ∈ us ++ [f]) = true ∧
      (c.sent us ++ f.next?.toList).length ≤ c.asked us + f.demand) ↔ c.IsOver (us ++ [f]) := by
    rw [IsOver, sent_concat, asked_concat, decide_eq_true_iff]
  rw [receiving, flush_arrived, echoes, kept, sent_concat, asked_concat]
  by_cases h : c.IsOver (us ++ [f])
  · rw [if_pos (hover.mpr h), if_pos h, if_pos h]
  · rw [if_neg (mt hover.mp h), if_neg h, if_neg h, List.append_nil]

/-- Nothing is sent without an occasion, while the channel lasts. -/
theorem flush_kept (hover : ¬ c.IsOver us) :
    (Activity.channel (c.kept us)).flush c.stream = (some (.channel (c.kept us)), []) := by
  have hsame : c.kept us = arrived (c.sent us) [] (c.asked us) 0
      (decide (.complete c.stream ∈ us)) := by
    rw [kept, settled, arrived, List.append_nil, List.append_nil, Nat.add_zero]
  have hnone : fresh (c.sent us) [] (c.asked us) 0 = [] := by
    rw [fresh, List.append_nil, Nat.add_zero, List.take_eq_nil_iff, List.drop_eq_nil_iff]
    omega
  rw [hsame, flush_arrived, if_neg, hnone, ← hsame, List.append_nil, Nat.add_zero]
  · rfl
  · rw [decide_eq_true_iff, List.append_nil, Nat.add_zero]
    exact hover

theorem receiving_next (p : Payload) :
    c.receiving us (.next c.stream p) =
      { c.kept us with queue := (c.kept us).queue ++ [p], received := (c.kept us).received + 1 } := by
  simp [receiving, arrived, kept, settled, Frame.next?, Frame.demand]

theorem receiving_complete :
    c.receiving us (.complete c.stream) = { c.kept us with clientDone := true } := by
  simp [receiving, arrived, kept, settled, Frame.next?, Frame.demand]

/-- Demand within the limit is not cut. -/
theorem receiving_requestN {n : Nat}
    (hfits : c.asked (us ++ [.requestN c.stream n]) ≤ Demand.limit) :
    c.receiving us (.requestN c.stream n) =
      { c.kept us with demand := Demand.add (c.kept us).demand n } := by
  have hadd : Demand.add (c.kept us).demand n = (c.kept us).demand + n := by
    have hdemand : (c.kept us).demand ≤ c.asked us := Nat.sub_le ..
    rw [asked_concat] at hfits
    exact Nat.min_eq_left (Nat.le_trans (Nat.add_le_add_right hdemand n) hfits)
  rw [hadd]
  simp [receiving, arrived, kept, settled, Frame.next?, Frame.demand]

theorem receiving_fireAndForget (p : Payload) :
    c.receiving us (.fireAndForget c.stream p) = c.kept us := by
  simp [receiving, arrived, kept, settled, Frame.next?, Frame.demand]

/-- A frame behind the opening, while the channel lasts. -/
theorem answer_kept (hover : ¬ c.IsOver us) (hf : f.stream = c.stream) (ho : f.opens = false)
    (hs : f.stops = false) (hfits : c.asked (us ++ [f]) ≤ Demand.limit) :
    answer f (some (.channel (c.kept us))) =
      (((Activity.channel (c.receiving us f)).flush c.stream).1,
        credit c.stream f (c.sent (us ++ [f])).length ++
          ((Activity.channel (c.receiving us f)).flush c.stream).2) := by
  cases f with
  | requestResponse | requestStream | requestSubscription | requestChannel => cases ho
  | error | cancel => cases hs
  | next stream p =>
    obtain rfl : stream = c.stream := hf
    rw [receiving_next, sent_concat]
    simp [answer, answerItem, credit, Frame.next?, kept, settled]
  | complete stream =>
    obtain rfl : stream = c.stream := hf
    rw [receiving_complete]
    rfl
  | requestN stream n =>
    obtain rfl : stream = c.stream := hf
    rw [receiving_requestN hfits]
    rfl
  | fireAndForget stream p =>
    obtain rfl : stream = c.stream := hf
    rw [receiving_fireAndForget, flush_kept hover]
    rfl

/-- The number of items for which there is credit, and the credit for one more. -/
theorem demands_credit (stream : UInt32) (f : Frame) (received : Nat) :
    channelCredit * (1 + received / channelCredit) +
        demands (credit stream f (received + f.next?.toList.length)) =
      channelCredit * (1 + (received + f.next?.toList.length) / channelCredit) := by
  unfold credit
  cases hf : f.next? with
  | none => simp
  | some p =>
    rw [Option.toList_some, List.length_singleton, channelCredit]
    split
    next h =>
      rw [demands_singleton, Frame.demand]
      have := h.2
      omega
    next h =>
      have hrest : ¬ (received + 1) % 256 = 0 := fun hr => h ⟨rfl, hr⟩
      rw [Wire.demands_nil]
      omega

@[simp] theorem nexts_credit (stream : UInt32) (f : Frame) (received : Nat) :
    nexts (credit stream f received) = [] := by
  unfold credit
  split <;> rfl

theorem complete_not_mem_credit (stream : UInt32) (f : Frame) (received : Nat) :
    .complete stream ∉ credit stream f received := by
  unfold credit
  split <;> simp

/-- The opening frame brings an item and demand, and there is credit for it. -/
theorem echoed_opening (c : Channel) : Echoed c [] (answer c.opening none) := by
  have hover : ¬ c.IsOver [] := fun h => absurd h.1 List.not_mem_nil
  have harrived : ({ queue := [c.payload], demand := c.initial, received := 1 } : EchoChannel) =
      arrived [] [c.payload] 0 c.initial false := by
    simp [arrived]
  have hanswer : answer c.opening none = (some (.channel (c.kept [])),
      .requestN c.stream channelCredit ::
        (fresh [] [c.payload] 0 c.initial).map (.next c.stream)) := by
    simp only [opening, answer]
    rw [harrived, flush_arrived, if_neg (by simp)]
    simp [kept, sent, asked]
  rw [hanswer]
  refine ⟨(if_neg hover).symm, ?_, ?_, ?_⟩
  · have hitems := take_append_fresh [] [c.payload] 0 c.initial
    rw [List.take_nil, List.nil_append, List.nil_append, Nat.zero_add] at hitems
    exact (nexts_map_next ..).trans hitems
  · have hcredit : demands (.requestN c.stream channelCredit ::
        (fresh [] [c.payload] 0 c.initial).map (.next c.stream)) = channelCredit + 0 :=
      congrArg (channelCredit + ·) (demands_map_next ..)
    have hone : (c.sent []).length = 1 := rfl
    rw [hone]
    exact hcredit
  · rw [if_neg hover]
    simp

/-- **What the responder has said on a channel, and what it keeps**, as long as the frames of the
channel count. -/
theorem echoed_of_lasts (hlasts : c.Lasts us) (hfits : c.asked us ≤ Demand.limit)
    (hs : ∀ f ∈ us, f.stream = c.stream) (ho : ∀ f ∈ us, f.opens = false) :
    Echoed c us (answerAll (c.opening :: us) none) := by
  induction us using List.reverseRecOn with
  | nil =>
    rw [answerAll, answerAll, List.append_nil]
    exact echoed_opening c
  | append_singleton us f ih =>
    obtain ⟨hlasts, hstops, hover⟩ := lasts_concat.mp hlasts
    have hasked : c.asked us ≤ Demand.limit := by
      rw [asked_concat] at hfits
      omega
    have hbefore := ih hlasts hasked (fun g hg => hs g (List.mem_append_left _ hg))
      fun g hg => ho g (List.mem_append_left _ hg)
    have hlast : f ∈ us ++ [f] := List.mem_append_right _ List.mem_cons_self
    have hopen := hbefore.completes
    rw [if_neg hover] at hopen
    rw [← List.cons_append, answerAll_append, hbefore.kept, if_neg hover, answerAll,
      answer_kept hover (hs f hlast) (ho f hlast) hstops hfits, answerAll, flush_receiving,
      List.append_nil]
    refine ⟨rfl, ?_, ?_, ?_⟩
    · have hno : nexts (if c.IsOver (us ++ [f]) then [.complete c.stream] else []) = [] := by
        split <;> rfl
      rw [nexts_append, nexts_append, nexts_append, hbefore.items, nexts_credit, nexts_map_next, hno,
        List.nil_append, List.append_nil, echoes, take_append_fresh, sent_concat, asked_concat]
    · have hno : demands (if c.IsOver (us ++ [f]) then [.complete c.stream] else []) = 0 := by
        split <;> rfl
      rw [demands_append, demands_append, demands_append, hbefore.credit, demands_map_next, hno,
        Nat.zero_add, Nat.add_zero, sent_concat, List.length_append, demands_credit]
    · have hrest : .complete c.stream ∉ (answerAll (c.opening :: us) none).2 ++
          (credit c.stream f (c.sent (us ++ [f])).length ++
            (c.echoes us f).map (.next c.stream)) := by
        simp only [List.mem_append, not_or]
        exact ⟨hopen, complete_not_mem_credit _ _ _, by simp⟩
      split
      next => exact ⟨_, by simp only [List.append_assoc], hrest⟩
      next => simpa only [List.append_nil] using hrest

/-- Behind the frames that count nothing is said, and nothing is left of the channel. -/
theorem answerAll_of_closed (hclosed : c.IsClosed us)
    (hfits : c.asked (c.counted us) ≤ Demand.limit) (hs : ∀ f ∈ us, f.stream = c.stream)
    (ho : ∀ f ∈ us, f.opens = false) :
    answerAll (c.opening :: us) none =
      (none, (answerAll (c.opening :: c.counted us) none).2) := by
  have hlasts := c.lasts_counted us
  obtain ⟨ws, hus, hhead⟩ := c.exists_behind_counted us
  generalize c.counted us = vs at *
  subst hus
  have hkept := (echoed_of_lasts hlasts hfits (fun f hf => hs f (List.mem_append_left _ hf))
    fun f hf => ho f (List.mem_append_left _ hf)).kept
  have hws : ∀ f ∈ ws, f.opens = false := fun f hf => ho f (List.mem_append_right _ hf)
  suffices hrest : answerAll ws (answerAll (c.opening :: vs) none).1 = (none, []) by
    rw [← List.cons_append, answerAll_append, hrest, List.append_nil]
  by_cases hover : c.IsOver vs
  · rw [hkept, if_pos hover, answerAll_none hws]
  cases ws with
  | nil =>
    rw [List.append_nil] at hclosed
    exact absurd (hlasts.isOver_of_isClosed hclosed) hover
  | cons f ws =>
    have hstops : f.stops = true := (hhead f rfl).resolve_right hover
    rw [answerAll, answer_of_stops hstops,
      answerAll_none fun g hg => hws g (List.mem_cons_of_mem f hg), List.append_nil]

/-- All that is said on a channel is said with frames that count. -/
theorem said_counted (hfits : c.asked (c.counted us) ≤ Demand.limit)
    (hs : ∀ f ∈ us, f.stream = c.stream) (ho : ∀ f ∈ us, f.opens = false) :
    (answerAll (c.opening :: us) none).2 = (answerAll (c.opening :: c.counted us) none).2 := by
  rcases c.lasts_or_isClosed us with hlasts | hclosed
  · rw [counted_of_lasts hlasts]
  · rw [answerAll_of_closed hclosed hfits hs ho]

/-- The frames `gs` at the beginning of a conversation open the channel, with `us` behind the
opening, and the client has asked for fewer items than can be counted, as long as it was heard. -/
structure Moment (c : Channel) (fs gs us : List Frame) : Prop where
  begins : gs <+: fs
  opened : ∃ before, onStream c.stream gs = before ++ c.opening :: us
  fits : c.asked (c.counted us) ≤ Demand.limit

namespace Moment

variable (h : Moment c fs gs us)
include h

theorem stream_eq : ∀ f ∈ us, f.stream = c.stream := by
  obtain ⟨before, hgs⟩ := h.opened
  intro f hf
  have hmem : f ∈ onStream c.stream gs := by
    rw [hgs]
    exact List.mem_append_right _ (List.mem_cons_of_mem _ hf)
  exact eq_of_beq (List.mem_filter.mp hmem).2

/-- No other frame of the stream opens it, be it before the opening or behind. -/
theorem not_opens (honce : OpensOnce fs) {hs : List Frame} (hfs : fs = gs ++ hs) :
    ∃ before, onStream c.stream gs = before ++ c.opening :: us ∧ (∀ f ∈ before, f.opens = false) ∧
      ∀ f ∈ us ++ onStream c.stream hs, f.opens = false := by
  obtain ⟨before, hgs⟩ := h.opened
  have hwhole : onStream c.stream fs =
      before ++ c.opening :: (us ++ onStream c.stream hs) := by
    rw [hfs, onStream_append, hgs, List.append_assoc, List.cons_append]
  exact ⟨before, hgs, honce.not_opens hwhole rfl⟩

theorem opens_eq_false (honce : OpensOnce fs) : ∀ f ∈ us, f.opens = false := by
  obtain ⟨hs, hfs⟩ := h.begins
  obtain ⟨-, -, -, hbehind⟩ := h.not_opens honce hfs.symm
  exact fun f hf => hbehind f (List.mem_append_left _ hf)

/-- What comes before the opening is nothing to the channel. -/
theorem answerAll_eq (honce : OpensOnce fs) :
    answerAll (onStream c.stream gs) none = answerAll (c.opening :: us) none := by
  obtain ⟨hs, hfs⟩ := h.begins
  obtain ⟨before, hgs, hbefore, -⟩ := h.not_opens honce hfs.symm
  rw [hgs, answerAll_append, answerAll_none hbefore]
  rfl

theorem onStream_replies (hgoes : GoesOn fs) (honce : OpensOnce fs) :
    onStream c.stream (replies gs) = (answerAll (c.opening :: c.counted us) none).2 := by
  have hsaid := said_counted h.fits h.stream_eq (h.opens_eq_false honce)
  obtain ⟨hs, rfl⟩ := h.begins
  rw [(GoesOn.of_append hgoes).onStream_replies, h.answerAll_eq honce, hsaid]

theorem echoed (honce : OpensOnce fs) :
    c.Echoed (c.counted us) (answerAll (c.opening :: c.counted us) none) := by
  obtain ⟨ws, hus, -⟩ := c.exists_behind_counted us
  have hmem : ∀ f ∈ c.counted us, f ∈ us := fun f hf => hus ▸ List.mem_append_left ws hf
  exact echoed_of_lasts (c.lasts_counted us) h.fits (fun f hf => h.stream_eq f (hmem f hf))
    fun f hf => h.opens_eq_false honce f (hmem f hf)

end Moment

/-- What a client finds on the stream of a channel, at all moments of a conversation. -/
structure IsEchoed (c : Channel) (fs : List Frame) : Prop where
  /-- The items that count are echoed in order, as far as they are asked for. -/
  items : ∀ gs us, Moment c fs gs us →
    nexts (onStream c.stream (replies gs)) =
      (c.sent (c.counted us)).take (min (c.asked (c.counted us)) (c.sent (c.counted us)).length)
  /-- The completion comes with the frame with which the channel is over, and with no other. -/
  completes : ∀ gs us, Moment c fs gs us →
    (.complete c.stream ∈ onStream c.stream (replies gs) ↔ c.IsOver (c.counted us))
  /-- There is one completion at most, and it is last. -/
  once : ∀ gs us, Moment c fs gs us → .complete c.stream ∈ onStream c.stream (replies gs) →
    ∃ rs, onStream c.stream (replies gs) = rs ++ [.complete c.stream] ∧ .complete c.stream ∉ rs
  /-- Nothing is said in answer to the frame with which the client gives the channel up, nor behind
  it. -/
  stopped : ∀ gs us f hs, fs = gs ++ f :: hs → Moment c fs gs us → f.stream = c.stream →
    f.stops = true → onStream c.stream (replies fs) = onStream c.stream (replies gs)
  /-- Nothing is said once the channel is over, or the client has given it up. -/
  closed : ∀ gs us, Moment c fs gs us → c.IsClosed us →
    onStream c.stream (replies fs) = onStream c.stream (replies gs)
  /-- There is credit for two items more than those that have used it, and for not more than 257. -/
  credit : ∀ gs us, Moment c fs gs us →
    (c.sent (c.counted us)).length - 1 + 2 ≤ demands (onStream c.stream (replies gs)) ∧
      demands (onStream c.stream (replies gs)) ≤ (c.sent (c.counted us)).length - 1 + 257

end Channel

open Channel

/-- **What a client finds on the stream of a channel.**  A conversation goes on, and no stream is
opened twice in it; then every channel is echoed, whatever happens on the other streams. -/
theorem isEchoed_of_goesOn {fs : List Frame} (hgoes : GoesOn fs) (honce : OpensOnce fs)
    (c : Channel) : IsEchoed c fs := by
  exact
    { items := fun gs us h => by
        rw [h.onStream_replies hgoes honce, (h.echoed honce).items, ← List.take_eq_take_min]
      completes := fun gs us h => by
        have hcompletes := (h.echoed honce).completes
        rw [h.onStream_replies hgoes honce]
        split at hcompletes
        next hover =>
          obtain ⟨rs, hrs, -⟩ := hcompletes
          rw [hrs]
          exact iff_of_true (List.mem_append_right _ List.mem_cons_self) hover
        next hover => exact iff_of_false hcompletes hover
      once := fun gs us h hmem => by
        have hcompletes := (h.echoed honce).completes
        rw [h.onStream_replies hgoes honce] at hmem ⊢
        split at hcompletes
        next => exact hcompletes
        next => exact absurd hmem hcompletes
      stopped := fun gs us f hs hfs h hf hstops => by
        obtain ⟨-, -, -, hbehind⟩ := h.not_opens honce hfs
        rw [onStream_cons_of_eq hf] at hbehind
        subst hfs
        exact hgoes.onStream_replies_of_stops hf hstops fun g hg =>
          hbehind g (List.mem_append_right _ (List.mem_cons_of_mem f hg))
      closed := fun gs us h hclosed => by
        obtain ⟨hs, rfl⟩ := h.begins
        obtain ⟨-, -, -, hbehind⟩ := h.not_opens honce rfl
        refine hgoes.onStream_replies_append ?_
        rw [h.answerAll_eq honce,
          answerAll_of_closed hclosed h.fits h.stream_eq (h.opens_eq_false honce),
          answerAll_none fun f hf => hbehind f (List.mem_append_right _ hf)]
      credit := fun gs us h => by
        have hsent : 0 < (c.sent (c.counted us)).length := Nat.succ_pos _
        rw [h.onStream_replies hgoes honce, (h.echoed honce).credit, channelCredit]
        omega }

/-- A channel with another stream in between.  Its client completes early, sends one more item all
the same, and asks for the items later, the last time for more than there are.  A second channel is
given up while an item waits, which is asked for only then. -/
def mixed : List Frame :=
  [.requestN 1 7, .requestChannel 1 1 ⟨"a", "b"⟩, .next 1 ⟨"c", "d"⟩, .requestStream 3 1 ⟨"e", "f"⟩,
    .complete 1, .next 1 ⟨"g", "h"⟩, .requestN 1 1, .cancel 3, .requestN 1 5, .next 1 ⟨"i", "j"⟩,
    .requestN 1 2, .requestChannel 5 1 ⟨"k", "l"⟩, .next 5 ⟨"m", "n"⟩, .cancel 5, .requestN 5 4]

theorem isEchoed_mixed :
    GoesOn mixed ∧ OpensOnce mixed ∧
      nexts (onStream 1 (replies (mixed.take 8))) = [⟨"a", "b"⟩, ⟨"c", "d"⟩] ∧
      .complete 1 ∉ onStream 1 (replies (mixed.take 8)) ∧
      nexts (onStream 1 (replies mixed)) = [⟨"a", "b"⟩, ⟨"c", "d"⟩, ⟨"g", "h"⟩] ∧
      (∃ rs, onStream 1 (replies mixed) = rs ++ [.complete 1] ∧ .complete 1 ∉ rs) ∧
      nexts (onStream 5 (replies mixed)) = [⟨"k", "l"⟩] ∧
      onStream 5 (replies mixed) = onStream 5 (replies (mixed.take 13)) := by
  have hgoes : GoesOn mixed := by
    rw [GoesOn]
    decide +kernel
  have honce : OpensOnce mixed := by decide
  have h := isEchoed_of_goesOn hgoes honce ⟨1, 1, ⟨"a", "b"⟩⟩
  have hopen : Moment ⟨1, 1, ⟨"a", "b"⟩⟩ mixed (mixed.take 8)
      [.next 1 ⟨"c", "d"⟩, .complete 1, .next 1 ⟨"g", "h"⟩, .requestN 1 1] :=
    ⟨List.take_prefix .., ⟨[.requestN 1 7], by decide⟩, by decide⟩
  have hover : Moment ⟨1, 1, ⟨"a", "b"⟩⟩ mixed (mixed.take 9)
      [.next 1 ⟨"c", "d"⟩, .complete 1, .next 1 ⟨"g", "h"⟩, .requestN 1 1, .requestN 1 5] :=
    ⟨List.take_prefix .., ⟨[.requestN 1 7], by decide⟩, by decide⟩
  have hclosed := h.closed _ _ hover (Or.inr ⟨_, List.prefix_refl _, by decide⟩)
  have hother := isEchoed_of_goesOn hgoes honce ⟨5, 1, ⟨"k", "l"⟩⟩
  have hwaits : Moment ⟨5, 1, ⟨"k", "l"⟩⟩ mixed (mixed.take 13) [.next 5 ⟨"m", "n"⟩] :=
    ⟨List.take_prefix .., ⟨[], by decide⟩, by decide⟩
  have hend : Moment ⟨5, 1, ⟨"k", "l"⟩⟩ mixed mixed
      [.next 5 ⟨"m", "n"⟩, .cancel 5, .requestN 5 4] :=
    ⟨List.prefix_refl _, ⟨[], by decide⟩, by decide⟩
  refine ⟨hgoes, honce, (h.items _ _ hopen).trans (by decide), ?_, ?_, ?_, ?_, ?_⟩
  · exact mt (h.completes _ _ hopen).mp (by decide)
  · exact (congrArg nexts hclosed).trans ((h.items _ _ hover).trans (by decide))
  · obtain ⟨rs, hrs, hno⟩ := h.once _ _ hover ((h.completes _ _ hover).mpr (by decide))
    exact ⟨rs, hclosed.trans hrs, hno⟩
  · exact (hother.items _ _ hend).trans (by decide)
  · exact hother.stopped _ _ (.cancel 5) [.requestN 5 4] rfl hwaits rfl rfl

end Responder
end StreamConformance
