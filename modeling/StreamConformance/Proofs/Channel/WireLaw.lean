import StreamConformance.Proofs.Channel.Backpressure
import StreamConformance.Proofs.Channel.Dismissal
import StreamConformance.Proofs.Channel.Threads

/-!
# What the peer of a channel finds on the wire

A channel goes both ways over one stream, and its frames come from six sides: the consumer grants
demand and cancels, the producer gives its subscription, sends items and ends, and the peer may want
no more.  In whatever order these come, what is written on the stream obeys the same law.

* `WireLaw`: what is written on the stream of a channel, by what has happened to its link.
* `Traffic.Follows.wireLaw`: a link that stands where its history has brought it obeys the law.
* `Traffic.wireLaw_of_run`: so does every channel whose frames are accepted, and nobody ends the
  producer's side but the producer itself and the peer.
-/

namespace StreamConformance
namespace Client

open Wire (Frame onStream)

/-- What is written on the stream `id` of a channel, if `h` is what has happened to its link. -/
structure WireLaw (id : UInt32) (h : List Link.Input) (fs : List Frame) : Prop where
  /-- The first frame opens the channel with the first item, and takes along what was granted
  before. No other frame opens it. -/
  opening : ∀ f gs, fs = f :: gs → ∃ p ps, Link.items h = p :: ps ∧
    f = .requestChannel id (min (Link.granted (Link.beforeItem h)) Demand.limit) p ∧
    ∀ g ∈ gs, g.isOpening = false
  /-- All items go out, in order, until the producer has ended or is dismissed. -/
  items : fs.filterMap Frame.item? = Link.items h
  /-- There is one end at most, and no item behind it. -/
  ended : fs.Pairwise fun f g => f.isTerminal = true → g.isTerminal = false ∧ g.item? = none
  /-- The consumer cancels once at most, and grants nothing behind that. -/
  canceled : fs.Pairwise fun f g => f = .cancel id → g ≠ .cancel id ∧ ∀ n, g ≠ .requestN id n
  /-- As long as it has not canceled, the peer has all demand that was granted. -/
  demand : fs ≠ [] → .cancel ∉ h → Link.granted h < 2 ^ 64 → Wire.grants fs = Link.granted h

theorem pairwise_ne_of_count_le_one {α : Type*} [DecidableEq α] {a : α} {l : List α}
    (h : l.count a ≤ 1) : l.Pairwise fun x y => x = a → y ≠ a := by
  induction l with
  | nil => exact List.Pairwise.nil
  | cons b l ih =>
    refine List.pairwise_cons.mpr ⟨?_, ih (Nat.le_trans List.count_le_count_cons h)⟩
    rintro c hc rfl rfl
    rw [List.count_cons_self] at h
    have hpos := List.count_pos_iff.mpr hc
    omega

namespace Traffic

variable {t : Traffic} {j : Nat} {l : Label}

/-- **A link that stands where its history has brought it obeys the law.** -/
theorem Follows.wireLaw (h : t.Follows j l) :
    WireLaw l.id (t.far.history j) (t.far.framesOn l.id) where
  opening f gs hcons := by
    have hne : f ≠ .cancel l.id := by
      rintro rfl
      exact h.first (by rw [hcons]; rfl)
    have hframes := h.frames
    rw [hcons, List.filter_cons_of_pos (by simpa using hne)] at hframes
    obtain ⟨p, ps, hitems⟩ : ∃ p ps, Link.items (t.far.history j) = p :: ps := by
      refine List.exists_cons_of_ne_nil fun hnone => ?_
      rw [Link.frames_of_items_eq_nil hnone] at hframes
      cases hframes
    obtain ⟨gs', hcons', hgs'⟩ := Link.frames_eq_cons l.id hitems
    rw [hcons'] at hframes
    obtain ⟨rfl, rfl⟩ := List.cons.inj hframes
    refine ⟨p, ps, hitems, rfl, fun g hg => ?_⟩
    by_cases hg' : g = .cancel l.id
    · rw [hg']
      rfl
    · exact hgs' g (List.mem_filter.mpr ⟨hg, by simpa using hg'⟩)
  items := by
    rw [← Link.filterMap_item?_frames l.id, ← h.frames, List.filterMap_filter]
    refine List.filterMap_congr fun f _ => ?_
    by_cases hf : f = .cancel l.id
    · subst hf
      simp [Frame.item?]
    · simp [hf]
  ended := by
    have hpairwise := Link.pairwise_frames l.id (t.far.history j)
    rw [← h.frames, List.pairwise_filter] at hpairwise
    refine hpairwise.imp fun {f g} hfg hend => ?_
    by_cases hg : g = .cancel l.id
    · subst hg
      exact ⟨rfl, rfl⟩
    · refine hfg ?_ (by simpa using hg) hend
      simp only [bne_iff_ne]
      rintro rfl
      cases hend
  canceled := by
    have hcount := h.cancels
    refine (List.Pairwise.and (pairwise_ne_of_count_le_one ?_) h.behind).imp
      fun {f g} hfg hcancel => ⟨hfg.1 hcancel, hfg.2 hcancel⟩
    split at hcount <;> omega
  demand hne hno hfits := by
    have hall : ∀ f ∈ t.far.framesOn l.id, (f != .cancel l.id) = true := by
      intro f hf
      have hnot := h.cancel_not_mem fun howes => hno howes.1
      simpa using fun heq : f = .cancel l.id => hnot (heq ▸ hf)
    have hframes := h.frames
    rw [List.filter_eq_self.mpr hall] at hframes
    rw [hframes] at hne ⊢
    refine Link.grants_frames (fun hnone => hne (Link.frames_of_items_eq_nil hnone)) ?_
    exact Nat.le_of_lt_succ hfits

/-- A producer is dismissed by the step that does so. -/
theorem dismiss_mem_history :
    .dismiss ∈ t.far.history j ↔ .resumed (.cancelProducer j) ∈ t.far.told := by
  rw [Chronicle.history, List.mem_filterMap]
  constructor
  · rintro ⟨e, he, hx⟩
    cases Link.brings_of_input? hx
    exact he
  · exact fun he => ⟨_, he, if_pos rfl⟩

/-- The item that is sent to a link is what happens to it. -/
theorem item?_eq_of_input? (j : Nat) (e : Event Step) :
    item? j e = (Link.input? j e).bind Link.Input.item? := by
  cases hx : Link.input? j e with
  | some x => cases Link.brings_of_input? hx <;> simp [item?, Link.Input.item?]
  | none =>
    unfold item?
    split
    · exact if_neg fun hj => by simp [Link.input?, hj] at hx
    · rfl

/-- What goes out was sent. -/
theorem length_items_history_le (j : Nat) (r : Chronicle) :
    (Link.items (r.history j)).length ≤ (r.sentTo j).length := by
  have hsent : r.sentTo j = (r.history j).filterMap Link.Input.item? := by
    rw [Chronicle.sentTo, Chronicle.history, List.filterMap_filterMap]
    exact List.filterMap_congr fun e _ => item?_eq_of_input? j e
  rw [hsent]
  exact ((List.takeWhile_sublist _).filterMap _).length_le

/-- **What is written for a channel obeys the wire law**, on an open connection whose writes for it
succeed, whatever its producer does and in whatever order anything happens.

The producer's side is ended by the peer only by a frame of this stream, and every such frame ends
it, or is about to.  Where the producer is one that threads at the connection have opened, there are
no more items on the wire than the first and those that the peer has granted. -/
theorem wireLaw_of_run (h : Run {} t) (hl : t.far.connection.labels[j]? = some l)
    (hk : l.kind = .channel) (hex : t.far.Exclusive l.id) (hopen : t.far.connection.closed = false)
    (haccepted : ∀ a ∈ t.far.attempts, a.frame.stream = l.id → a.isRefused = false) :
    WireLaw l.id (t.far.history j) (onStream l.id t.far.connection.written) ∧
      (.dismiss ∈ t.far.history j → t.WantsNoMore l.id) ∧
      (∀ f ∈ t.far.framesSince j, detachesLink l.id f →
        .detachLink l.id ∈ t.todo ∨ .cancelProducer j ∈ t.todo ∨ .dismiss ∈ t.far.history j) ∧
      ∀ {ι : Type} [DecidableEq ι] {c : Crew ι Chronicle Step},
        Crew.Reach Chronicle.environment (Chronicle.newRules ι) Chronicle.start c →
          c.exchange.far = t.far →
            ((onStream l.id t.far.connection.written).filterMap Frame.item?).length ≤
              1 + t.far.demanded j l := by
  have hlaw := (follows_of_run h hl hk hex).wireLaw
  rw [← (sound_of_run h).faithful.onStream_written haccepted] at hlaw
  refine ⟨hlaw, fun hdismiss => ?_, fun f hf hstops => ?_, fun {ι} _ {c} hreach hfar => ?_⟩
  · exact wantsNoMore_of_due h hopen hl (Or.inr (dismiss_mem_history.mp hdismiss))
  · exact ((obeys_of_run h hl hk hex).stopped f hf hstops).imp id
      (Or.imp id dismiss_mem_history.mpr)
  · rw [hlaw.items]
    rw [← hfar] at hl ⊢
    exact (length_items_history_le j _).trans (Chronicle.length_sentTo_le hreach hl)

/-- A consumer grants demand before the first item and behind it, and cancels; the peer wants two
items, and no more. -/
def canceledOnBothSides : List (Event Step) :=
  [.openedChannel 0 0, .resumed (.register 0), .asked ⟨0, 0⟩ (.request 3), .attached ⟨0, 0⟩ 0,
    .heard ⟨0, 0⟩ (.next ⟨"a", "b"⟩), .asked ⟨0, 0⟩ (.request 2),
    .resumed (.receive (.requestN 1 1)), .resumed (.askProducer 0 1),
    .heard ⟨0, 0⟩ (.next ⟨"c", "d"⟩), .asked ⟨0, 0⟩ .cancel, .resumed (.writeCancel 1),
    .resumed (.receive (.cancel 1)), .resumed (.detachLink 1), .resumed (.cancelProducer 0),
    .heard ⟨0, 0⟩ (.next ⟨"e", "f"⟩)]

/-- The frames for the first two items and for what the consumer wants; nothing of what comes behind
the cancellations but that it has canceled. -/
theorem canceledOnBothSides_eq :
    ((play canceledOnBothSides {}).far.connection.labels[0]?,
        (play canceledOnBothSides {}).far.allotted,
        (play canceledOnBothSides {}).far.connection.closed,
        (play canceledOnBothSides {}).far.attempts.all (!·.isRefused),
        (play canceledOnBothSides {}).far.history 0,
        onStream 1 (play canceledOnBothSides {}).far.connection.written) =
      (some ⟨1, 0, .channel⟩, 1, false, true,
        [.grant 3, .attach, .item ⟨"a", "b"⟩, .grant 2, .item ⟨"c", "d"⟩, .cancel, .dismiss,
          .item ⟨"e", "f"⟩],
        [.requestChannel 1 3 ⟨"a", "b"⟩, .requestN 1 2, .next 1 ⟨"c", "d"⟩, .cancel 1]) := by
  decide +kernel

/-- A script is about to open a channel, with the first item of its producer. -/
def opening : Crew Bool Chronicle Step :=
  Chronicle.start.turn false [.tell (.openedChannel 0 0)]
    (Exchange.enter
      { receiver := .payloads { label := "channel", initialDemand := 1 }
        producer := .scripted { initial := .pending ⟨"a", "b"⟩ } }
      { far := {} })

/-- The item has gone out. -/
def opened : Crew Bool Chronicle Step :=
  opening.play Chronicle.environment (List.replicate 14 false)

/-- The reader has read that the peer wants another one. -/
def wanted : Crew Bool Chronicle Step :=
  (opened.turn true [.call (.resume (.receive (.requestN 1 1)))] opened.exchange).play
    Chronicle.environment (List.replicate 8 true)

/-- The script sends an item, if it may. -/
def sends (c : Crew Bool Chronicle Step) (p : Payload) : Crew Bool Chronicle Step :=
  match c.exchange.scripted? 0 with
  | some producer =>
    match producer.emitter.emit (.next p) with
    | .sent emitter =>
      let sent := c.exchange.send 0 producer emitter (.next p)
      c.turn false sent.2 sent.1
    | _ => c
  | none => c

/-- That has gone out, too. -/
def spent : Crew Bool Chronicle Step :=
  (sends wanted ⟨"c", "d"⟩).play Chronicle.environment (List.replicate 8 false)

theorem reach_sends {c : Crew Bool Chronicle Step} (hidle : c.stack false = []) (p : Payload) :
    Crew.Reach Chronicle.environment (Chronicle.newRules Bool) c (sends c p) := by
  unfold sends
  split
  · rename_i producer hproducer
    split
    · rename_i emitter hemit
      exact .single (.emit hidle trivial hproducer hemit)
    · exact .refl
  · exact .refl

theorem reach_spent :
    Crew.Reach Chronicle.environment (Chronicle.newRules Bool) Chronicle.start spent := by
  have hopening :
      Crew.Reach Chronicle.environment (Chronicle.newRules Bool) Chronicle.start opening :=
    .single (.start rfl
      ⟨Chronicle.Starts.channel _ (.scripted ⟨"a", "b"⟩), Chronicle.opensNew_enter _ rfl _⟩)
  have hopened :
      Crew.Reach Chronicle.environment (Chronicle.newRules Bool) Chronicle.start opened :=
    hopening.trans (Crew.reach_play ..)
  have hwanted : Crew.Reach Chronicle.environment (Chronicle.newRules Bool) opened wanted :=
    (Relation.ReflTransGen.single (.start (k := true) (by decide +kernel)
      ⟨Chronicle.Starts.arrive (.requestN 1 1), Chronicle.opensNew_self _ _ _⟩)).trans
      (Crew.reach_play ..)
  exact ((hopened.trans hwanted).trans (reach_sends (by decide +kernel) _)).trans (Crew.reach_play ..)

/-- Two items are on the wire once the peer has granted one. -/
theorem spent_eq :
    (spent.exchange.far.connection.labels[0]?, spent.exchange.far.allotted,
        spent.exchange.far.connection.closed, spent.exchange.far.attempts.all (!·.isRefused),
        spent.exchange.far.demanded 0 ⟨1, 0, .channel⟩,
        onStream 1 spent.exchange.far.connection.written) =
      (some ⟨1, 0, .channel⟩, 1, false, true, 1,
        [.requestChannel 1 1 ⟨"a", "b"⟩, .next 1 ⟨"c", "d"⟩]) := by
  decide +kernel

theorem wireLaw_canceledOnBothSides :
    WireLaw 1
        [.grant 3, .attach, .item ⟨"a", "b"⟩, .grant 2, .item ⟨"c", "d"⟩, .cancel, .dismiss,
          .item ⟨"e", "f"⟩]
        [.requestChannel 1 3 ⟨"a", "b"⟩, .requestN 1 2, .next 1 ⟨"c", "d"⟩, .cancel 1] ∧
      ((onStream 1 spent.exchange.far.connection.written).filterMap Frame.item?).length ≤
        1 + spent.exchange.far.demanded 0 ⟨1, 0, .channel⟩ := by
  constructor
  · have hrun : Run {} (play canceledOnBothSides {}) := run_play (by decide +kernel)
    obtain ⟨hlabel, hallotted, hopen, haccepted, hhistory, hwritten⟩ := by
      simpa only [Prod.mk.injEq, List.all_eq_true] using canceledOnBothSides_eq
    have hexclusive : (play canceledOnBothSides {}).far.Exclusive 1 :=
      Chronicle.exclusive_of_allotted_le (by rw [hallotted]; decide) 1
    have hlaw := (wireLaw_of_run hrun hlabel rfl hexclusive hopen fun a ha _ => by
      simpa using haccepted a ha).1
    rwa [hhistory, hwritten] at hlaw
  · obtain ⟨t, hrun, hfar⟩ := Chronicle.exists_run_of_reach reach_spent
    obtain ⟨hlabel, hallotted, hopen, haccepted, -⟩ := by
      simpa only [Prod.mk.injEq, List.all_eq_true] using spent_eq
    rw [← hfar] at hlabel hallotted hopen haccepted ⊢
    have hexclusive : t.far.Exclusive 1 :=
      Chronicle.exclusive_of_allotted_le (by rw [hallotted]; decide) 1
    exact (wireLaw_of_run hrun hlabel rfl hexclusive hopen fun a ha _ => by
      simpa using haccepted a ha).2.2.2 reach_spent hfar.symm

end Traffic
end Client
end StreamConformance
