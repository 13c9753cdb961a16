import StreamConformance.Proofs.Json.Sizes
import StreamConformance.Proofs.Responder.Requests
import StreamConformance.Proofs.Wire.Framing

/-!
# What fits on the way in fits on the way out

The responder says nothing of its own: a reply is a payload that came on the same stream, the
refusal of the frame that it replies to, or a frame without text.  And none of these is larger than
the frame that it comes from.  A payload goes out in the frame with the shortest name.  A refusal
repeats the payload inside of a longer text, but it takes the place of a frame that opens a stream,
whose name and whose fields are longer still.  (It would not fit into the place of an item: there it
would be two bytes longer.)

So there is always a frame that was received and is at least as large as the reply, and whatever the
limit is, what keeps to it on the way in keeps to it on the way out.

* `Wire.utf8ByteSize_body`: the size of a frame, and `Wire.utf8ByteSize_next_le`,
  `Wire.utf8ByteSize_refusal_le`, `Wire.utf8ByteSize_credit_le`, `Wire.utf8ByteSize_complete_le`:
  how the sizes of replies compare.
* `Responder.IsReply`, `Responder.isReply_of_mem_answer`: what replies are made of.
* `Responder.Remembers`, `Responder.remembers_behind`: what is kept has been received.
* `Responder.isServed_of_fits`, `Responder.isServed_writeFrames`: so all replies fit, and nothing
  but the shutdown payload ends a conversation.
-/

namespace StreamConformance

namespace Wire

open Json (memberSize memberSize_eq length_writeObject_cons length_writeString)
open Text (bytes)

variable {f : Frame} {p : Payload}

/-! ## The sizes of frames -/

/-- A text without anything to escape has one byte for each of its characters. -/
theorem length_escape_of_plain {s : String}
    (h : ((s.toList.flatMap Json.escapeChar).flatMap String.utf8EncodeChar).length =
      s.toList.length) :
    (bytes (Json.escape s)).length = s.toList.length := by
  rw [Text.bytes_eq, Json.toList_escape, h]

theorem length_escape_name (kind : FrameKind) :
    (bytes (Json.escape kind.name)).length = kind.name.toList.length := by
  cases kind <;> exact length_escape_of_plain (by decide)

/-- The size of a frame: its name, its stream and its fields, and what is the same for all. -/
theorem utf8ByteSize_body (f : Frame) :
    f.body.utf8ByteSize = f.kind.name.toList.length +
      memberSize ("stream_id", Json.writeNat f.stream.toNat) +
        (f.fields.map memberSize).sum + 11 := by
  have htype : (bytes (Json.escape "type")).length = 4 := length_escape_of_plain (by decide)
  rw [← Text.length_bytes, Frame.body, length_writeObject_cons, List.map_cons, List.map_cons,
    List.sum_cons, List.sum_cons, memberSize_eq "type", length_writeString, length_escape_name,
    htype]
  omega

theorem memberSize_payload (p : Payload) :
    memberSize ("payload", writePayload p) =
      (bytes (Json.escape p.data)).length + (bytes (Json.escape p.metadata)).length + 36 := by
  have hdata : (bytes (Json.escape "data")).length = 4 := length_escape_of_plain (by decide)
  have hmetadata : (bytes (Json.escape "metadata")).length = 8 := length_escape_of_plain (by decide)
  have hpayload : (bytes (Json.escape "payload")).length = 7 := length_escape_of_plain (by decide)
  rw [memberSize_eq, writePayload, length_writeObject_cons, List.map_cons, List.map_cons,
    List.map_nil, List.sum_cons, List.sum_cons, List.sum_nil, memberSize_eq, memberSize_eq,
    length_writeString, length_writeString, hdata, hmetadata, hpayload]
  omega

/-- The payload of a frame is one of its fields. -/
theorem payload_mem_fields (h : f.payload? = some p) : ("payload", writePayload p) ∈ f.fields := by
  cases f <;> simp_all [Frame.payload?, Frame.fields]

/-- A frame has at least the size of its payload. -/
theorem le_utf8ByteSize_of_payload? (h : f.payload? = some p) :
    f.kind.name.toList.length + memberSize ("stream_id", Json.writeNat f.stream.toNat) +
        memberSize ("payload", writePayload p) + 11 ≤ f.body.utf8ByteSize := by
  have hfield := List.le_sum_of_mem (List.mem_map_of_mem (f := memberSize) (payload_mem_fields h))
  rw [utf8ByteSize_body]
  omega

/-! ## Replies compared with what they are made of -/

/-- No kind has a shorter name than an item. -/
theorem le_length_name (kind : FrameKind) :
    FrameKind.next.name.toList.length ≤ kind.name.toList.length := by
  cases kind <;> decide

/-- A payload has no shorter frame than that of an item. -/
theorem utf8ByteSize_next_le (h : f.payload? = some p) :
    (Frame.next f.stream p).body.utf8ByteSize ≤ f.body.utf8ByteSize := by
  have hname := le_length_name f.kind
  have hsize := le_utf8ByteSize_of_payload? h
  have hnext : (Frame.next f.stream p).body.utf8ByteSize = FrameKind.next.name.toList.length +
      memberSize ("stream_id", Json.writeNat f.stream.toNat) +
        memberSize ("payload", writePayload p) + 11 := utf8ByteSize_body _
  omega

theorem length_escape_requestedError (h : p.data = "error") :
    (bytes (Json.escape p.requestedError)).length =
      (bytes (Json.escape p.metadata)).length + 29 := by
  -- The sizes of the texts are hypotheses, so that nothing looks into the texts to count them.
  have hparts {a b c d e : String} (ha : (bytes (Json.escape a)).length = 20)
      (hb : (bytes (Json.escape b)).length = 1) (hc : (bytes (Json.escape c)).length = 5)
      (hd : (bytes (Json.escape d)).length = 2) (he : (bytes (Json.escape e)).length = 1) :
      (bytes (Json.escape (a ++ (b ++ c ++ d ++ p.metadata ++ e)))).length =
        (bytes (Json.escape p.metadata)).length + 29 := by
    simp only [Json.bytes_escape_append, List.length_append]
    omega
  have htext : p.requestedError =
      "requested error for " ++ ("(" ++ "error" ++ ", " ++ p.metadata ++ ")") :=
    congrArg (fun data => "requested error for " ++ ("(" ++ data ++ ", " ++ p.metadata ++ ")")) h
  exact htext ▸ hparts (length_escape_of_plain (by decide)) (length_escape_of_plain (by decide))
    (length_escape_of_plain (by decide)) (length_escape_of_plain (by decide))
    (length_escape_of_plain (by decide))

/-- The refusal of a frame that opens a stream is shorter than the frame. -/
theorem utf8ByteSize_refusal_le (h : f.payload? = some p) (hopens : f.opens = true)
    (hasks : p.asksForError = true) :
    (Frame.error f.stream p.requestedError).body.utf8ByteSize ≤ f.body.utf8ByteSize := by
  -- The message is one byte longer than the payload, and the names make up for more than that.
  have hname : 14 ≤ f.kind.name.toList.length := by
    have hnames : ∀ kind ∈ [FrameKind.requestResponse, .requestStream, .requestSubscription,
        .requestChannel], 14 ≤ kind.name.toList.length := by decide
    refine hnames f.kind ?_
    cases f with
    | requestResponse | requestStream | requestSubscription | requestChannel => simp [Frame.kind]
    | _ => cases hopens
  have hdata : p.data = "error" := beq_iff_eq.mp hasks
  have hpayload : memberSize ("payload", writePayload p) =
      (bytes (Json.escape p.metadata)).length + 41 := by
    have herror : (bytes (Json.escape "error")).length = 5 := length_escape_of_plain (by decide)
    rw [memberSize_payload, hdata, herror]
    omega
  have hmessage : memberSize ("message", Json.writeString p.requestedError) =
      (bytes (Json.escape p.metadata)).length + 42 := by
    have hkey : (bytes (Json.escape "message")).length = 7 := length_escape_of_plain (by decide)
    rw [memberSize_eq, length_writeString, length_escape_requestedError hdata, hkey]
    omega
  have hsize := le_utf8ByteSize_of_payload? h
  have hrefusal : (Frame.error f.stream p.requestedError).body.utf8ByteSize =
      FrameKind.error.name.toList.length + memberSize ("stream_id", Json.writeNat f.stream.toNat) +
        memberSize ("message", Json.writeString p.requestedError) + 11 := utf8ByteSize_body _
  have herror : FrameKind.error.name.toList.length = 5 := rfl
  omega

/-- The credit for an item is shorter than the item. -/
theorem utf8ByteSize_credit_le (h : f.payload? = some p) :
    (Frame.requestN f.stream Responder.channelCredit).body.utf8ByteSize ≤ f.body.utf8ByteSize := by
  have hcredit : (Frame.requestN f.stream Responder.channelCredit).body.utf8ByteSize =
      FrameKind.requestN.name.toList.length +
        memberSize ("stream_id", Json.writeNat f.stream.toNat) +
          memberSize ("n", Json.writeNat Responder.channelCredit) + 11 := utf8ByteSize_body _
  have hname : FrameKind.requestN.name.toList.length = 9 := rfl
  have hn : memberSize ("n", Json.writeNat Responder.channelCredit) = 8 := by
    have hkey : (bytes (Json.escape "n")).length = 1 := length_escape_of_plain (by decide)
    rw [memberSize_eq, hkey, Json.bytes_writeNat, List.length_map]
    rfl
  have hsize := le_utf8ByteSize_of_payload? h
  rw [memberSize_payload] at hsize
  omega

/-- A completion is no longer than any frame that does not end a stream. -/
theorem utf8ByteSize_complete_le (h : f.stops = false) :
    (Frame.complete f.stream).body.utf8ByteSize ≤ f.body.utf8ByteSize := by
  have hcomplete : (Frame.complete f.stream).body.utf8ByteSize =
      FrameKind.complete.name.toList.length +
        memberSize ("stream_id", Json.writeNat f.stream.toNat) + 0 + 11 := utf8ByteSize_body _
  have hname : FrameKind.complete.name.toList.length = 8 := rfl
  cases hpayload : f.payload? with
  | some p =>
    have hsize := le_utf8ByteSize_of_payload? hpayload
    rw [memberSize_payload] at hsize
    omega
  | none =>
    have hlonger : 8 ≤ f.kind.name.toList.length := by
      have hnames : ∀ kind ∈ [FrameKind.requestN, .complete], 8 ≤ kind.name.toList.length := by
        decide
      refine hnames f.kind ?_
      cases f with
      | requestN | complete => simp [Frame.kind]
      | cancel | error => cases h
      | _ => cases hpayload
    rw [hcomplete, hname, utf8ByteSize_body f]
    omega

end Wire

namespace Responder

open Wire (Frame)

variable {stream : UInt32} {p : Payload} {a : Activity} {o : Option Activity} {f g : Frame}
  {fs received : List Frame}

/-! ## What replies are made of -/

/-- The payloads that an activity keeps. -/
def Activity.payloads : Activity → List Payload
  | .stream _ p _ => [p]
  | .subscription p _ => [p]
  | .channel c => c.queue

/-- The payloads that are kept for a stream. -/
def kept (o : Option Activity) : List Payload :=
  o.elim [] Activity.payloads

/-- The frames that `f` can be replied to with while the payloads `ps` are kept. -/
inductive IsReply (ps : List Payload) (f : Frame) : Frame → Prop
  | complete (h : f.stops = false) : IsReply ps f (.complete f.stream)
  | credit {p : Payload} (h : f.payload? = some p) :
      IsReply ps f (.requestN f.stream channelCredit)
  | item {p : Payload} (h : p ∈ f.payload?.toList ++ ps) : IsReply ps f (.next f.stream p)
  | refusal {p : Payload} (h : f.payload? = some p) (opens : f.opens = true)
      (asks : p.asksForError = true) : IsReply ps f (.error f.stream p.requestedError)

theorem mem_flush (h : g ∈ (a.flush stream).2) :
    g = .complete stream ∨ ∃ p ∈ a.payloads, g = .next stream p := by
  cases a with
  | stream remaining p demand =>
    simp only [Activity.flush] at h
    split at h
    · rcases List.mem_append.mp h with hitem | hlast
      · exact Or.inr ⟨p, List.mem_cons_self, List.eq_of_mem_replicate hitem⟩
      · exact Or.inl (List.mem_singleton.mp hlast)
    · exact Or.inr ⟨p, List.mem_cons_self, List.eq_of_mem_replicate h⟩
  | subscription p demand => exact Or.inr ⟨p, List.mem_cons_self, List.eq_of_mem_replicate h⟩
  | channel c =>
    have hitem (hg : g ∈ (c.queue.take c.demand).map (Frame.next stream)) :
        ∃ p ∈ c.queue, g = .next stream p := by
      obtain ⟨p, hp, rfl⟩ := List.mem_map.mp hg
      exact ⟨p, List.mem_of_mem_take hp, rfl⟩
    simp only [Activity.flush] at h
    split at h
    · rcases List.mem_append.mp h with hg | hlast
      · exact Or.inr (hitem hg)
      · exact Or.inl (List.mem_singleton.mp hlast)
    · exact Or.inr (hitem h)

/-- Sending adds nothing to what is kept. -/
theorem kept_flush_subset (stream : UInt32) (a : Activity) :
    kept (a.flush stream).1 ⊆ a.payloads := by
  cases a with
  | stream remaining p demand =>
    simp only [Activity.flush]
    split
    · exact List.nil_subset _
    · exact List.Subset.refl _
  | subscription p demand => exact List.Subset.refl _
  | channel c =>
    simp only [Activity.flush]
    split
    · exact List.nil_subset _
    · exact List.drop_subset _ _

/-- What is said when demand is met in reply to `f`. -/
theorem isReply_of_mem_flush {ps : List Payload} (hstops : f.stops = false)
    (ha : a.payloads ⊆ f.payload?.toList ++ ps) (h : g ∈ (a.flush f.stream).2) :
    IsReply ps f g := by
  rcases mem_flush h with rfl | ⟨p, hp, rfl⟩
  · exact .complete hstops
  · exact .item (ha hp)

theorem isReply_of_mem_flush? {ps : List Payload} (hstops : f.stops = false)
    (ho : kept o ⊆ ps) (h : g ∈ (flush? f.stream o).2) : IsReply ps f g := by
  cases o with
  | none => cases h
  | some a => exact isReply_of_mem_flush hstops (List.subset_append_of_subset_right _ ho) h

theorem kept_flush?_subset (stream : UInt32) (o : Option Activity) :
    kept (flush? stream o).1 ⊆ kept o := by
  cases o with
  | none => exact List.Subset.refl _
  | some a => exact kept_flush_subset stream a

theorem kept_map_subset {m : Activity → Activity} (hm : ∀ a, (m a).payloads = a.payloads)
    (o : Option Activity) : kept (o.map m) ⊆ kept o := by
  cases o with
  | none => exact List.Subset.refl _
  | some a => exact fun p (hp : p ∈ (m a).payloads) => (hm a ▸ hp : p ∈ a.payloads)

theorem payloads_clientCompletes (a : Activity) : a.clientCompletes.payloads = a.payloads := by
  cases a <;> rfl

theorem payloads_grant (n : Nat) (a : Activity) : (a.grant n).payloads = a.payloads := by
  cases a <;> rfl

/-- **What replies are made of**: payloads that are kept for the stream, and the frame itself. -/
theorem isReply_of_mem_answer (h : g ∈ (answer f o).2) : IsReply (kept o) f g := by
  cases f with
  | requestResponse stream p =>
    simp only [answer] at h
    split at h
    · rename_i hasks
      rw [List.mem_singleton.mp h]
      exact .refusal rfl rfl hasks
    · rcases List.mem_cons.mp h with rfl | h
      · exact .item List.mem_cons_self
      · rw [List.mem_singleton.mp h]
        exact .complete rfl
  | requestStream stream n p | requestSubscription stream n p =>
    simp only [answer] at h
    split at h
    · rename_i hasks
      rw [List.mem_singleton.mp h]
      exact .refusal rfl rfl hasks
    · exact isReply_of_mem_flush rfl (List.subset_append_left _ _) h
  | requestChannel stream n p =>
    rcases List.mem_cons.mp h with rfl | h
    · exact .credit rfl
    · exact isReply_of_mem_flush rfl (List.subset_append_left _ _) h
  | next stream p =>
    simp only [answer] at h
    unfold answerItem at h
    split at h
    · rename_i c
      rcases List.mem_append.mp h with hcredit | h
      · split at hcredit
        · rw [List.mem_singleton.mp hcredit]
          exact .credit rfl
        · cases hcredit
      · refine isReply_of_mem_flush (f := .next stream p) rfl (fun q hq => ?_) h
        exact (List.mem_append.mp hq).elim (List.mem_append_right _) (List.mem_append_left _)
    · exact isReply_of_mem_flush? (f := .next stream p) rfl (List.Subset.refl _) h
  | complete stream =>
    exact isReply_of_mem_flush? rfl (kept_map_subset payloads_clientCompletes o) h
  | requestN stream n => exact isReply_of_mem_flush? rfl (kept_map_subset (payloads_grant n) o) h
  | fireAndForget stream p | error stream message | cancel stream => cases h

/-- What is kept then was kept before, or came with the frame. -/
theorem kept_answer_subset (f : Frame) (o : Option Activity) :
    kept (answer f o).1 ⊆ f.payload?.toList ++ kept o := by
  cases f with
  | requestResponse stream p | fireAndForget stream p => exact List.subset_append_right _ _
  | requestStream stream n p | requestSubscription stream n p =>
    simp only [answer]
    split
    · exact List.subset_append_right _ _
    · exact List.subset_append_of_subset_left _ (kept_flush_subset stream _)
  | requestChannel stream n p =>
    exact List.subset_append_of_subset_left _ (kept_flush_subset stream _)
  | next stream p =>
    simp only [answer]
    unfold answerItem
    split
    · rename_i c
      intro q hq
      exact (List.mem_append.mp (kept_flush_subset stream _ hq)).elim (List.mem_append_right _)
        (List.mem_append_left _)
    · exact List.subset_append_of_subset_right _ (kept_flush?_subset stream _)
  | complete stream =>
    exact List.Subset.trans (kept_flush?_subset stream _)
      (kept_map_subset payloads_clientCompletes o)
  | requestN stream n =>
    exact List.Subset.trans (kept_flush?_subset stream _) (kept_map_subset (payloads_grant n) o)
  | error stream message | cancel stream => exact List.nil_subset _

/-! ## What is kept has been received -/

/-- The payloads that a responder keeps for a stream came with frames for that stream. -/
def Remembers (received : List Frame) (r : Responder) : Prop :=
  ∀ stream, ∀ p ∈ kept (r.find? stream), ∃ h ∈ received, h.stream = stream ∧ h.payload? = some p

theorem Remembers.handle {r : Responder} (h : Remembers received r) (f : Frame) :
    Remembers (received ++ [f]) (r.handle f).1 := by
  have hfind := (acts_handle f r).find?
  intro stream p hp
  have hbefore (hp : p ∈ kept (r.find? stream)) :
      ∃ h ∈ received ++ [f], h.stream = stream ∧ h.payload? = some p := by
    obtain ⟨g, hg, hgp⟩ := h stream p hp
    exact ⟨g, List.mem_append_left _ hg, hgp⟩
  dsimp only at hfind
  rw [hfind] at hp
  split at hp
  · rename_i hstream
    rcases List.mem_append.mp (kept_answer_subset f _ hp) with hnew | hold
    · exact ⟨f, List.mem_append_right _ List.mem_cons_self, hstream.symm,
        Option.mem_toList.mp hnew⟩
    · exact hbefore (hstream ▸ hold)
  · exact hbefore hp

/-- No reply is larger than some frame that was received on its stream. -/
theorem exists_le_of_mem_handle {r : Responder} (h : Remembers received r)
    (hg : g ∈ (r.handle f).2.1) :
    ∃ h ∈ received ++ [f], h.stream = g.stream ∧ g.body.utf8ByteSize ≤ h.body.utf8ByteSize := by
  have hreplies := (acts_handle f r).replies
  dsimp only at hreplies
  rw [hreplies] at hg
  have hlast : f ∈ received ++ [f] := List.mem_append_right _ List.mem_cons_self
  have hreply := isReply_of_mem_answer hg
  cases hreply with
  | complete hstops => exact ⟨f, hlast, rfl, Wire.utf8ByteSize_complete_le hstops⟩
  | credit hp => exact ⟨f, hlast, rfl, Wire.utf8ByteSize_credit_le hp⟩
  | refusal hp hopens hasks => exact ⟨f, hlast, rfl, Wire.utf8ByteSize_refusal_le hp hopens hasks⟩
  | @item p hp =>
    have hfrom {h : Frame} (hstream : h.stream = f.stream) (hp : h.payload? = some p) :
        (Frame.next f.stream p).body.utf8ByteSize ≤ h.body.utf8ByteSize :=
      hstream ▸ Wire.utf8ByteSize_next_le hp
    rcases List.mem_append.mp hp with hnew | hold
    · exact ⟨f, hlast, rfl, hfrom rfl (Option.mem_toList.mp hnew)⟩
    · obtain ⟨h, hh, hstream, hp⟩ := h f.stream p hold
      exact ⟨h, List.mem_append_left _ hh, hstream, hfrom hstream hp⟩

namespace Conversation

theorem responder_receive (f : Frame) (v : Conversation) :
    (v.receive f).1.responder =
      if v.ended.isSome then v.responder else (v.responder.handle f).1 := by
  unfold receive
  split
  · rfl
  · dsimp only
    split <;> rfl

end Conversation

/-- The responder behind some frames. -/
def behind (fs : List Frame) : Responder :=
  (({} : Conversation).receiveAll fs).1.responder

theorem receiveAll_concat (before : List Frame) (f : Frame) :
    ({} : Conversation).receiveAll (before ++ [f]) =
      (((({} : Conversation).receiveAll before).1.receive f).1,
        replies before ++ ((({} : Conversation).receiveAll before).1.receive f).2) := by
  rw [Conversation.receiveAll_append, Conversation.receiveAll_cons]
  simp only [Conversation.receiveAll, List.foldl_nil, List.append_nil]
  rfl

/-- **What is kept has been received**, whatever came on all streams. -/
theorem remembers_behind (received : List Frame) : Remembers received (behind received) := by
  -- One frame more is received, or dropped because the conversation is over.
  induction received using List.reverseRecOn with
  | nil => exact fun stream p hp => absurd hp List.not_mem_nil
  | append_singleton received f ih =>
    rw [behind, receiveAll_concat, Conversation.responder_receive]
    split
    · intro stream p hp
      obtain ⟨h, hh, hp⟩ := ih stream p hp
      exact ⟨h, List.mem_append_left _ hh, hp⟩
    · exact ih.handle f

/-! ## Nothing is too large -/

theorem written_of_fits (h : ∀ f ∈ fs, f.body.utf8ByteSize ≤ Wire.maxBody) :
    written fs = (fs, none) := by
  induction fs with
  | nil => rfl
  | cons f fs ih =>
    have hf : ∃ b, f.encode = .ok b := by
      unfold Frame.encode Wire.frameBytes
      rw [if_neg (Nat.not_lt.mpr (h f List.mem_cons_self))]
      exact ⟨_, rfl⟩
    obtain ⟨b, hb⟩ := hf
    simp only [written, hb, ih fun g hg => h g (List.mem_cons_of_mem f hg)]

/-- A conversation in which all that is said can be written. -/
structure IsServed (received : List Frame) : Prop where
  /-- A reply has at most the size of some frame that was received on its stream up to then, and at
  most the size that a frame may have. -/
  bounded : ∀ before f after, received = before ++ f :: after →
    ∀ g ∈ ((behind before).handle f).2.1, g.body.utf8ByteSize ≤ Wire.maxBody ∧
      ∃ h ∈ before ++ [f], h.stream = g.stream ∧ g.body.utf8ByteSize ≤ h.body.utf8ByteSize
  /-- So does all that is said. -/
  fits : ∀ g ∈ replies received, g.body.utf8ByteSize ≤ Wire.maxBody
  /-- No reply is refused. -/
  written : ∀ before f after, received = before ++ f :: after →
    written ((behind before).handle f).2.1 = (((behind before).handle f).2.1, none)
  /-- What a frame is replied to with is said as long as the conversation goes on. -/
  said : ∀ before f after, received = before ++ f :: after → GoesOn before →
    replies (before ++ [f]) = replies before ++ ((behind before).handle f).2.1
  /-- It goes on until a message with the shutdown payload. -/
  goesOn : ∀ before after, received = before ++ after →
    (GoesOn before ↔ ∀ s q, .fireAndForget s q ∈ before → q.isShutdown = false)
  /-- There is no fault at any time. -/
  ended : ∀ before after fault, received = before ++ after →
    (({} : Conversation).receiveAll before).1.ended ≠ some (.error fault)
  /-- There is none when the client leaves either. -/
  finished : ((({} : Conversation).receiveAll received).1.finish none).ended = some (.ok ())

theorem le_maxBody_of_mem_handle {before : List Frame}
    (hfits : ∀ h ∈ before ++ [f], h.body.utf8ByteSize ≤ Wire.maxBody)
    (h : g ∈ ((behind before).handle f).2.1) : g.body.utf8ByteSize ≤ Wire.maxBody := by
  obtain ⟨h, hh, -, hle⟩ := exists_le_of_mem_handle (remembers_behind before) h
  exact Nat.le_trans hle (hfits h hh)

/-- What becomes of a conversation with a frame whose replies can all be written. -/
theorem receive_of_fits {before : List Frame} (hgoes : GoesOn before)
    (hfits : ∀ h ∈ before ++ [f], h.body.utf8ByteSize ≤ Wire.maxBody) :
    (({} : Conversation).receiveAll before).1.receive f =
      ({ responder := ((behind before).handle f).1
         ended := if ((behind before).handle f).2.2 then none else some (.ok ()) },
        ((behind before).handle f).2.1) := by
  have hwritten : written ((behind before).handle f).2.1 = (((behind before).handle f).2.1, none) :=
    written_of_fits fun g hg => le_maxBody_of_mem_handle hfits hg
  rw [Conversation.receive, hgoes, Option.isSome_none, if_neg Bool.false_ne_true]
  simp only [behind] at hwritten ⊢
  simp only [hwritten]
  rfl

theorem ended_ne_of_fits (hfits : ∀ f ∈ received, f.body.utf8ByteSize ≤ Wire.maxBody)
    (fault : Fault) : (({} : Conversation).receiveAll received).1.ended ≠ some (.error fault) := by
  induction received using List.reverseRecOn with
  | nil => exact (Option.some_ne_none _).symm
  | append_singleton before f ih =>
    have hbefore := ih fun g hg => hfits g (List.mem_append_left _ hg)
    rw [receiveAll_concat]
    by_cases hgoes : GoesOn before
    · rw [receive_of_fits hgoes hfits]
      dsimp only
      split
      · exact (Option.some_ne_none _).symm
      · intro h
        cases h
    · rw [Conversation.receive, if_pos (Option.isSome_iff_ne_none.mpr hgoes)]
      exact hbefore

theorem le_maxBody_of_mem_replies (hfits : ∀ f ∈ received, f.body.utf8ByteSize ≤ Wire.maxBody)
    (hg : g ∈ replies received) : g.body.utf8ByteSize ≤ Wire.maxBody := by
  induction received using List.reverseRecOn with
  | nil => cases hg
  | append_singleton before f ih =>
    rw [replies, receiveAll_concat] at hg
    rcases List.mem_append.mp hg with hold | hnew
    · exact ih (fun h hh => hfits h (List.mem_append_left _ hh)) hold
    · by_cases hgoes : GoesOn before
      · rw [receive_of_fits hgoes hfits] at hnew
        exact le_maxBody_of_mem_handle hfits hnew
      · rw [Conversation.receive, if_pos (Option.isSome_iff_ne_none.mpr hgoes)] at hnew
        cases hnew

/-- **What fits on the way in fits on the way out.** -/
theorem isServed_of_fits (hfits : ∀ f ∈ received, f.body.utf8ByteSize ≤ Wire.maxBody) :
    IsServed received := by
  have hbegin {before after : List Frame} (h : received = before ++ after) :
      ∀ f ∈ before, f.body.utf8ByteSize ≤ Wire.maxBody :=
    fun f hf => hfits f (h ▸ List.mem_append_left after hf)
  have hupTo {before after : List Frame} {f : Frame} (h : received = before ++ f :: after) :
      ∀ g ∈ before ++ [f], g.body.utf8ByteSize ≤ Wire.maxBody :=
    hbegin (h.trans (List.append_cons before f after))
  exact {
    bounded := fun before f after h g hg =>
      ⟨le_maxBody_of_mem_handle (hupTo h) hg, exists_le_of_mem_handle (remembers_behind before) hg⟩
    fits := fun g hg => le_maxBody_of_mem_replies hfits hg
    written := fun before f after h =>
      written_of_fits fun g hg => le_maxBody_of_mem_handle (hupTo h) hg
    said := fun before f after h hgoes => by
      rw [replies, receiveAll_concat, receive_of_fits hgoes (hupTo h)]
    goesOn := fun before after h =>
      goesOn_iff.trans (and_iff_left (ended_ne_of_fits (hbegin h)))
    ended := fun before after fault h => ended_ne_of_fits (hbegin h) fault
    finished := by
      have hended := ended_ne_of_fits hfits
      unfold Conversation.finish
      split
      · rename_i e he
        rcases e with fault | ⟨⟨⟩⟩
        · exact absurd he (hended fault)
        · exact he
      · rfl }

/-- The frames that a client wrote are those that the responder reads. -/
theorem readFrames_written (h : ∀ f ∈ fs, f.HasWordCount) :
    Wire.readFrames (Wire.writeFrames fs []).1 = ((Wire.writeFrames fs []).2, none) := by
  obtain ⟨chunks, hchunks, hcarries⟩ := Wire.exists_of_writeFrames h []
  have hend : Wire.readFrames [] = ([], none) := Wire.readFrames_of_ended rfl
  have hread := Wire.readFrames_append hcarries []
  rw [hend, List.append_nil, List.append_nil] at hread
  rw [hchunks, List.nil_append, hread]

/-- **No client that writes frames brings the responder down**, whatever the frames contain: all
that it has to say to them fits into frames. -/
theorem isServed_writeFrames (h : ∀ f ∈ fs, f.HasWordCount) :
    Wire.readFrames (Wire.writeFrames fs []).1 = ((Wire.writeFrames fs []).2, none) ∧
      IsServed (Wire.writeFrames fs []).2 := by
  refine ⟨readFrames_written h, isServed_of_fits fun f hf => ?_⟩
  rw [Wire.accepted_eq] at hf
  exact of_decide_eq_true (List.mem_filter.mp hf).2

/-- The size of a request on the first stream.  The sizes of its texts are hypotheses here, too. -/
theorem utf8ByteSize_requestResponse {p : Payload} {m n : Nat}
    (hdata : (Text.bytes (Json.escape p.data)).length = m)
    (hmetadata : (Text.bytes (Json.escape p.metadata)).length = n) :
    (Frame.requestResponse 1 p).body.utf8ByteSize = m + n + 77 := by
  have hsize : (Frame.requestResponse 1 p).body.utf8ByteSize =
      Wire.FrameKind.requestResponse.name.toList.length +
        Json.memberSize ("stream_id", Json.writeNat 1) +
          (Json.memberSize ("payload", Wire.writePayload p) + 0) + 11 :=
    Wire.utf8ByteSize_body _
  have hname : Wire.FrameKind.requestResponse.name.toList.length = 16 := rfl
  have hstream : Json.memberSize ("stream_id", Json.writeNat 1) = 14 := by
    have hkey : (Text.bytes (Json.escape "stream_id")).length = 9 :=
      Wire.length_escape_of_plain (by decide)
    rw [Json.memberSize_eq, hkey, Json.bytes_writeNat, List.length_map]
    rfl
  rw [Wire.memberSize_payload, hdata, hmetadata] at hsize
  omega

/-- The payload of the largest request that asks for an error. -/
def heavy : Payload where
  data := "error"
  metadata := String.ofList (List.replicate (Wire.maxBody - 82) 'a')

theorem utf8ByteSize_heavy : (Frame.requestResponse 1 heavy).body.utf8ByteSize = Wire.maxBody := by
  have hmetadata : (Text.bytes (Json.escape heavy.metadata)).length = Wire.maxBody - 82 := by
    have hescape : Json.escapeChar 'a' = ['a'] := by decide
    rw [heavy, Wire.length_escape_of_plain, String.toList_ofList, List.length_replicate]
    rw [String.toList_ofList, List.flatMap_replicate, hescape, List.flatten_replicate_singleton,
      List.flatMap_replicate, List.length_flatten, List.map_replicate, List.sum_replicate,
      List.length_replicate]
    exact Nat.mul_one _
  have hdata : (Text.bytes (Json.escape heavy.data)).length = 5 :=
    Wire.length_escape_of_plain (by decide)
  exact utf8ByteSize_requestResponse hdata hmetadata

/-- The largest request that asks for an error: the refusal repeats all of it, and fits. -/
theorem isServed_heavy :
    (∀ f ∈ [Frame.requestResponse 1 heavy], f.HasWordCount) ∧
      Wire.readFrames (Wire.writeFrames [.requestResponse 1 heavy] []).1 =
        ([.requestResponse 1 heavy], none) ∧
      replies [.requestResponse 1 heavy] = [.error 1 heavy.requestedError] ∧
      (Frame.error 1 heavy.requestedError).body.utf8ByteSize ≤ Wire.maxBody ∧
      GoesOn [.requestResponse 1 heavy] := by
  have hcounts : ∀ f ∈ [Frame.requestResponse 1 heavy], f.HasWordCount := by
    simp [Frame.HasWordCount]
  obtain ⟨hread, hserved⟩ := isServed_writeFrames hcounts
  have hall : (Wire.writeFrames [.requestResponse 1 heavy] []).2 = [.requestResponse 1 heavy] := by
    rw [Wire.accepted_eq, List.filter_cons_of_pos (by simpa using utf8ByteSize_heavy.le),
      List.filter_nil]
  rw [hall] at hread hserved
  have hreply : ((behind []).handle (.requestResponse 1 heavy)).2.1 =
      [.error 1 heavy.requestedError] := rfl
  have hsaid : replies [.requestResponse 1 heavy] = [.error 1 heavy.requestedError] :=
    (hserved.said [] _ [] rfl rfl).trans hreply
  refine ⟨hcounts, hread, hsaid, ?_, ?_⟩
  · exact hserved.fits _ (hsaid ▸ List.mem_cons_self)
  · exact (hserved.goesOn [.requestResponse 1 heavy] [] rfl).mpr (by simp)

end Responder
end StreamConformance
