import StreamConformance.Proofs.Json.RoundTrip
import StreamConformance.Wire.Reader

/-!
# The body of a frame

The body of a frame is read as that frame (`decode_body`), if its count is one of 64 bits, as all
counts on the wire are (`Frame.HasWordCount`).

The fields of a frame are `Frame.members`, each as it is written and as it is read; so the text of
a body and the fields that a reader finds in it are two views of one list.
-/

namespace StreamConformance
namespace Wire

open Json (Bytes Member ReadsAs Takes TakesAll Value)
open Text (bytes)

/-- The count of a frame, if there is one, has at most 64 bits. -/
def Frame.HasWordCount : Frame → Prop
  | .requestStream _ n _ => n ≤ Demand.limit
  | .requestSubscription _ n _ => n ≤ Demand.limit
  | .requestChannel _ n _ => n ≤ Demand.limit
  | .requestN _ n => n ≤ Demand.limit
  | .requestResponse .. => True
  | .fireAndForget .. => True
  | .cancel .. => True
  | .next .. => True
  | .complete .. => True
  | .error .. => True

instance : DecidablePred Frame.HasWordCount := fun f =>
  match f with
  | .requestStream _ n _ => inferInstanceAs (Decidable (n ≤ Demand.limit))
  | .requestSubscription _ n _ => inferInstanceAs (Decidable (n ≤ Demand.limit))
  | .requestChannel _ n _ => inferInstanceAs (Decidable (n ≤ Demand.limit))
  | .requestN _ n => inferInstanceAs (Decidable (n ≤ Demand.limit))
  | .requestResponse .. => isTrue trivial
  | .fireAndForget .. => isTrue trivial
  | .cancel .. => isTrue trivial
  | .next .. => isTrue trivial
  | .complete .. => isTrue trivial
  | .error .. => isTrue trivial

/-! ## The fields of a frame -/

/-- A field that is a number. -/
def natMember (key : String) (n : Nat) : Member where
  key := key
  text := Json.writeNat n
  value := .number (.integer n)

/-- A field that is a string. -/
def stringMember (key s : String) : Member where
  key := key
  text := Json.writeString s
  value := .string s

/-- The payload of a frame. -/
def payloadMember (p : Payload) : Member where
  key := "payload"
  text := writePayload p
  value := .object [("data", .string p.data), ("metadata", .string p.metadata)]

/-- The fields of a frame behind its type. -/
def Frame.members (f : Frame) : List Member :=
  natMember "stream_id" f.stream.toNat ::
    match f with
    | .requestResponse _ p => [payloadMember p]
    | .requestStream _ n p => [natMember "initial_n" n, payloadMember p]
    | .requestSubscription _ n p => [natMember "initial_n" n, payloadMember p]
    | .fireAndForget _ p => [payloadMember p]
    | .requestChannel _ n p => [natMember "initial_n" n, payloadMember p]
    | .requestN _ n => [natMember "n" n]
    | .cancel _ => []
    | .next _ p => [payloadMember p]
    | .complete _ => []
    | .error _ m => [stringMember "message" m]

theorem body_eq (f : Frame) :
    f.body = Json.writeObject
      (("type", Json.writeString f.kind.name) :: f.members.map Member.written) := by
  cases f <;> rfl

theorem readsAs_payloadMember (p : Payload) :
    ReadsAs 5 (payloadMember p).text (payloadMember p).value := by
  have h : ∀ m ∈ [stringMember "data" p.data, stringMember "metadata" p.metadata],
      ReadsAs 1 m.text m.value := by
    intro m hm
    simp only [List.mem_cons, List.not_mem_nil, or_false] at hm
    rcases hm with rfl | rfl <;> exact Json.readsAs_writeString _
  exact Json.readsAs_writeObject h

theorem readsAs_natMember (key : String) {n : Nat} (hn : n ≤ Demand.limit) :
    ReadsAs 5 (natMember key n).text (natMember key n).value :=
  (Json.readsAs_writeNat (Nat.lt_succ_of_le hn)).mono (by decide)

theorem readsAs_stringMember (key s : String) :
    ReadsAs 5 (stringMember key s).text (stringMember key s).value :=
  (Json.readsAs_writeString s).mono (by decide)

/-- Every field of a frame is read as it is meant. -/
theorem readsAs_members {f : Frame} (h : f.HasWordCount) :
    ∀ m ∈ f.members, ReadsAs 5 m.text m.value := by
  have hstream : f.stream.toNat ≤ Demand.limit :=
    Nat.le_of_lt (Nat.lt_trans f.stream.toNat_lt (by decide))
  intro m hm
  rcases List.mem_cons.mp hm with rfl | hm
  · exact readsAs_natMember _ hstream
  · cases f with
    | requestStream _ n p | requestSubscription _ n p | requestChannel _ n p =>
      simp only [List.mem_cons, List.not_mem_nil, or_false] at hm
      rcases hm with rfl | rfl
      · exact readsAs_natMember _ h
      · exact readsAs_payloadMember p
    | requestResponse _ p | fireAndForget _ p | next _ p =>
      obtain rfl := List.mem_singleton.mp hm
      exact readsAs_payloadMember p
    | requestN _ n =>
      obtain rfl := List.mem_singleton.mp hm
      exact readsAs_natMember _ h
    | error _ s =>
      obtain rfl := List.mem_singleton.mp hm
      exact readsAs_stringMember _ s
    | cancel | complete => cases hm

/-! ## From the fields to the frame -/

theorem ofName?_name (kind : FrameKind) : FrameKind.ofName? kind.name = some kind := by
  cases kind <;> decide

theorem stream?_read (s : UInt32) : stream? (.number (.integer s.toNat)) = some s := by
  have hle : s.toNat ≤ 0xFFFFFFFF := Nat.le_of_lt_succ s.toNat_lt
  simp [stream?, Value.natUpTo?, hle]

theorem count?_read {n : Nat} (h : n ≤ Demand.limit) :
    count? (.number (.integer n)) = some n := by
  simp [count?, Value.natUpTo?, h]

theorem payload?_read (p : Payload) : payload? (payloadMember p).value = some p := by
  rfl

theorem payloadFrame?_read (make : UInt32 → Payload → Frame) (s : UInt32) (p : Payload) :
    payloadFrame? make
      (.named ([natMember "stream_id" s.toNat, payloadMember p].map Member.read)) =
        some (make s p) := by
  have hvalues : (Fields.named ([natMember "stream_id" s.toNat, payloadMember p].map
      Member.read)).values? ["stream_id", "payload"] =
      some [.number (.integer s.toNat), (payloadMember p).value] := rfl
  simp only [payloadFrame?, hvalues, stream?_read, payload?_read]

theorem demandFrame?_read (make : UInt32 → Nat → Payload → Frame) (s : UInt32) {n : Nat}
    (hn : n ≤ Demand.limit) (p : Payload) :
    demandFrame? make (.named
      ([natMember "stream_id" s.toNat, natMember "initial_n" n, payloadMember p].map
        Member.read)) = some (make s n p) := by
  have hvalues : (Fields.named ([natMember "stream_id" s.toNat, natMember "initial_n" n,
      payloadMember p].map Member.read)).values? ["stream_id", "initial_n", "payload"] =
      some [.number (.integer s.toNat), .number (.integer n), (payloadMember p).value] := rfl
  simp only [demandFrame?, hvalues, stream?_read, count?_read hn, payload?_read]

theorem plainFrame?_read (make : UInt32 → Frame) (s : UInt32) :
    plainFrame? make (.named ([natMember "stream_id" s.toNat].map Member.read)) =
      some (make s) := by
  have hvalues : (Fields.named ([natMember "stream_id" s.toNat].map Member.read)).values?
      ["stream_id"] = some [.number (.integer s.toNat)] := rfl
  simp only [plainFrame?, hvalues, stream?_read, Option.map_some]

/-- The fields of a frame make up that frame. -/
theorem ofFields?_members {f : Frame} (h : f.HasWordCount) :
    Frame.ofFields? (.named (f.members.map Member.read)) f.kind = some f := by
  cases f with
  | requestResponse s p | fireAndForget s p | next s p => exact payloadFrame?_read _ s p
  | requestStream s n p | requestSubscription s n p | requestChannel s n p =>
    exact demandFrame?_read _ s h p
  | cancel s | complete s => exact plainFrame?_read _ s
  | requestN s n =>
    have hvalues : (Fields.named ([natMember "stream_id" s.toNat, natMember "n" n].map
        Member.read)).values? ["stream_id", "n"] =
        some [.number (.integer s.toNat), .number (.integer n)] := rfl
    have hfields : (Frame.requestN s n).members =
        [natMember "stream_id" s.toNat, natMember "n" n] := rfl
    simp only [Frame.kind, Frame.ofFields?, hfields, hvalues, stream?_read, count?_read h]
  | error s m =>
    have hvalues : (Fields.named ([natMember "stream_id" s.toNat, stringMember "message" m].map
        Member.read)).values? ["stream_id", "message"] =
        some [.number (.integer s.toNat), .string m] := rfl
    have hfields : (Frame.error s m).members =
        [natMember "stream_id" s.toNat, stringMember "message" m] := rfl
    simp only [Frame.kind, Frame.ofFields?, hfields, hvalues, stream?_read, Value.string?]

/-! ## Reading a body -/

/-- A field behind the type is kept. -/
theorem takesAll_readMember {fuel : Nat} (hfuel : 5 ≤ fuel) {members : List Member}
    (h : ∀ m ∈ members, m.key ≠ "type" ∧ ReadsAs 5 m.text m.value) (acc : Members) :
    TakesAll (readMember fuel) (members.map Member.written) acc
      { acc with reversed := (members.map Member.read).reverse ++ acc.reversed } := by
  induction members generalizing acc with
  | nil => exact .nil acc
  | cons m members ih =>
    obtain ⟨hkey, hm⟩ := h m List.mem_cons_self
    have htail := ih (fun m' hm' => h m' (List.mem_cons_of_mem _ hm'))
      { acc with reversed := m.read :: acc.reversed }
    rw [List.map_cons, List.map_cons, List.reverse_cons, List.append_assoc]
    refine .cons ⟨_, if_neg (by simpa [Member.written] using hkey), fun rest hrest => ?_⟩ htail
    simp only [Member.written, hm fuel (Json.maxDepth - 1) rest hfuel (by decide) hrest]
    rfl

/-- The type of a frame is read as its kind. -/
theorem takes_type (fuel : Nat) (kind : FrameKind) :
    Takes (readMember fuel) ("type", Json.writeString kind.name) {} { kind := some kind } := by
  refine ⟨_, rfl, fun rest _ => ?_⟩
  have hread : Json.readExpectedString (bytes (Json.writeString kind.name) ++ rest) =
      .ok (kind.name, rest) := by
    rw [Json.bytes_writeString, List.cons_append, List.append_assoc, List.singleton_append,
      Json.readExpectedString, Json.skipSpace_of_not_isSpace rfl]
    simp only [Json.readScalar_writeString]
    rfl
  simp only [readKind, hread, ofName?_name]
  rfl

theorem key_members (f : Frame) : ∀ m ∈ f.members, m.key ≠ "type" := by
  cases f <;> simp [Frame.members, natMember, stringMember, payloadMember]

theorem length_members (f : Frame) : f.members.length ≤ 3 := by
  cases f <;> simp [Frame.members]

/-- The type and the fields of a body are found in it. -/
theorem readTagged_body {f : Frame} (h : f.HasWordCount) {fuel : Nat} (hfuel : 5 ≤ fuel) :
    readTagged fuel (bytes f.body) = .ok ((f.kind, .named (f.members.map Member.read)), []) := by
  have htail := takesAll_readMember hfuel
    (fun m hm => ⟨key_members f m hm, readsAs_members h m hm⟩) { kind := some f.kind }
  have hlength : (("type", Json.writeString f.kind.name) ::
      f.members.map Member.written).length < fuel := by
    have := length_members f
    rw [List.length_cons, List.length_map]
    omega
  obtain ⟨s, hs, hread⟩ :=
    Json.readMembers_writeObject (.cons (takes_type fuel f.kind) htail) hlength []
  rw [List.append_nil, ← body_eq] at hs
  rw [hs, readTagged, Json.skipSpace_of_not_isSpace rfl]
  simp only [hread, List.append_nil, List.reverse_reverse]
  rfl

/-- **The body of a frame is read as that frame.** -/
theorem decode_body {f : Frame} (h : f.HasWordCount) : decode (bytes f.body) = .ok f := by
  have hfuel : 5 ≤ Json.fuelFor (bytes f.body) := by
    rw [body_eq, Json.bytes_writeObject, Json.fuelFor]
    simp only [List.length_cons, List.length_append]
    omega
  rw [decode, readTagged_body h hfuel]
  simp only [ofFields?_members h]
  rfl

end Wire
end StreamConformance
