import StreamConformance.Json.Reader
import StreamConformance.Wire.Frame

/-!
# Reading frames

`decode` reads the body of one frame, `readFrame` the next frame of a stream of bytes.

A body is an object with a member `type`, or an array whose first element is the type and
whose other elements are the fields in the order of declaration.  The type is judged as soon
as it is met; everything else is first read to the closing bracket and judged only then, so a
body that is no JSON is refused as such even if a field is missing too.

A stream of bytes may end between two frames, and also inside the length of a frame that
never came: `readFrame` reports both as an end.  Inside a body the end is a fault.
-/

namespace StreamConformance
namespace Wire

open Json (Bytes Read Value)

/-- The fields that a body gives to a frame. -/
inductive Fields where
  /-- Members of an object, in order; members that the frame does not know do not count. -/
  | named (members : List (String × Value))
  /-- Elements of an array, behind the type. -/
  | listed (elements : List Value)

/-- The values of the fields called `names`: each must be there once, and an array must hold
nothing else. -/
def Fields.values? (names : List String) : Fields → Option (List Value)
  | .named members =>
    names.mapM fun name =>
      match members.filter (·.1 == name) with
      | [(_, v)] => some v
      | _ => none
  | .listed elements => if elements.length == names.length then some elements else none

/-- The payload of a value: an object with data and metadata, or an array of the two. -/
def payload? (v : Value) : Option Payload :=
  let fields :=
    match v with
    | .object members => some (Fields.named members)
    | .array elements => some (Fields.listed elements)
    | _ => none
  match fields.bind (·.values? ["data", "metadata"]) with
  | some [data, metadata] =>
    match data.string?, metadata.string? with
    | some data, some metadata => some ⟨data, metadata⟩
    | _, _ => none
  | _ => none

/-- The stream of a value. -/
def stream? (v : Value) : Option UInt32 :=
  (v.natUpTo? 0xFFFFFFFF).map UInt32.ofNat

/-- The count of a value. -/
def count? (v : Value) : Option Nat :=
  v.natUpTo? Demand.limit

/-- A frame of a stream and a payload. -/
def payloadFrame? (make : UInt32 → Payload → Frame) (fields : Fields) : Option Frame :=
  match fields.values? ["stream_id", "payload"] with
  | some [s, p] =>
    match stream? s, payload? p with
    | some s, some p => some (make s p)
    | _, _ => none
  | _ => none

/-- A frame of a stream, an initial demand and a payload. -/
def demandFrame? (make : UInt32 → Nat → Payload → Frame) (fields : Fields) : Option Frame :=
  match fields.values? ["stream_id", "initial_n", "payload"] with
  | some [s, n, p] =>
    match stream? s, count? n, payload? p with
    | some s, some n, some p => some (make s n p)
    | _, _, _ => none
  | _ => none

/-- A frame of a stream alone. -/
def plainFrame? (make : UInt32 → Frame) (fields : Fields) : Option Frame :=
  match fields.values? ["stream_id"] with
  | some [s] => (stream? s).map make
  | _ => none

/-- The frame of a kind with some fields. -/
def Frame.ofFields? (fields : Fields) : FrameKind → Option Frame
  | .requestResponse => payloadFrame? .requestResponse fields
  | .requestStream => demandFrame? .requestStream fields
  | .requestSubscription => demandFrame? .requestSubscription fields
  | .fireAndForget => payloadFrame? .fireAndForget fields
  | .requestChannel => demandFrame? .requestChannel fields
  | .requestN =>
    match fields.values? ["stream_id", "n"] with
    | some [s, n] =>
      match stream? s, count? n with
      | some s, some n => some (.requestN s n)
      | _, _ => none
    | _ => none
  | .cancel => plainFrame? .cancel fields
  | .next => payloadFrame? .next fields
  | .complete => plainFrame? .complete fields
  | .error =>
    match fields.values? ["stream_id", "message"] with
    | some [s, m] =>
      match stream? s, m.string? with
      | some s, some m => some (.error s m)
      | _, _ => none
    | _ => none

/-- Read the name of a kind. -/
def readKind (s : Bytes) : Read FrameKind :=
  match Json.readExpectedString s with
  | .error e => .error e
  | .ok (name, s) =>
    match FrameKind.ofName? name with
    | some kind => .ok (kind, s)
    | none => .error .mismatched

/-- What was read of a body that is an object: its type, and its other members in reverse. -/
structure Members where
  kind : Option FrameKind := none
  reversed : List (String × Value) := []

/-- How one member of a body is read.  A second type is refused at its key. -/
def readMember (fuel : Nat) : Json.MemberReader Members := fun key m =>
  if key == "type" then
    if m.kind.isSome then .error .mismatched
    else .ok fun s => (readKind s).map fun r => ({ m with kind := some r.1 }, r.2)
  else
    .ok fun s =>
      (Json.readValue fuel (Json.maxDepth - 1) s).map fun r =>
        ({ m with reversed := (key, r.1) :: m.reversed }, r.2)

/-- Read the kind and the fields of a body. -/
def readTagged (fuel : Nat) (s : Bytes) : Read (FrameKind × Fields) :=
  match Json.skipSpace s with
  | [] => .error .truncated
  | b :: s =>
    if b == 0x7B then
      match Json.readMembers (readMember fuel) fuel true {} s with
      | .error e => .error e
      | .ok (m, s) =>
        match m.kind with
        | none => .error .mismatched
        | some kind => .ok ((kind, .named m.reversed.reverse), s)
    else if b == 0x5B then
      match Json.nextItem 0x5D true s with
      | .error e => .error e
      | .ok (.closed _) => .error .mismatched
      | .ok (.item b s) =>
        match readKind (b :: s) with
        | .error e => .error e
        | .ok (kind, s) =>
          (Json.readElements (Json.readValue fuel (Json.maxDepth - 1)) fuel false [] s).map
            fun r => ((kind, .listed r.1), r.2)
    else
      match Json.readScalar b s with
      | .error e => .error e
      | .ok _ => .error .mismatched

/-- The frame of a body. -/
def decode (body : Bytes) : Except Json.Fault Frame :=
  Json.finish <|
    match readTagged (Json.fuelFor body) body with
    | .error e => .error e
    | .ok ((kind, fields), s) =>
      match Frame.ofFields? fields kind with
      | some f => .ok (f, s)
      | none => .error .mismatched

/-- What is found at the front of a stream of bytes. -/
inductive Reading where
  /-- A frame, and the bytes behind it. -/
  | frame (f : Frame) (rest : Bytes)
  /-- The end of the stream. -/
  | ended
  | failed (fault : Fault)

/-- The text for a stream that ends inside a body. -/
def shortRead : String := "failed to fill whole buffer"

/-- The length that four bytes stand for, most significant first. -/
def lengthOf (a b c d : UInt8) : Nat :=
  ((a.toNat * 256 + b.toNat) * 256 + c.toNat) * 256 + d.toNat

/-- Read the next frame of a stream of bytes. -/
def readFrame : Bytes → Reading
  | a :: b :: c :: d :: s =>
    let size := lengthOf a b c d
    let body := s.take size
    if size > maxBody then .failed (.frameTooLarge size)
    else if body.length < size then .failed (.broken shortRead)
    else
      match decode body with
      | .ok f => .frame f (s.drop size)
      | .error cause => .failed (.codec cause)
  | _ => .ended

/-- Whether bytes that are to be continued are too few to tell what is at their front. -/
def needsMore : Bytes → Bool
  | a :: b :: c :: d :: s =>
    lengthOf a b c d ≤ maxBody && (s.take (lengthOf a b c d)).length < lengthOf a b c d
  | _ => true

/-- What is left behind a frame is shorter than the stream. -/
theorem length_of_readFrame {s rest : Bytes} {f : Frame} (h : readFrame s = .frame f rest) :
    rest.length < s.length := by
  unfold readFrame at h
  split at h
  · simp only at h
    split at h
    · cases h
    · split at h
      · cases h
      · split at h
        · cases h
          simp only [List.length_drop, List.length_cons]
          omega
        · cases h
  · cases h

/-- All frames of a stream of bytes, and the fault that ends it if it does not end well. -/
def readFrames (s : Bytes) : List Frame × Option Fault :=
  match _h : readFrame s with
  | .ended => ([], none)
  | .failed fault => ([], some fault)
  | .frame f rest =>
    match readFrames rest with
    | (fs, fault) => (f :: fs, fault)
termination_by s.length
decreasing_by exact length_of_readFrame _h

/-- The frames that are complete at the front of bytes that are to be continued, and the bytes
behind them, or the fault of what stands there. -/
def readComplete (s : Bytes) : List Frame × Except Fault Bytes :=
  if needsMore s then ([], .ok s)
  else
    match _h : readFrame s with
    | .ended => ([], .ok s)
    | .failed fault => ([], .error fault)
    | .frame f rest =>
      match readComplete rest with
      | (fs, left) => (f :: fs, left)
termination_by s.length
decreasing_by exact length_of_readFrame _h

end Wire
end StreamConformance
