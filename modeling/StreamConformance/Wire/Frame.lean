import StreamConformance.Fault
import StreamConformance.Json.Printer
import StreamConformance.Signal

/-!
# Frames

A connection carries frames in both directions, each belonging to one of its streams.  On the
wire a frame is a length of four bytes, most significant first, and a body of that many
bytes: a JSON object whose member `type` names the kind of frame and comes first, followed by
the fields in the order in which they are declared.  A body is at most `maxBody` bytes long.
-/

namespace StreamConformance
namespace Wire

/-- A message about one stream of a connection. -/
inductive Frame where
  | requestResponse (stream : UInt32) (payload : Payload)
  | requestStream (stream : UInt32) (initial : Nat) (payload : Payload)
  | requestSubscription (stream : UInt32) (initial : Nat) (payload : Payload)
  | fireAndForget (stream : UInt32) (payload : Payload)
  /-- Opens a channel; the payload is the first item of the party that opens it. -/
  | requestChannel (stream : UInt32) (initial : Nat) (payload : Payload)
  | requestN (stream : UInt32) (n : Nat)
  | cancel (stream : UInt32)
  | next (stream : UInt32) (payload : Payload)
  | complete (stream : UInt32)
  | error (stream : UInt32) (message : String)
  deriving DecidableEq

/-- The kinds of frames. -/
inductive FrameKind where
  | requestResponse
  | requestStream
  | requestSubscription
  | fireAndForget
  | requestChannel
  | requestN
  | cancel
  | next
  | complete
  | error
  deriving DecidableEq

/-- The value of a frame's member `type`. -/
def FrameKind.name : FrameKind → String
  | .requestResponse => "request_response"
  | .requestStream => "request_stream"
  | .requestSubscription => "request_subscription"
  | .fireAndForget => "fire_and_forget"
  | .requestChannel => "request_channel"
  | .requestN => "request_n"
  | .cancel => "cancel"
  | .next => "next"
  | .complete => "complete"
  | .error => "error"

/-- All kinds of frames. -/
def FrameKind.all : List FrameKind :=
  [.requestResponse, .requestStream, .requestSubscription, .fireAndForget, .requestChannel,
    .requestN, .cancel, .next, .complete, .error]

/-- The kind with a name. -/
def FrameKind.ofName? (name : String) : Option FrameKind :=
  FrameKind.all.find? (·.name == name)

/-- The largest body of a frame, in bytes. -/
def maxBody : Nat := 16 * 1024 * 1024

/-- The stream that a frame belongs to. -/
def Frame.stream : Frame → UInt32
  | .requestResponse s _ => s
  | .requestStream s _ _ => s
  | .requestSubscription s _ _ => s
  | .fireAndForget s _ => s
  | .requestChannel s _ _ => s
  | .requestN s _ => s
  | .cancel s => s
  | .next s _ => s
  | .complete s => s
  | .error s _ => s

/-- The kind of a frame. -/
def Frame.kind : Frame → FrameKind
  | .requestResponse .. => .requestResponse
  | .requestStream .. => .requestStream
  | .requestSubscription .. => .requestSubscription
  | .fireAndForget .. => .fireAndForget
  | .requestChannel .. => .requestChannel
  | .requestN .. => .requestN
  | .cancel .. => .cancel
  | .next .. => .next
  | .complete .. => .complete
  | .error .. => .error

/-- The payload of a frame, if it carries one. -/
def Frame.payload? : Frame → Option Payload
  | .requestResponse _ p => some p
  | .requestStream _ _ p => some p
  | .requestSubscription _ _ p => some p
  | .fireAndForget _ p => some p
  | .requestChannel _ _ p => some p
  | .next _ p => some p
  | .requestN .. => none
  | .cancel .. => none
  | .complete .. => none
  | .error .. => none

/-- A payload inside a body. -/
def writePayload (p : Payload) : String :=
  Json.writeObject [("data", Json.writeString p.data), ("metadata", Json.writeString p.metadata)]

/-- The fields of a frame behind its type and stream, written. -/
def Frame.fields : Frame → List (String × String)
  | .requestResponse _ p => [("payload", writePayload p)]
  | .requestStream _ n p => [("initial_n", Json.writeNat n), ("payload", writePayload p)]
  | .requestSubscription _ n p => [("initial_n", Json.writeNat n), ("payload", writePayload p)]
  | .fireAndForget _ p => [("payload", writePayload p)]
  | .requestChannel _ n p => [("initial_n", Json.writeNat n), ("payload", writePayload p)]
  | .requestN _ n => [("n", Json.writeNat n)]
  | .cancel _ => []
  | .next _ p => [("payload", writePayload p)]
  | .complete _ => []
  | .error _ m => [("message", Json.writeString m)]

/-- The body of a frame. -/
def Frame.body (f : Frame) : String :=
  Json.writeObject <|
    ("type", Json.writeString f.kind.name) ::
      ("stream_id", Json.writeNat f.stream.toNat) :: f.fields

/-- A length as four bytes, most significant first. -/
def lengthPrefix (n : Nat) : List UInt8 :=
  [UInt8.ofNat (n / 0x1000000), UInt8.ofNat (n / 0x10000), UInt8.ofNat (n / 0x100), UInt8.ofNat n]

/-- The bytes of a body on the wire, with its length in front, if it is not too large. -/
def frameBytes (body : String) : Except Fault ByteArray :=
  if body.utf8ByteSize > maxBody then .error (.frameTooLarge body.utf8ByteSize)
  else .ok ((lengthPrefix body.utf8ByteSize).toByteArray ++ body.toUTF8)

/-- The bytes of a frame on the wire. -/
def Frame.encode (f : Frame) : Except Fault ByteArray :=
  frameBytes f.body

end Wire
end StreamConformance
