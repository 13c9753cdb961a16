/-!
# Routes of a connection

The route table says, for each stream of a connection, where frames that arrive for it go:
answers to the consumer of an interaction, and what concerns the items sent to the link of a
channel.  An entry disappears with its second half.
-/

namespace StreamConformance
namespace Client

/-- Where the frames of a stream go. -/
structure Route where
  /-- The interaction whose consumer gets the answers. -/
  inbound : Option Nat := none
  /-- The stream object whose link gets what concerns the items sent. -/
  outbound : Option Nat := none
  deriving DecidableEq

/-- Nothing goes along the route any more. -/
def Route.isEmpty (r : Route) : Bool :=
  r.inbound.isNone && r.outbound.isNone

/-- The routes of a connection by their streams, the latest first. -/
structure Routes where
  entries : List (UInt32 × Route) := []
  deriving DecidableEq

namespace Routes

/-- The route of a stream. -/
def find? (stream : UInt32) (t : Routes) : Option Route :=
  (t.entries.find? (·.1 == stream)).map Prod.snd

/-- Forget the route of a stream. -/
def erase (stream : UInt32) (t : Routes) : Routes :=
  { entries := t.entries.filter (·.1 != stream) }

/-- Enter the route of a stream in place of any before. -/
def insert (stream : UInt32) (r : Route) (t : Routes) : Routes :=
  { entries := (stream, r) :: (t.erase stream).entries }

/-- Enter the route of a stream unless it is empty, in place of any before. -/
def put (stream : UInt32) (r : Route) (t : Routes) : Routes :=
  if r.isEmpty then t.erase stream else t.insert stream r

/-- Take the consumer of a stream out of the table. -/
def takeInbound (stream : UInt32) (t : Routes) : Routes × Option Nat :=
  match t.find? stream with
  | none => (t, none)
  | some r => (t.put stream { r with inbound := none }, r.inbound)

/-- Take the link of a stream out of the table. -/
def takeOutbound (stream : UInt32) (t : Routes) : Routes × Option Nat :=
  match t.find? stream with
  | none => (t, none)
  | some r => (t.put stream { r with outbound := none }, r.outbound)

end Routes
end Client
end StreamConformance
