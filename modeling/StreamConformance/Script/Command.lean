import StreamConformance.Signal

/-!
# Commands of a test

An `Instruction` is what a single line of a test asks for.  A `Command` is an instruction or
a channel with its block of instructions; blocks do not nest, so the block of a channel holds
instructions only.  A line that cannot be understood is an instruction as well: what it does
is decided when its turn comes.
-/

namespace StreamConformance
namespace Script

/-- The interactions that a `subscribe` line opens. -/
inductive InteractionKind where
  | requestResponse
  | requestStream
  | requestSubscription
  | fireAndForget
  deriving DecidableEq

/-- The kind that a script names by its token. -/
def InteractionKind.ofToken? (token : String) : Option InteractionKind :=
  if token == "rr" then some .requestResponse
  else if token == "rs" then some .requestStream
  else if token == "sub" then some .requestSubscription
  else if token == "fnf" then some .fireAndForget
  else none

/-- The token by which scripts name a kind. -/
def InteractionKind.token : InteractionKind → String
  | .requestResponse => "rr"
  | .requestStream => "rs"
  | .requestSubscription => "sub"
  | .fireAndForget => "fnf"

@[simp] theorem InteractionKind.ofToken?_token (k : InteractionKind) :
    ofToken? k.token = some k := by
  cases k <;> rfl

/-- The long name of a kind. -/
def InteractionKind.name : InteractionKind → String
  | .requestResponse => "request-response"
  | .requestStream => "request-stream"
  | .requestSubscription => "request-subscription"
  | .fireAndForget => "fire-and-forget"

/-- What an `await` line waits for. -/
inductive Wait where
  /-- The end of the stream. -/
  | terminal
  /-- So many items in total. -/
  | atLeast (n : Nat)
  /-- The end of a window, in milliseconds, during which nothing should arrive. -/
  | noEvents (window : Nat)
  deriving DecidableEq

/-- What an `assert` line asserts of a consumer. -/
inductive Check where
  | noError
  | error
  | completed
  | notCompleted
  | canceled
  | received (payloads : List Payload)
  | receivedCount (n : Nat)
  | receivedAtLeast (n : Nat)
  deriving DecidableEq

/-- What one line of a test asks for. -/
inductive Instruction where
  | subscribe (kind : InteractionKind) (id : String) (payload : Payload)
  | echoChannel (initial : Payload)
  | await (id : String) (wait : Wait)
  | assert (id : String) (check : Check)
  | take (n : Nat) (id : String)
  | request (n : Nat) (id : String)
  | cancel (id : String)
  | respond (signals : List (Signal Payload))
  /-- Tell the peer to drop what it keeps for the connection. -/
  | eof
  /-- Expect the assertions to hold. -/
  | pass
  /-- Expect an assertion to fail. -/
  | fail
  /-- A line with an unknown keyword; it does nothing. -/
  | unknown (line : String)
  | malformed (line reason : String)
  deriving DecidableEq

/-- An instruction, or a channel with the block of instructions that runs on it. -/
inductive Command where
  | single (instruction : Instruction)
  | channel (initial : Payload) (block : List Instruction)
  deriving DecidableEq

end Script
end StreamConformance
