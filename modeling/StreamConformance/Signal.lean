/-!
# Payloads and signals

Two parties talk about a stream of items.  The producer sends `Signal`s: items and, at the
end, one completion or error.  The consumer sends `Ask`s: demand for more items, or a
cancellation.  Items of the protocol are `Payload`s, a pair of texts.

Demand is an amount of at most 64 bits; adding to it stops at the largest amount.
-/

namespace StreamConformance

/-- Application data and metadata. -/
structure Payload where
  data : String
  metadata : String
  deriving DecidableEq

/-- Data and metadata of the payload that asks a peer to drop what it keeps for a connection. -/
def Payload.shutdownWord : String := "shutdown"

/-- The payload that asks a peer to drop what it keeps for a connection. -/
def Payload.shutdown : Payload := ⟨shutdownWord, shutdownWord⟩

/-- Only the payload with the reserved word in both places is the shutdown payload. -/
def Payload.isShutdown (p : Payload) : Bool :=
  p.data == shutdownWord && p.metadata == shutdownWord

/-- How a payload is shown in messages. -/
def Payload.text (p : Payload) : String :=
  "(" ++ p.data ++ ", " ++ p.metadata ++ ")"

/-- The data that asks a peer to answer with an error. -/
def Payload.errorTrigger : String := "error"

/-- Whether a payload asks for an error. -/
def Payload.asksForError (p : Payload) : Bool :=
  p.data == errorTrigger

/-- The message of an error that was asked for. -/
def Payload.requestedError (p : Payload) : String :=
  "requested error for " ++ p.text

/-- What a producer tells its consumer. -/
inductive Signal (ι : Type) where
  | next (item : ι)
  | complete
  | error (message : String)
  deriving DecidableEq

/-- Completion and errors end a stream; items do not. -/
def Signal.isTerminal {ι : Type} : Signal ι → Bool
  | .next _ => false
  | .complete => true
  | .error _ => true

/-- What a consumer tells its producer. -/
inductive Ask where
  | request (n : Nat)
  | cancel
  deriving DecidableEq

namespace Demand

/-- The largest amount of demand. -/
def limit : Nat := 0xFFFFFFFFFFFFFFFF

/-- Add demand; the sum stops at the limit. -/
def add (held granted : Nat) : Nat :=
  min (held + granted) limit

theorem add_eq {held granted : Nat} (h : held + granted ≤ limit) :
    add held granted = held + granted :=
  Nat.min_eq_left h

theorem add_le (held granted : Nat) : add held granted ≤ held + granted :=
  Nat.min_le_left _ _

theorem add_le_limit (held granted : Nat) : add held granted ≤ limit :=
  Nat.min_le_right _ _

end Demand

end StreamConformance
