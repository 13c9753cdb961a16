import Mathlib.Data.List.Induction
import StreamConformance.Proofs.Trial.Session

/-!
# What the commands of a test say

Which interactions a list of commands opens, which of them are subscriptions and which have a
block, and what is expected of them can be read off the commands alone.  The interactions are
numbered in the order in which they are opened, from a number `base` on.

* `IsSubscription`, `IsBlock`: the interactions that count, by their numbers.
* `Lawful`: the result that commands call for.
* `Fails`: how a command may end a test.
-/

namespace StreamConformance
namespace Script

/-- What an instruction says about the assertions to come. -/
def Instruction.flag? : Instruction → Option Bool
  | .pass => some true
  | .fail => some false
  | _ => none

/-- An instruction that connects, and opens an interaction. -/
def Instruction.opens : Instruction → Bool
  | .subscribe .. => true
  | .echoChannel _ => true
  | .eof => true
  | _ => false

namespace Command

def flag? : Command → Option Bool
  | .single c => c.flag?
  | .channel .. => none

def opens : Command → Bool
  | .single c => c.opens
  | .channel .. => true

def subscribes : Command → Bool
  | .single (.subscribe ..) => true
  | _ => false

def runsChannel : Command → Bool
  | .single (.echoChannel _) => true
  | .single _ => false
  | .channel .. => true

def isMalformed : Command → Bool
  | .single (.malformed ..) => true
  | _ => false

/-- An instruction that opens nothing counts for nothing. -/
theorem not_counts_of_not_opens {c : Instruction} (h : c.opens = false) :
    (single c).subscribes = false ∧ (single c).runsChannel = false := by
  cases c with
  | subscribe | echoChannel | eof => cases h
  | await | assert | take | request | cancel | respond | pass | fail | unknown | malformed =>
    exact ⟨rfl, rfl⟩

end Command

variable {base i : Nat} {flag : Bool} {c : Command} {cs : List Command}

/-- How many interactions commands open. -/
def opened (cs : List Command) : Nat :=
  cs.countP Command.opens

/-- Whether assertions are expected to hold, as the last word on that has it. -/
def expectation (cs : List Command) : Bool :=
  ((cs.filterMap Command.flag?).getLast?).getD true

/-- The same for a block, where `flag` was expected before. -/
def blockExpectation (flag : Bool) (block : List Instruction) : Bool :=
  ((block.filterMap Instruction.flag?).getLast?).getD flag

/-- Something is true of a command and of those before it. -/
def Occurs (P : List Command → Command → Prop) (cs : List Command) : Prop :=
  ∃ pre c post, cs = pre ++ c :: post ∧ P pre c

/-- The interaction `i` is opened by a subscription. -/
def IsSubscription (base : Nat) (cs : List Command) (i : Nat) : Prop :=
  Occurs (fun pre c => c.subscribes = true ∧ i = base + opened pre) cs

/-- The interaction `i` is a channel with a block, at whose end `flag` is expected. -/
def IsBlock (base : Nat) (cs : List Command) (i : Nat) (flag : Bool) : Prop :=
  Occurs (fun pre c => ∃ initial block, c = .channel initial block ∧ i = base + opened pre ∧
    flag = blockExpectation (expectation pre) block) cs

/-! ## One command more -/

theorem getLast?_filterMap_concat {α β : Type} (f : α → Option β) (l : List α) (a : α) (b : β) :
    (((l ++ [a]).filterMap f).getLast?).getD b = (f a).getD (((l.filterMap f).getLast?).getD b) := by
  rw [List.filterMap_append]
  cases h : f a <;> simp [h]

theorem expectation_concat (cs : List Command) (c : Command) :
    expectation (cs ++ [c]) = c.flag?.getD (expectation cs) :=
  getLast?_filterMap_concat ..

theorem blockExpectation_concat (flag : Bool) (block : List Instruction) (c : Instruction) :
    blockExpectation flag (block ++ [c]) = c.flag?.getD (blockExpectation flag block) :=
  getLast?_filterMap_concat ..

theorem opened_concat (cs : List Command) (c : Command) :
    opened (cs ++ [c]) = opened cs + if c.opens then 1 else 0 := by
  rw [opened, List.countP_append, List.countP_singleton, opened]

theorem occurs_concat {P : List Command → Command → Prop} :
    Occurs P (cs ++ [c]) ↔ Occurs P cs ∨ P cs c := by
  constructor
  · rintro ⟨pre, x, post, heq, hx⟩
    rcases List.eq_nil_or_concat post with rfl | ⟨post, y, rfl⟩
    · obtain ⟨rfl, hc⟩ := List.append_inj' heq rfl
      obtain rfl := (List.cons.inj hc).1
      exact Or.inr hx
    · rw [List.concat_eq_append, ← List.cons_append, ← List.append_assoc] at heq
      obtain ⟨rfl, -⟩ := List.append_inj' heq rfl
      exact Or.inl ⟨pre, x, post, rfl, hx⟩
  · rintro (⟨pre, x, post, rfl, hx⟩ | hc)
    · exact ⟨pre, x, post ++ [c], by simp, hx⟩
    · exact ⟨cs, c, [], rfl, hc⟩

theorem not_occurs_nil (P : List Command → Command → Prop) : ¬Occurs P [] := by
  rintro ⟨pre, c, post, heq, -⟩
  simp at heq

/-- What a command opens has a number below those that are opened later. -/
theorem lt_of_occurs {P : List Command → Command → Prop}
    (hP : ∀ pre c, P pre c → c.opens = true ∧ i = base + opened pre) (h : Occurs P cs) :
    i < base + opened cs := by
  obtain ⟨pre, c, post, rfl, hc⟩ := h
  obtain ⟨hopens, rfl⟩ := hP pre c hc
  have hcount : opened (pre ++ c :: post) = opened pre + (opened post + 1) := by
    rw [opened, List.countP_append, List.countP_cons_of_pos hopens]
    rfl
  omega

theorem IsSubscription.lt (h : IsSubscription base cs i) : i < base + opened cs := by
  refine lt_of_occurs (fun pre c hc => ⟨?_, hc.2⟩) h
  rcases c with ⟨_ | _ | _⟩ | _ <;> simp_all [Command.subscribes, Command.opens, Instruction.opens]

theorem IsBlock.lt (h : IsBlock base cs i flag) : i < base + opened cs := by
  refine lt_of_occurs (fun pre c hc => ?_) h
  obtain ⟨initial, block, rfl, hi, -⟩ := hc
  exact ⟨rfl, hi⟩

theorem isSubscription_concat : IsSubscription base (cs ++ [c]) i ↔
    IsSubscription base cs i ∨ c.subscribes = true ∧ i = base + opened cs :=
  occurs_concat

theorem isBlock_concat : IsBlock base (cs ++ [c]) i flag ↔ IsBlock base cs i flag ∨
    ∃ initial block, c = .channel initial block ∧ i = base + opened cs ∧
      flag = blockExpectation (expectation cs) block :=
  occurs_concat

/-- A subscription has no block. -/
theorem IsSubscription.not_isBlock (h : IsSubscription base cs i) : ¬IsBlock base cs i flag := by
  induction cs using List.reverseRecOn with
  | nil => exact (not_occurs_nil _ h).elim
  | append_singleton cs c ih =>
    intro hblock
    rcases isSubscription_concat.mp h with hs | ⟨hs, hi⟩
    · rcases isBlock_concat.mp hblock with hb | ⟨initial, block, -, hi, -⟩
      · exact ih hs hb
      · have hlt := hs.lt
        omega
    · rcases isBlock_concat.mp hblock with hb | ⟨initial, block, rfl, -, -⟩
      · have hlt := hb.lt
        omega
      · cases hs

end Script

open Script (Command IsSubscription IsBlock expectation)

/-- The result `r` is what the commands call for, if the interactions `passed` have passed. -/
structure Lawful (name : String) (base : Nat) (cs : List Command) (passed : Nat → Bool)
    (r : Except Fault Verdict) : Prop where
  /-- All subscriptions count, and nothing else does. -/
  subscribed : (∃ i, IsSubscription base cs i) →
    r = .ok .pass ∧ ((∀ i, IsSubscription base cs i → passed i = true) ↔ expectation cs = true) ∨
    r = .ok .fail ∧ ¬((∀ i, IsSubscription base cs i → passed i = true) ↔ expectation cs = true)
  /-- Without a subscription the blocks count. -/
  channel : (¬∃ i, IsSubscription base cs i) → (∃ c ∈ cs, c.runsChannel = true) →
    ∃ met, r = .ok (.channel met) ∧ (met = true ↔ ∀ i flag, IsBlock base cs i flag → passed i = flag)
  idle : (¬∃ i, IsSubscription base cs i) → (¬∃ c ∈ cs, c.runsChannel = true) →
    r = .error (.noInteraction name)

/-- How a command may fail, and how many connections it has made by then. -/
inductive Fails {σ τ : Type} (env : Environment σ τ) (name : String) :
    Command → Fault → Nat → Prop where
  | malformed (line reason : String) :
      Fails env name (.single (.malformed line reason)) (.malformedCommand line reason) 0
  /-- The attempt to connect was refused. -/
  | refused {c : Command} {far far' : σ} {f : Fault} (hc : c.opens = true)
      (h : env.dial far = some (far', .refused f)) : Fails env name c f 0
  /-- The block of a channel panicked. -/
  | aborted (initial : Payload) (block : List Script.Instruction) :
      Fails env name (.channel initial block) (.channelAborted name) 1

end StreamConformance
