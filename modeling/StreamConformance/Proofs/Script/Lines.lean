import Mathlib.Data.List.Infix
import StreamConformance.Proofs.Text.Cutting
import StreamConformance.Script.Test

/-!
# The lines of a command

How a command is written into a script, and that these lines are read as that command.  Tokens are
put together with the delimiter of lines between them; a token must be one that the delimiter does
not cut, and that does not lose its end with the end of its line.

Marbles are not written here: `respond` lines, and the instructions that stand for lines that could
not be understood, have no lines of their own.

* `IsClean`, `tokens_line`: the tokens of a line that was put together of clean ones.
* `Instruction.tokens`, `Command.lines`: how commands are written.
* `parseTokens_tokens`: the instruction that the tokens of an instruction ask for.
* `parseLines_filter`: blank lines ask for nothing.
* `parseLines_flatMap`: the commands of the lines of commands.
-/

namespace StreamConformance
namespace Script

open Text (IsTrimmed)

variable {ts : List String} {s : String} {i : Instruction} {c : Command}

/-! ## Clean tokens -/

/-- A text of one line that holds no delimiter and ends neither in a part of one nor blank. -/
structure IsClean (s : String) : Prop where
  oneLine : '\n' ∉ s.toList
  noDelimiter : ¬ ['%', '%'] <:+: s.toList
  last : ∀ c ∈ s.toList.getLast?, c ≠ '%' ∧ Text.isBlank c = false

instance : DecidablePred IsClean := fun s =>
  decidable_of_iff ('\n' ∉ s.toList ∧ ¬ ['%', '%'] <:+: s.toList ∧
      (s.toList.getLast?.all fun c => c != '%' && !Text.isBlank c) = true)
    ⟨fun ⟨h₁, h₂, h₃⟩ => ⟨h₁, h₂, by simpa [Option.all_eq_true] using h₃⟩,
      fun ⟨h₁, h₂, h₃⟩ => ⟨h₁, h₂, by simpa [Option.all_eq_true] using h₃⟩⟩

theorem IsClean.ends (h : IsClean s) : tokenDelimiter.Ends s.toList :=
  Text.ends_pair (Text.noPair_iff.mpr h.noDelimiter) fun c hc => (h.last c hc).1

/-- Tokens as a line. -/
def line (ts : List String) : Line :=
  tokenDelimiter.chars.intercalate (ts.map String.toList)

/-- **The tokens of a line are those it was put together of.** -/
theorem tokens_line (hne : ts ≠ []) (h : ∀ t ∈ ts, IsClean t) : tokens (line ts) = ts := by
  have hends : ∀ w ∈ ts.map String.toList, tokenDelimiter.Ends w :=
    List.forall_mem_map.mpr fun t ht => (h t ht).ends
  rw [tokens, line, Text.split_intercalate (by simpa using hne) hends, List.map_map]
  exact (List.map_congr_left fun t _ => String.ofList_toList).trans (List.map_id ts)

theorem keyword_line (h : ∀ t ∈ s :: ts, IsClean t) : keyword (line (s :: ts)) = s := by
  rw [keyword, tokens_line (List.cons_ne_nil s ts) h]
  rfl

theorem lineFeed_not_mem_line (h : ∀ t ∈ ts, IsClean t) : '\n' ∉ line ts := by
  intro hmem
  refine Text.forall_mem_intercalate (P := (· ≠ '\n')) ?_ ?_ '\n' hmem rfl
  · simp [tokenDelimiter, Text.Delimiter.chars]
  rw [List.forall_mem_map]
  rintro t ht c hc rfl
  exact (h t ht).oneLine hc

/-- A line begins as its first token does. -/
theorem mem_head?_line {c : Char} (hc : c ∈ s.toList.head?) (ts : List String) :
    c ∈ (line (s :: ts)).head? := by
  by_cases hts : ts = []
  · rw [line, hts]
    simpa using hc
  · rw [line, List.map_cons, List.intercalate_cons_of_ne_nil (by simpa using hts),
      List.append_assoc, List.head?_append, Option.mem_def.mp hc]
    rfl

/-- A line is trimmed if its first token begins with something. -/
theorem isTrimmed_line (h : ∀ t ∈ s :: ts, IsClean t)
    (hfirst : ∃ c ∈ s.toList.head?, Text.isBlank c = false) : IsTrimmed (line (s :: ts)) := by
  obtain ⟨c, hc, hblank⟩ := hfirst
  constructor
  · intro c' hc'
    rw [Option.mem_unique hc' (mem_head?_line hc ts), hblank]
  · refine Text.forall_getLast?_intercalate (by rintro c ⟨⟩; rfl) ?_
    rw [List.forall_mem_map]
    exact fun t ht c hc => ((h t ht).last c hc).2

/-! ## Numerals and lists of payloads -/

/-- The numeral of a number. -/
def numeral (n : Nat) : String :=
  String.ofList (Text.digits n)

theorem isClean_numeral (n : Nat) : IsClean (numeral n) := by
  have hdigit : ∀ c ∈ (numeral n).toList, c.isDigit = true := by
    rw [numeral, String.toList_ofList]
    exact fun c hc => Text.isDigit_of_mem_digits hc
  refine ⟨fun hmem => absurd (hdigit _ hmem) (by decide), ?_, fun c hc => ?_⟩
  · exact fun hin => absurd (hdigit '%' (hin.subset List.mem_cons_self)) (by decide)
  · have hc' := hdigit c (List.mem_of_getLast? hc)
    obtain ⟨hlow, hhigh⟩ := Char.isDigit_iff_toNat.mp hc'
    constructor
    · rintro rfl
      exact absurd hc' (by decide)
    · have h0 : '0'.toNat = 48 := rfl
      have h9 : '9'.toNat = 57 := rfl
      simp only [Text.isBlank, Bool.or_eq_false_iff, Bool.and_eq_false_iff, beq_eq_false_iff_ne,
        decide_eq_false_iff_not]
      omega

theorem count_numeral {n k : Nat} (hn : n ≤ Demand.limit) (h : ts[k]? = some (numeral n)) :
    count ts k = .ok n := by
  rw [count, argument, h]
  dsimp only
  rw [numeral, String.toList_ofList, Text.numeralUpTo?_digits hn]

/-- The texts of a payload are clean. -/
structure IsCleanPayload (p : Payload) : Prop where
  data : IsClean p.data
  metadata : IsClean p.metadata

instance : DecidablePred IsCleanPayload := fun p =>
  decidable_of_iff (IsClean p.data ∧ IsClean p.metadata)
    ⟨fun ⟨h₁, h₂⟩ => ⟨h₁, h₂⟩, fun ⟨h₁, h₂⟩ => ⟨h₁, h₂⟩⟩

/-- A payload that can stand in a list of payloads. -/
structure IsPair (p : Payload) : Prop extends IsCleanPayload p where
  noComma : ',' ∉ p.data.toList
  dataNoDelimiter : ¬ ['&', '&'] <:+: p.data.toList
  metadataNoDelimiter : ¬ ['&', '&'] <:+: p.metadata.toList
  last : ∀ c ∈ p.metadata.toList.getLast?, c ≠ '&'

instance : DecidablePred IsPair := fun p =>
  decidable_of_iff (IsCleanPayload p ∧ ',' ∉ p.data.toList ∧ ¬ ['&', '&'] <:+: p.data.toList ∧
      ¬ ['&', '&'] <:+: p.metadata.toList ∧ (p.metadata.toList.getLast?.all (· != '&')) = true)
    ⟨fun ⟨h₀, h₁, h₂, h₃, h₄⟩ => ⟨h₀, h₁, h₂, h₃, by simpa [Option.all_eq_true] using h₄⟩,
      fun ⟨h₀, h₁, h₂, h₃, h₄⟩ => ⟨h₀, h₁, h₂, h₃, by simpa [Option.all_eq_true] using h₄⟩⟩

/-- A payload as it is written in a list of payloads. -/
def pair (p : Payload) : List Char :=
  p.data.toList ++ (pairDelimiter.chars ++ p.metadata.toList)

/-- Payloads as a list that `assert received` reads. -/
def listed (payloads : List Payload) : String :=
  String.ofList (valueDelimiter.chars.intercalate (payloads.map pair))

theorem noPair_pair {p : Payload} {x : Char} (hx : x ≠ ',') (hdata : Text.NoPair x p.data.toList)
    (hmeta : Text.NoPair x p.metadata.toList) : Text.NoPair x (pair p) := by
  have hcomma : Text.NoPair x (',' :: p.metadata.toList) :=
    List.isChain_cons.mpr ⟨fun _ _ hxx => hx hxx.1.symm, hmeta⟩
  refine hdata.append hcomma (Or.inr fun y hy => ?_)
  cases hy
  exact hx.symm

/-- What a pair ends with is the end of its metadata, or the comma. -/
theorem forall_getLast?_pair {p : Payload} {P : Char → Prop} (hcomma : P ',')
    (hmeta : ∀ c ∈ p.metadata.toList.getLast?, P c) : ∀ c ∈ (pair p).getLast?, P c := by
  have hpair : pair p = (p.data.toList ++ [',']) ++ p.metadata.toList :=
    (List.append_assoc _ _ _).symm
  rw [hpair]
  refine Text.forall_getLast?_append (fun c hc => ?_) hmeta
  rw [List.getLast?_concat] at hc
  cases hc
  exact hcomma

theorem IsPair.ends {p : Payload} (h : IsPair p) : valueDelimiter.Ends (pair p) := by
  exact Text.ends_pair (noPair_pair (by decide) (Text.noPair_iff.mpr h.dataNoDelimiter)
    (Text.noPair_iff.mpr h.metadataNoDelimiter)) (forall_getLast?_pair (by decide) h.last)

/-- A list of payloads is a clean token. -/
theorem isClean_listed {payloads : List Payload} (h : ∀ p ∈ payloads, IsPair p) :
    IsClean (listed payloads) := by
  constructor <;> rw [listed, String.toList_ofList]
  · intro hmem
    refine Text.forall_mem_intercalate (P := (· ≠ '\n')) ?_ ?_ '\n' hmem rfl
    · simp [valueDelimiter, Text.Delimiter.chars]
    rw [List.forall_mem_map]
    intro p hp c hc
    rintro rfl
    rcases List.mem_append.mp hc with hc | hc
    · exact (h p hp).data.oneLine hc
    · exact (List.mem_append.mp hc).elim (by decide) (h p hp).metadata.oneLine
  · refine Text.noPair_iff.mp (Text.NoPair.intercalate (by decide) (by decide) ?_)
    rw [List.forall_mem_map]
    exact fun p hp => noPair_pair (by decide) (Text.noPair_iff.mpr (h p hp).data.noDelimiter)
      (Text.noPair_iff.mpr (h p hp).metadata.noDelimiter)
  · refine Text.forall_getLast?_intercalate (by rintro c ⟨⟩; decide) ?_
    rw [List.forall_mem_map]
    exact fun p hp => forall_getLast?_pair (by decide) (h p hp).metadata.last

theorem expectedPayload_pair {p : Payload} (h : IsPair p) : expectedPayload (pair p) = .ok p := by
  have hends : pairDelimiter.Ends p.data.toList := Text.ends_single h.noComma
  rw [expectedPayload, pair, Text.cut?_append hends]
  dsimp only
  rw [String.ofList_toList, String.ofList_toList]

/-- **A list of payloads is read as these payloads.** -/
theorem expectedPayloads_listed {payloads : List Payload} (hne : payloads ≠ [])
    (h : ∀ p ∈ payloads, IsPair p) : expectedPayloads (listed payloads) = .ok payloads := by
  have hends : ∀ w ∈ payloads.map pair, valueDelimiter.Ends w :=
    List.forall_mem_map.mpr fun p hp => (h p hp).ends
  rw [expectedPayloads, listed, String.toList_ofList,
    Text.split_intercalate (by simpa using hne) hends]
  clear hends hne
  induction payloads with
  | nil => rfl
  | cons p payloads ih =>
    have ih := ih fun p' hp' => h p' (List.mem_cons_of_mem p hp')
    rw [List.map_cons, List.mapM_cons, expectedPayload_pair (h p List.mem_cons_self), ih]
    rfl

/-! ## Instructions -/

/-- The tokens of a condition, behind the keyword. -/
def Wait.tokens (id : String) : Wait → List String
  | .terminal => ["terminal", id]
  | .atLeast n => ["atLeast", id, numeral n]
  | .noEvents window => ["no_events", id, numeral window]

/-- The tokens of a check, behind the keyword. -/
def Check.tokens (id : String) : Check → List String
  | .noError => ["no_error", id]
  | .error => ["error", id]
  | .completed => ["completed", id]
  | .notCompleted => ["no_completed", id]
  | .canceled => ["canceled", id]
  | .received payloads => ["received", id, listed payloads]
  | .receivedCount n => ["received_n", id, numeral n]
  | .receivedAtLeast n => ["received_at_least", id, numeral n]

/-- The tokens of an instruction; a few have none. -/
def Instruction.tokens : Instruction → List String
  | .subscribe kind id payload =>
    ["subscribe", kind.token, id, payload.data, payload.metadata]
  | .echoChannel initial => ["echochannel", initial.data, initial.metadata]
  | .await id wait => "await" :: wait.tokens id
  | .assert id check => "assert" :: check.tokens id
  | .take n id => ["take", numeral n, id]
  | .request n id => ["request", numeral n, id]
  | .cancel id => ["cancel", id]
  | .eof => ["EOF"]
  | .pass => ["pass"]
  | .fail => ["fail"]
  | .respond _ => []
  | .unknown _ => []
  | .malformed _ _ => []

/-- The numbers of a condition can be written. -/
def Wait.IsWritable : Wait → Prop
  | .terminal => True
  | .atLeast n => n ≤ Demand.limit
  | .noEvents window => window ≤ Demand.limit

/-- The numbers and payloads of a check can be written. -/
def Check.IsWritable : Check → Prop
  | .received payloads => payloads ≠ [] ∧ ∀ p ∈ payloads, IsPair p
  | .receivedCount n => n ≤ Demand.limit
  | .receivedAtLeast n => n ≤ Demand.limit
  | _ => True

/-- The instruction can be written as a line. -/
def Instruction.IsWritable : Instruction → Prop
  | .subscribe _ id payload => IsClean id ∧ IsCleanPayload payload
  | .echoChannel initial => IsCleanPayload initial
  | .await id wait => IsClean id ∧ wait.IsWritable
  | .assert id check => IsClean id ∧ check.IsWritable
  | .take n id => n ≤ Demand.limit ∧ IsClean id
  | .request n id => n ≤ Demand.limit ∧ IsClean id
  | .cancel id => IsClean id
  | .eof => True
  | .pass => True
  | .fail => True
  | .respond _ => False
  | .unknown _ => False
  | .malformed _ _ => False

instance : DecidablePred Wait.IsWritable
  | .terminal => .isTrue trivial
  | .atLeast _ => inferInstanceAs (Decidable (_ ≤ _))
  | .noEvents _ => inferInstanceAs (Decidable (_ ≤ _))

instance : DecidablePred Check.IsWritable
  | .received payloads => inferInstanceAs (Decidable (_ ∧ ∀ p ∈ payloads, IsPair p))
  | .receivedCount _ => inferInstanceAs (Decidable (_ ≤ _))
  | .receivedAtLeast _ => inferInstanceAs (Decidable (_ ≤ _))
  | .noError => .isTrue trivial
  | .error => .isTrue trivial
  | .completed => .isTrue trivial
  | .notCompleted => .isTrue trivial
  | .canceled => .isTrue trivial

instance : DecidablePred Instruction.IsWritable
  | .subscribe _ id payload => inferInstanceAs (Decidable (IsClean id ∧ IsCleanPayload payload))
  | .echoChannel initial => inferInstanceAs (Decidable (IsCleanPayload initial))
  | .await id wait => inferInstanceAs (Decidable (IsClean id ∧ wait.IsWritable))
  | .assert id check => inferInstanceAs (Decidable (IsClean id ∧ check.IsWritable))
  | .take _ id => inferInstanceAs (Decidable (_ ≤ _ ∧ IsClean id))
  | .request _ id => inferInstanceAs (Decidable (_ ≤ _ ∧ IsClean id))
  | .cancel id => inferInstanceAs (Decidable (IsClean id))
  | .eof => .isTrue trivial
  | .pass => .isTrue trivial
  | .fail => .isTrue trivial
  | .respond _ => .isFalse id
  | .unknown _ => .isFalse id
  | .malformed _ _ => .isFalse id

/-- The keywords of instructions that can be written. -/
def keywords : List String :=
  ["subscribe", "echochannel", "await", "assert", "take", "request", "cancel", "EOF", "pass", "fail"]

theorem Instruction.IsWritable.keyword (h : i.IsWritable) :
    ∃ t ts, i.tokens = t :: ts ∧ t ∈ keywords := by
  cases i <;> first
    | exact h.elim
    | exact ⟨_, _, rfl, by decide⟩

theorem InteractionKind.isClean_token (kind : InteractionKind) : IsClean kind.token := by
  cases kind <;> decide +kernel

theorem Wait.IsWritable.isClean {wait : Wait} {id : String} (hid : IsClean id) :
    ∀ t ∈ wait.tokens id, IsClean t := by
  cases wait with
  | terminal =>
    simp only [Wait.tokens, List.forall_mem_cons, List.not_mem_nil, IsEmpty.forall_iff,
      implies_true, and_true]
    exact ⟨by decide +kernel, hid⟩
  | atLeast n | noEvents n =>
    simp only [Wait.tokens, List.forall_mem_cons, List.not_mem_nil, IsEmpty.forall_iff,
      implies_true, and_true]
    exact ⟨by decide +kernel, hid, isClean_numeral n⟩

theorem Check.IsWritable.isClean {check : Check} {id : String} (h : check.IsWritable)
    (hid : IsClean id) : ∀ t ∈ check.tokens id, IsClean t := by
  cases check with
  | noError | error | completed | notCompleted | canceled =>
    simp only [Check.tokens, List.forall_mem_cons, List.not_mem_nil, IsEmpty.forall_iff,
      implies_true, and_true]
    exact ⟨by decide +kernel, hid⟩
  | received payloads =>
    simp only [Check.tokens, List.forall_mem_cons, List.not_mem_nil, IsEmpty.forall_iff,
      implies_true, and_true]
    exact ⟨by decide +kernel, hid, isClean_listed h.2⟩
  | receivedCount n | receivedAtLeast n =>
    simp only [Check.tokens, List.forall_mem_cons, List.not_mem_nil, IsEmpty.forall_iff,
      implies_true, and_true]
    exact ⟨by decide +kernel, hid, isClean_numeral n⟩

theorem Instruction.IsWritable.isClean (h : i.IsWritable) : ∀ t ∈ i.tokens, IsClean t := by
  cases i with
  | subscribe kind id payload =>
    simp only [Instruction.tokens, List.forall_mem_cons, List.not_mem_nil, IsEmpty.forall_iff,
      implies_true, and_true]
    exact ⟨by decide +kernel, kind.isClean_token, h.1, h.2.1, h.2.2⟩
  | echoChannel initial =>
    simp only [Instruction.tokens, List.forall_mem_cons, List.not_mem_nil, IsEmpty.forall_iff,
      implies_true, and_true]
    exact ⟨by decide +kernel, h.1, h.2⟩
  | await id wait => exact List.forall_mem_cons.mpr ⟨by decide +kernel, Wait.IsWritable.isClean h.1⟩
  | assert id check => exact List.forall_mem_cons.mpr ⟨by decide +kernel, h.2.isClean h.1⟩
  | take n id | request n id =>
    simp only [Instruction.tokens, List.forall_mem_cons, List.not_mem_nil, IsEmpty.forall_iff,
      implies_true, and_true]
    exact ⟨by decide +kernel, isClean_numeral n, h.2⟩
  | cancel id =>
    simp only [Instruction.tokens, List.forall_mem_cons, List.not_mem_nil, IsEmpty.forall_iff,
      implies_true, and_true]
    exact ⟨by decide +kernel, h⟩
  | eof | pass | fail => exact List.forall_mem_singleton.mpr (by decide +kernel)
  | respond _ | unknown _ | malformed _ _ => exact h.elim

theorem parseAwait_tokens {wait : Wait} (h : wait.IsWritable) (id : String) :
    parseAwait ("await" :: wait.tokens id) = .ok (some (.await id wait)) := by
  cases wait with
  | terminal => rfl
  | atLeast n | noEvents n =>
    simp only [parseAwait, Wait.tokens, List.getElem?_cons_succ, List.getElem?_cons_zero]
    rw [count_numeral h rfl]
    rfl

theorem parseCheck_tokens {check : Check} (h : check.IsWritable) (id : String) :
    parseCheck ("assert" :: check.tokens id) = .ok (some check) := by
  cases check with
  | noError | error | completed | notCompleted | canceled => rfl
  | received payloads =>
    simp only [parseCheck, Check.tokens, List.getElem?_cons_succ, List.getElem?_cons_zero]
    rw [argument]
    simp only [List.getElem?_cons_succ, List.getElem?_cons_zero]
    simp only [bind, Except.bind]
    rw [expectedPayloads_listed h.1 h.2]
    rfl
  | receivedCount n | receivedAtLeast n =>
    simp only [parseCheck, Check.tokens, List.getElem?_cons_succ, List.getElem?_cons_zero]
    rw [count_numeral h rfl]
    rfl

theorem parseAssert_tokens {check : Check} (h : check.IsWritable) (id : String) :
    parseAssert ("assert" :: check.tokens id) = .ok (some (.assert id check)) := by
  have hid : argument ("assert" :: check.tokens id) 2 "id" = .ok id := by
    cases check <;> rfl
  rw [parseAssert, parseCheck_tokens h id]
  simp only [bind, Except.bind]
  rw [hid]
  rfl

theorem parseCounted_tokens {n : Nat} (hn : n ≤ Demand.limit) (make : Nat → String → Instruction)
    (s id : String) : parseCounted make [s, numeral n, id] = .ok (make n id) := by
  rw [parseCounted, count_numeral hn rfl]
  rfl

/-- **The tokens of an instruction ask for it.** -/
theorem parseTokens_tokens (h : i.IsWritable) : parseTokens i.tokens = .ok (some i) := by
  cases i with
  | subscribe kind id payload => cases kind <;> rfl
  | echoChannel initial => rfl
  | await id wait => exact parseAwait_tokens h.2 id
  | assert id check => exact parseAssert_tokens h.2 id
  | take n id => exact congrArg (Except.map some) (parseCounted_tokens h.1 .take _ id)
  | request n id => exact congrArg (Except.map some) (parseCounted_tokens h.1 .request _ id)
  | cancel id => rfl
  | eof | pass | fail => rfl
  | respond _ | unknown _ | malformed _ _ => exact h.elim

/-- **The line of an instruction is read as it.** -/
theorem parseLine_line (h : i.IsWritable) : parseLine (line i.tokens) = i := by
  obtain ⟨t, ts, hts, -⟩ := h.keyword
  have hne : i.tokens ≠ [] := by
    rw [hts]
    exact List.cons_ne_nil t ts
  rw [parseLine, tokens_line hne h.isClean, parseTokens_tokens h]

/-! ## Commands -/

/-- The lines of a command. -/
def Command.lines : Command → List Line
  | .single instruction => [line instruction.tokens]
  | .channel initial block =>
    line ["channel", initial.data, initial.metadata] :: blockOpen ::
      (block.map (fun instruction => line instruction.tokens) ++ [blockClose])

/-- The command can be written as lines. -/
def Command.IsWritable : Command → Prop
  | .single instruction => instruction.IsWritable
  | .channel initial block => IsCleanPayload initial ∧ ∀ i ∈ block, i.IsWritable

instance : DecidablePred Command.IsWritable
  | .single instruction => inferInstanceAs (Decidable instruction.IsWritable)
  | .channel initial block =>
    inferInstanceAs (Decidable (IsCleanPayload initial ∧ ∀ i ∈ block, i.IsWritable))

theorem keyword_line_tokens (h : i.IsWritable) : keyword (line i.tokens) ∈ keywords := by
  obtain ⟨t, ts, hts, hmem⟩ := h.keyword
  rw [hts, keyword_line (hts ▸ h.isClean)]
  exact hmem

theorem isClean_channel {p : Payload} (h : IsCleanPayload p) :
    ∀ t ∈ ["channel", p.data, p.metadata], IsClean t := by
  simp only [List.forall_mem_cons, List.not_mem_nil, IsEmpty.forall_iff, implies_true, and_true]
  exact ⟨by decide +kernel, h.data, h.metadata⟩

theorem keyword_channel {p : Payload} (h : IsCleanPayload p) :
    keyword (line ["channel", p.data, p.metadata]) = "channel" :=
  keyword_line (isClean_channel h)

/-- Lines with a keyword are neither blank nor markers. -/
theorem ne_of_keyword {l : Line} (h : keyword l ∈ "channel" :: keywords) :
    l ≠ [] ∧ l ≠ blockOpen ∧ l ≠ blockClose ∧ l ≠ separator := by
  refine ⟨?_, ?_, ?_, ?_⟩ <;>
  · rintro rfl
    revert h
    decide +kernel

theorem ne_channel_of_keyword {t : String} (h : t ∈ keywords) : t ≠ "channel" := by
  rintro rfl
  revert h
  decide +kernel

theorem parseBlockLine_line (h : i.IsWritable) : parseBlockLine (line i.tokens) = some i := by
  have hkey := keyword_line_tokens h
  obtain ⟨hnil, hopen, -, -⟩ := ne_of_keyword (List.mem_cons_of_mem _ hkey)
  rw [parseBlockLine, if_neg (by simpa using ⟨hnil, hopen⟩),
    if_neg (by simpa using ne_channel_of_keyword hkey), parseLine_line h]

/-- The lines of a block are read as its instructions. -/
theorem parseChannel_lines {p : Payload} {block : List Instruction} (hp : IsCleanPayload p)
    (h : ∀ i ∈ block, i.IsWritable) :
    parseChannel (line ["channel", p.data, p.metadata])
        (blockOpen :: block.map fun i => line i.tokens) = .channel p block := by
  have hblock : (block.map fun i => line i.tokens).filterMap parseBlockLine = block := by
    rw [List.filterMap_map]
    refine (List.filterMap_congr fun i hi => ?_).trans List.filterMap_some
    exact parseBlockLine_line (h i hi)
  have hopen : parseBlockLine blockOpen = none := rfl
  rw [parseChannel, tokens_line (List.cons_ne_nil _ _) (isClean_channel hp)]
  change Command.channel p ((blockOpen :: block.map fun i => line i.tokens).filterMap _) = _
  rw [List.filterMap_cons_none hopen, hblock]

/-- The lines in front of a closing marker, if none of them is one. -/
theorem takeWhile_inner {inner : List Line} (h : ∀ l ∈ inner, l ≠ blockClose) (rest : List Line) :
    (inner ++ blockClose :: rest).takeWhile (· != blockClose) = inner := by
  rw [List.takeWhile_append_of_pos fun l hl => bne_iff_ne.mpr (h l hl),
    List.takeWhile_cons_of_neg (by decide), List.append_nil]

/-- A channel takes the lines up to the next closing marker. -/
theorem parseLines_channel {l : Line} {inner : List Line} (hkey : keyword l = "channel")
    (hinner : ∀ l ∈ inner, l ≠ blockClose) (rest : List Line) :
    parseLines (l :: (inner ++ blockClose :: rest)) = parseChannel l inner :: parseLines rest := by
  obtain ⟨hnil, -, hclose, -⟩ := ne_of_keyword (by rw [hkey]; exact List.mem_cons_self)
  have hdrop : (inner ++ blockClose :: rest).dropWhile (· != blockClose) = blockClose :: rest := by
    rw [List.dropWhile_append_of_pos fun l hl => bne_iff_ne.mpr (hinner l hl)]
    exact List.dropWhile_cons_of_neg (by decide)
  rw [parseLines, if_neg (by simpa using hnil), if_neg (by simpa using hclose),
    if_pos (by simpa using hkey)]
  split
  · rename_i heq
    rw [hdrop] at heq
    cases heq
  · rename_i heq
    rw [hdrop] at heq
    cases heq
    rw [takeWhile_inner hinner]

/-- A channel without a closing marker takes all lines. -/
theorem parseLines_unclosed {l : Line} {rest : List Line} (hkey : keyword l = "channel")
    (hrest : ∀ l ∈ rest, l ≠ blockClose) :
    parseLines (l :: rest) = [.single (.malformed (String.ofList l)
      "channel block is missing its closing marker")] := by
  obtain ⟨hnil, -, hclose, -⟩ := ne_of_keyword (by rw [hkey]; exact List.mem_cons_self)
  have hdrop : rest.dropWhile (· != blockClose) = [] :=
    List.dropWhile_eq_nil_iff.mpr fun l hl => by simpa using hrest l hl
  rw [parseLines, if_neg (by simpa using hnil), if_neg (by simpa using hclose),
    if_pos (by simpa using hkey)]
  split
  · rfl
  · rename_i heq
    rw [hdrop] at heq
    cases heq

/-- The block of a channel ends at a closing marker. -/
theorem exists_inner {close : Line} {lines behind : List Line}
    (h : lines.dropWhile (· != blockClose) = close :: behind) :
    ∃ inner, (∀ l ∈ inner, l ≠ blockClose) ∧ lines = inner ++ blockClose :: behind := by
  have hclose : close = blockClose := by
    have hne : lines.dropWhile (· != blockClose) ≠ [] := by
      rw [h]
      exact List.cons_ne_nil _ _
    have hhead := List.head_dropWhile_not (· != blockClose) hne
    simpa [h] using hhead
  refine ⟨lines.takeWhile (· != blockClose), fun l hl => by simpa using List.mem_takeWhile_imp hl, ?_⟩
  have hwhole := List.takeWhile_append_dropWhile (p := (· != blockClose)) (l := lines)
  rw [h, hclose] at hwhole
  exact hwhole.symm

theorem parseChannel_filter (l : Line) (inner : List Line) :
    parseChannel l (inner.filter fun l => !l.isEmpty) = parseChannel l inner := by
  have hinner : (inner.filter fun l => !l.isEmpty).filterMap parseBlockLine =
      inner.filterMap parseBlockLine := by
    induction inner with
    | nil => rfl
    | cons l inner ih =>
      cases l with
      | nil => exact ih
      | cons a l =>
        rw [List.filter_cons_of_pos rfl, List.filterMap_cons, List.filterMap_cons, ih]
  rw [parseChannel, hinner, ← parseChannel]

/-- **Blank lines ask for nothing.** -/
theorem parseLines_filter (lines : List Line) :
    parseLines (lines.filter fun l => !l.isEmpty) = parseLines lines := by
  induction lines using parseLines.induct with
  | case1 => rfl
  | case2 l lines hempty ih =>
    rw [List.filter_cons_of_neg (by simpa using hempty), ih, parseLines, if_pos hempty]
  | case3 l lines hempty hclose ih =>
    rw [List.filter_cons_of_pos (by simpa using hempty), parseLines, if_neg hempty, if_pos hclose,
      ih, parseLines, if_neg hempty, if_pos hclose]
  | case4 l lines hempty hclose hkey hdrop =>
    have hlines : ∀ l ∈ lines, l ≠ blockClose := by
      simpa using List.dropWhile_eq_nil_iff.mp hdrop
    have hkey : keyword l = "channel" := by simpa using hkey
    rw [List.filter_cons_of_pos (by simpa using hempty),
      parseLines_unclosed hkey fun l hl => hlines l (List.mem_of_mem_filter hl),
      parseLines_unclosed hkey hlines]
  | case5 l lines hempty hclose hkey close behind hdrop ih =>
    have hkey : keyword l = "channel" := by simpa using hkey
    obtain ⟨inner, hinner, hlines⟩ := exists_inner hdrop
    have hfilter : (inner ++ blockClose :: behind).filter (fun l => !l.isEmpty) =
        inner.filter (fun l => !l.isEmpty) ++
          blockClose :: behind.filter fun l => !l.isEmpty := by
      rw [List.filter_append, List.filter_cons_of_pos (by decide)]
    rw [List.filter_cons_of_pos (by simpa using hempty), hlines, hfilter,
      parseLines_channel hkey fun l hl => hinner l (List.mem_of_mem_filter hl),
      parseLines_channel hkey hinner, ih, parseChannel_filter]
  | case6 l lines hempty hclose hkey ih =>
    rw [List.filter_cons_of_pos (by simpa using hempty), parseLines, if_neg hempty,
      if_neg hclose, if_neg hkey, ih, parseLines, if_neg hempty, if_neg hclose, if_neg hkey]

/-- The lines of a command are read as it, and the lines behind it are left. -/
theorem parseLines_lines (h : c.IsWritable) (rest : List Line) :
    parseLines (c.lines ++ rest) = c :: parseLines rest := by
  cases c with
  | single i =>
    have hi : i.IsWritable := h
    have hkey := keyword_line_tokens hi
    obtain ⟨hnil, -, hclose, -⟩ := ne_of_keyword (List.mem_cons_of_mem _ hkey)
    rw [Command.lines, List.singleton_append, parseLines, if_neg (by simpa using hnil),
      if_neg (by simpa using hclose), if_neg (by simpa using ne_channel_of_keyword hkey),
      parseLine_line hi]
  | channel p block =>
    obtain ⟨hp, hblock⟩ := h
    have hinner : ∀ l ∈ blockOpen :: block.map (fun i => line i.tokens), l ≠ blockClose := by
      refine List.forall_mem_cons.mpr ⟨by decide, List.forall_mem_map.mpr fun i hi => ?_⟩
      have hkey := keyword_line_tokens (hblock i hi)
      exact (ne_of_keyword (List.mem_cons_of_mem _ hkey)).2.2.1
    rw [Command.lines, List.cons_append, List.cons_append, List.append_assoc,
      List.singleton_append, ← List.cons_append, parseLines_channel (keyword_channel hp) hinner,
      parseChannel_lines hp hblock]

/-- **The lines of commands are read as these commands.** -/
theorem parseLines_flatMap {cs : List Command} (h : ∀ c ∈ cs, c.IsWritable) :
    parseLines (cs.flatMap Command.lines) = cs := by
  induction cs with
  | nil => rw [List.flatMap_nil, parseLines]
  | cons c cs ih =>
    rw [List.flatMap_cons, parseLines_lines (h c List.mem_cons_self),
      ih fun c' hc' => h c' (List.mem_cons_of_mem c hc')]

/-! ## Lines that are not blank -/

/-- A line that is seen as it is, whatever margins it has. -/
structure IsPlain (l : Line) : Prop where
  ne_nil : l ≠ []
  trimmed : IsTrimmed l
  oneLine : '\n' ∉ l

/-- A line that begins with a word. -/
theorem isPlain_line (h : ∀ t ∈ s :: ts, IsClean t)
    (hfirst : ∃ c ∈ s.toList.head?, Text.isBlank c = false) : IsPlain (line (s :: ts)) where
  ne_nil hnil := by
    obtain ⟨c, hc, -⟩ := hfirst
    have hhead := mem_head?_line hc ts
    rw [hnil] at hhead
    cases hhead
  trimmed := isTrimmed_line h hfirst
  oneLine := lineFeed_not_mem_line h

theorem exists_head_of_keyword {t : String} (h : t ∈ keywords) :
    ∃ c ∈ t.toList.head?, Text.isBlank c = false := by
  have hall : ∀ t ∈ keywords, (t.toList.head?.any fun c => !Text.isBlank c) = true := by
    decide +kernel
  simpa [Option.any_eq_true] using hall t h

theorem isPlain_line_tokens (h : i.IsWritable) : IsPlain (line i.tokens) := by
  obtain ⟨t, ts, hts, hmem⟩ := h.keyword
  have hclean := h.isClean
  rw [hts] at hclean ⊢
  exact isPlain_line hclean (exists_head_of_keyword hmem)

/-- The lines of a command are plain, and none of them separates tests. -/
theorem isPlain_lines (h : c.IsWritable) : ∀ l ∈ c.lines, IsPlain l ∧ l ≠ separator := by
  have hline : ∀ i : Instruction, i.IsWritable →
      IsPlain (line i.tokens) ∧ line i.tokens ≠ separator := fun i hi =>
    ⟨isPlain_line_tokens hi,
      (ne_of_keyword (List.mem_cons_of_mem _ (keyword_line_tokens hi))).2.2.2⟩
  cases c with
  | single i => exact List.forall_mem_singleton.mpr (hline i h)
  | channel p block =>
    obtain ⟨hp, hblock⟩ := h
    have hchannel := ne_of_keyword (by rw [keyword_channel hp]; exact List.mem_cons_self)
    refine List.forall_mem_cons.mpr ⟨⟨?_, hchannel.2.2.2⟩, List.forall_mem_cons.mpr ⟨?_, ?_⟩⟩
    · exact isPlain_line (isClean_channel hp) ⟨'c', rfl, rfl⟩
    · exact ⟨⟨by decide, by decide, by decide⟩, by decide⟩
    · refine List.forall_mem_append.mpr ⟨List.forall_mem_map.mpr fun i hi => hline i (hblock i hi), ?_⟩
      exact List.forall_mem_singleton.mpr
        ⟨⟨by decide, by decide, by decide⟩, by decide⟩

end Script
end StreamConformance
