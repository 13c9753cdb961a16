import StreamConformance.Proofs.Script.Lines

/-!
# The blocks of a test

Which lines of a test belong together, and what they ask for.  The trimmed lines behind the name
line fall apart into passages, in one way only: a channel line takes what stands behind it up to
the first closing marker, whatever that is, and every other line is a passage of its own.  A channel
line with no closing marker behind it takes all that is left.

What a passage asks for is read off its own lines.  A block is not read as lines of a test are: blank
lines and opening markers in it ask for nothing, a channel line in it is a mistake and takes no lines,
and a closing marker cannot stand in it.

* `Passage`, `IsDivision`: passages, and how they make up the lines of a test.
* `IsDivision.eq_of`: the lines of a test fall apart in one way.
* `IsDivision.parseLines_eq`: the commands of lines are those of their passages.
* `Test.commands_eq_flatMap`: so are the commands of a test.
-/

namespace StreamConformance
namespace Script

/-! ## Passages -/

/-- Lines of a test that belong together. -/
inductive Passage where
  | blank
  /-- A line that asks for something by itself. -/
  | plain (line : Line)
  /-- A closing marker with no block to close. -/
  | stray
  /-- A channel line with the lines of its block, the closing marker left out. -/
  | channel (line : Line) (inner : List Line)
  /-- A channel line with no closing marker behind it, and all lines behind it. -/
  | unclosed (line : Line) (rest : List Line)

/-- The lines of a passage. -/
def Passage.lines : Passage → List Line
  | .blank => [[]]
  | .plain l => [l]
  | .stray => [blockClose]
  | .channel l inner => l :: (inner ++ [blockClose])
  | .unclosed l rest => l :: rest

/-- The trimmed lines of a test fall apart into these passages. -/
inductive IsDivision : List Line → List Passage → Prop
  | nil : IsDivision [] []
  | blank {ls ps} (behind : IsDivision ls ps) : IsDivision ([] :: ls) (.blank :: ps)
  | plain {l ls ps} (ne_nil : l ≠ []) (ne_close : l ≠ blockClose) (key : keyword l ≠ "channel")
      (behind : IsDivision ls ps) : IsDivision (l :: ls) (.plain l :: ps)
  | stray {ls ps} (behind : IsDivision ls ps) : IsDivision (blockClose :: ls) (.stray :: ps)
  | channel {l inner ls ps} (key : keyword l = "channel") (first : blockClose ∉ inner)
      (behind : IsDivision ls ps) :
      IsDivision (l :: (inner ++ blockClose :: ls)) (.channel l inner :: ps)
  | unclosed {l rest} (key : keyword l = "channel") (none : blockClose ∉ rest) :
      IsDivision (l :: rest) [.unclosed l rest]

/-- A line that could not be understood, and why. -/
def malformedLine (l : Line) (reason : String) : Instruction :=
  .malformed (String.ofList l) reason

/-- What a line of a block asks for, if it is neither blank nor an opening marker. -/
def insideBlock (l : Line) : Instruction :=
  if keyword l = "channel" then malformedLine l "channel blocks cannot be nested" else parseLine l

/-- The lines of a block that ask for something. -/
def askingLines (inner : List Line) : List Line :=
  inner.filter fun l => l ≠ [] ∧ l ≠ blockOpen

/-- What a channel line and the lines of its block ask for. -/
def blockCommand (l : Line) (inner : List Line) : Command :=
  match (tokens l)[1]?, (tokens l)[2]? with
  | some data, some metadata => .channel ⟨data, metadata⟩ ((askingLines inner).map insideBlock)
  | some _, none => .single (malformedLine l "missing metadata (argument 2)")
  | none, _ => .single (malformedLine l "missing data (argument 1)")

/-- The commands of a passage: none for a blank line, and one for every other passage. -/
def Passage.commands : Passage → List Command
  | .blank => []
  | .plain l => [.single (parseLine l)]
  | .stray => [.single (malformedLine blockClose "closing marker outside a channel block")]
  | .channel l inner => [blockCommand l inner]
  | .unclosed l _ => [.single (malformedLine l "channel block is missing its closing marker")]

variable {l : Line} {ls ls' inner inner' rest : List Line} {ps ps' : List Passage}

/-! ## Lines fall apart in one way -/

theorem keyword_blockClose : keyword blockClose ≠ "channel" := by
  decide +kernel

theorem keyword_nil : keyword [] ≠ "channel" := by
  decide +kernel

/-- All lines fall apart into passages. -/
theorem exists_division (lines : List Line) : ∃ ps, IsDivision lines ps := by
  induction lines using parseLines.induct with
  | case1 => exact ⟨[], .nil⟩
  | case2 l lines hempty ih =>
    obtain ⟨ps, hps⟩ := ih
    rw [List.isEmpty_iff.mp hempty]
    exact ⟨.blank :: ps, .blank hps⟩
  | case3 l lines hempty hclose ih =>
    obtain ⟨ps, hps⟩ := ih
    rw [beq_iff_eq.mp hclose]
    exact ⟨.stray :: ps, .stray hps⟩
  | case4 l lines hempty hclose hkey hdrop =>
    have hlines : ∀ l ∈ lines, l ≠ blockClose := by
      simpa using List.dropWhile_eq_nil_iff.mp hdrop
    exact ⟨[.unclosed l lines], .unclosed (beq_iff_eq.mp hkey) fun hmem => hlines _ hmem rfl⟩
  | case5 l lines hempty hclose hkey close behind hdrop ih =>
    obtain ⟨ps, hps⟩ := ih
    obtain ⟨inner, hinner, rfl⟩ := exists_inner hdrop
    exact ⟨.channel l inner :: ps,
      .channel (beq_iff_eq.mp hkey) (fun hmem => hinner _ hmem rfl) hps⟩
  | case6 l lines hempty hclose hkey ih =>
    obtain ⟨ps, hps⟩ := ih
    exact ⟨.plain l :: ps, .plain (by simpa using hempty) (by simpa using hclose)
      (by simpa using hkey) hps⟩

/-- What begins with a channel line begins with its block, or is left over as a whole. -/
theorem IsDivision.cases_channel (h : IsDivision (l :: rest) ps) (hkey : keyword l = "channel") :
    (∃ inner ls ps', rest = inner ++ blockClose :: ls ∧ blockClose ∉ inner ∧
        ps = .channel l inner :: ps' ∧ IsDivision ls ps') ∨
      blockClose ∉ rest ∧ ps = [.unclosed l rest] := by
  cases h with
  | blank _ => exact absurd hkey keyword_nil
  | plain _ _ hne _ => exact absurd hkey hne
  | stray _ => exact absurd hkey keyword_blockClose
  | channel _ hfirst hbehind => exact .inl ⟨_, _, _, rfl, hfirst, rfl, hbehind⟩
  | unclosed _ hnone => exact .inr ⟨hnone, rfl⟩

/-- What begins with another line begins with it as a passage of its own. -/
theorem IsDivision.cases_single (h : IsDivision (l :: ls) ps) (hkey : keyword l ≠ "channel") :
    ∃ ps', IsDivision ls ps' ∧ ps =
      (if l = [] then .blank else if l = blockClose then .stray else .plain l) :: ps' := by
  cases h with
  | blank hbehind => exact ⟨_, hbehind, rfl⟩
  | plain hnil hclose _ hbehind => exact ⟨_, hbehind, by rw [if_neg hnil, if_neg hclose]⟩
  | stray hbehind => exact ⟨_, hbehind, rfl⟩
  | channel hkey' _ _ => exact absurd hkey' hkey
  | unclosed hkey' _ => exact absurd hkey' hkey

/-- A block ends at the first closing marker, so there is only one that lines can begin with. -/
theorem eq_of_append_blockClose (h : blockClose ∉ inner) (h' : blockClose ∉ inner')
    (heq : inner ++ blockClose :: ls = inner' ++ blockClose :: ls') : inner = inner' ∧ ls = ls' := by
  have hinner : inner = inner' := by
    rw [← takeWhile_inner (fun l hl => ne_of_mem_of_not_mem hl h) ls, heq,
      takeWhile_inner fun l hl => ne_of_mem_of_not_mem hl h']
  rw [hinner] at heq
  exact ⟨hinner, List.tail_eq_of_cons_eq (List.append_cancel_left heq)⟩

/-- **Lines fall apart in one way.** -/
theorem IsDivision.eq_of (h : IsDivision ls ps) (h' : IsDivision ls ps') : ps' = ps := by
  induction h generalizing ps' with
  | nil =>
    cases h'
    rfl
  | blank _ ih =>
    obtain ⟨ps', hbehind, rfl⟩ := h'.cases_single keyword_nil
    rw [ih hbehind, if_pos rfl]
  | plain hnil hclose hkey _ ih =>
    obtain ⟨ps', hbehind, rfl⟩ := h'.cases_single hkey
    rw [ih hbehind, if_neg hnil, if_neg hclose]
  | stray _ ih =>
    obtain ⟨ps', hbehind, rfl⟩ := h'.cases_single keyword_blockClose
    rw [ih hbehind]
    rfl
  | @channel l inner ls ps hkey hfirst _ ih =>
    rcases h'.cases_channel hkey with ⟨inner', ls', ps', heq, hfirst', rfl, hbehind⟩ | ⟨hnone, -⟩
    · obtain ⟨rfl, rfl⟩ := eq_of_append_blockClose hfirst' hfirst heq.symm
      rw [ih hbehind]
    · exact absurd (List.mem_append_right _ List.mem_cons_self) hnone
  | unclosed hkey hnone =>
    rcases h'.cases_channel hkey with ⟨inner', ls', ps', rfl, -, -, -⟩ | ⟨-, rfl⟩
    · exact absurd (List.mem_append_right _ List.mem_cons_self) hnone
    · rfl

/-- The passages are made up of the lines, each used once and in order. -/
theorem IsDivision.flatMap_lines (h : IsDivision ls ps) : ps.flatMap Passage.lines = ls := by
  induction h with
  | nil => rfl
  | blank _ ih | plain _ _ _ _ ih | stray _ ih =>
    rw [List.flatMap_cons, ih]
    rfl
  | channel _ _ _ ih =>
    rw [List.flatMap_cons, ih, Passage.lines, List.cons_append, List.append_assoc,
      List.singleton_append]
  | unclosed _ _ => rw [List.flatMap_cons, List.flatMap_nil, List.append_nil, Passage.lines]

/-! ## The commands of passages -/

theorem parseBlockLine_eq (l : Line) :
    parseBlockLine l = if l ≠ [] ∧ l ≠ blockOpen then some (insideBlock l) else none := by
  by_cases hnil : l = []
  · rw [hnil]
    rfl
  by_cases hopen : l = blockOpen
  · rw [hopen]
    rfl
  have hasks : l ≠ [] ∧ l ≠ blockOpen := ⟨hnil, hopen⟩
  rw [parseBlockLine, if_neg (by simp [hnil, hopen]), if_pos hasks, insideBlock]
  by_cases hkey : keyword l = "channel"
  · rw [if_pos hkey, if_pos (by rw [hkey]; rfl), malformedLine]
  · rw [if_neg hkey, if_neg (by simpa using hkey)]

/-- Every line of a block that asks for something asks for one thing, in the order of the lines. -/
theorem filterMap_parseBlockLine (inner : List Line) :
    inner.filterMap parseBlockLine = (askingLines inner).map insideBlock := by
  induction inner with
  | nil => rfl
  | cons l inner ih =>
    rw [List.filterMap_cons, parseBlockLine_eq, ih, askingLines, askingLines]
    by_cases hasks : l ≠ [] ∧ l ≠ blockOpen
    · rw [if_pos hasks, List.filter_cons_of_pos (by simpa using hasks), List.map_cons]
    · rw [if_neg hasks, List.filter_cons_of_neg (by simpa using hasks)]

theorem parseChannel_eq (l : Line) (inner : List Line) :
    parseChannel l inner = blockCommand l inner := by
  rw [parseChannel, blockCommand, payloadAt, argument, argument, filterMap_parseBlockLine]
  rcases (tokens l)[1]? with _ | data
  · rfl
  rcases (tokens l)[2]? with _ | metadata <;> rfl

/-- **The commands of lines are those of their passages**, in order. -/
theorem IsDivision.parseLines_eq (h : IsDivision ls ps) :
    parseLines ls = ps.flatMap Passage.commands := by
  induction h with
  | nil => rw [parseLines, List.flatMap_nil]
  | blank _ ih =>
    rw [parseLines, if_pos List.isEmpty_nil, ih]
    rfl
  | plain hnil hclose hkey _ ih =>
    rw [parseLines, if_neg (by simpa using hnil), if_neg (by simpa using hclose),
      if_neg (by simpa using hkey), ih]
    rfl
  | stray _ ih =>
    rw [parseLines, if_neg (by decide), if_pos (by decide), ih]
    rfl
  | channel hkey hfirst _ ih =>
    rw [parseLines_channel hkey (fun l hl => ne_of_mem_of_not_mem hl hfirst), ih, parseChannel_eq]
    rfl
  | unclosed hkey hnone =>
    rw [parseLines_unclosed hkey fun l hl => ne_of_mem_of_not_mem hl hnone]
    rfl

/-- **The commands of a test are those of its passages.**  The trimmed lines behind the name line
fall apart into passages in exactly one way, the passages together are these lines, and what the
test asks for is what its passages ask for, one after the other. -/
theorem Test.commands_eq_flatMap (t : Test) :
    ∃ ps, IsDivision (t.lines.tail.map Text.trim) ps ∧
      (∀ ps', IsDivision (t.lines.tail.map Text.trim) ps' → ps' = ps) ∧
      ps.flatMap Passage.lines = t.lines.tail.map Text.trim ∧
      t.commands = ps.flatMap Passage.commands := by
  obtain ⟨ps, hps⟩ := exists_division (t.lines.tail.map Text.trim)
  exact ⟨ps, hps, fun ps' hps' => hps.eq_of hps', hps.flatMap_lines, hps.parseLines_eq⟩

end Script
end StreamConformance
