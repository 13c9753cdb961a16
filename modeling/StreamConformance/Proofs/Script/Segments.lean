import StreamConformance.Proofs.Script.RoundTrip

/-!
# The tests of a script

How a script falls apart into tests.  A script is written as segments of lines: any lines whatever,
with a separator in front of every segment but the first, and with any number of carriage returns and
a line feed behind every line.  What is read from it are the tests of its segments, each from the
lines of its own segment alone.  A segment of blank lines has no test, and what stands in front of
the first separator has none either.

* `SegmentLine`, `SeparatorLine`, `scriptText`: the text of segments.
* `linesOf_scriptText`: the lines that are read are those that were written.
* `segments_append`: the segments that are read are those that were written.
* `IsTestOf`, `isTestOf_ofLines`: the lines, the name and the commands of the test of a segment.
* `parse_scriptText`: the tests of a script.
-/

namespace StreamConformance
namespace Script

/-! ## The text of segments -/

/-- A line of a segment, and the number of carriage returns that are written behind it. -/
structure SegmentLine where
  line : Line
  returns : Nat
  oneLine : '\n' ∉ line
  not_separator : Text.trim line ≠ separator

/-- A line between segments, and the number of carriage returns that are written behind it. -/
structure SeparatorLine where
  line : Line
  returns : Nat
  oneLine : '\n' ∉ line
  separates : Text.trim line = separator

/-- A line with carriage returns behind it. -/
def returned (l : Line) (returns : Nat) : Line :=
  l ++ List.replicate returns '\r'

/-- A line without the carriage returns at its end. -/
def unreturned (l : Line) : Line :=
  Text.dropEndWhile (· == '\r') l

/-- The lines of a segment, without the carriage returns at their ends. -/
def segmentOf (segment : List SegmentLine) : List Line :=
  segment.map fun l => unreturned l.line

/-- The lines of a script as they are written, up to their line feeds. -/
def writtenLines (first : List SegmentLine) (later : List (SeparatorLine × List SegmentLine)) :
    List Line :=
  first.map (fun l => returned l.line l.returns) ++
    later.flatMap fun p =>
      returned p.1.line p.1.returns :: p.2.map fun l => returned l.line l.returns

/-- The text of a script: its first segment, and every later one with a separator in front of it. -/
def scriptText (first : List SegmentLine) (later : List (SeparatorLine × List SegmentLine)) :
    String :=
  String.ofList (Text.unlines (writtenLines first later))

variable {first : List SegmentLine} {later : List (SeparatorLine × List SegmentLine)}
  {l raw : Line} {ls : List Line} {segment : List Line}

/-! ## Carriage returns -/

theorem unreturned_returned (l : Line) (returns : Nat) :
    unreturned (returned l returns) = unreturned l := by
  refine Text.dropEndWhile_append (fun c hc => ?_) l
  rw [List.eq_of_mem_replicate hc]
  rfl

theorem lineFeed_not_mem_returned (h : '\n' ∉ l) (returns : Nat) : '\n' ∉ returned l returns := by
  intro hmem
  rcases List.mem_append.mp hmem with hmem | hmem
  · exact h hmem
  · exact absurd (List.eq_of_mem_replicate hmem) (by decide)

theorem trim_unreturned (l : Line) : Text.trim (unreturned l) = Text.trim l := by
  have hblank : ∀ c ∈ List.rtakeWhile (· == '\r') l, Text.isBlank c = true := by
    intro c hc
    have hreturn : (c == '\r') = true := List.mem_rtakeWhile_imp (p := (· == '\r')) hc
    rw [beq_iff_eq.mp hreturn]
    rfl
  have hwhole : unreturned l ++ List.rtakeWhile (· == '\r') l = l :=
    List.rdropWhile_append_rtakeWhile
  conv_rhs => rw [← hwhole, Text.trim_append_blank hblank]

theorem SegmentLine.isSeparator_unreturned (l : SegmentLine) :
    isSeparator (unreturned l.line) = false := by
  rw [isSeparator, trim_unreturned, beq_eq_false_iff_ne]
  exact l.not_separator

theorem SeparatorLine.isSeparator_unreturned (l : SeparatorLine) :
    isSeparator (unreturned l.line) = true := by
  rw [isSeparator, trim_unreturned, l.separates, beq_self_eq_true]

/-- **The lines that are read are those that were written**, whatever ends them. -/
theorem linesOf_scriptText (first : List SegmentLine)
    (later : List (SeparatorLine × List SegmentLine)) :
    linesOf (scriptText first later) =
      segmentOf first ++ later.flatMap fun p => unreturned p.1.line :: segmentOf p.2 := by
  have hone : ∀ raw ∈ writtenLines first later, '\n' ∉ raw := by
    intro raw hraw
    rcases List.mem_append.mp hraw with hraw | hraw
    · obtain ⟨l, -, rfl⟩ := List.mem_map.mp hraw
      exact lineFeed_not_mem_returned l.oneLine _
    · obtain ⟨p, -, hraw⟩ := List.mem_flatMap.mp hraw
      rcases List.mem_cons.mp hraw with rfl | hraw
      · exact lineFeed_not_mem_returned p.1.oneLine _
      · obtain ⟨l, -, rfl⟩ := List.mem_map.mp hraw
        exact lineFeed_not_mem_returned l.oneLine _
  have hsegment : ∀ segment : List SegmentLine,
      (segment.map fun l => returned l.line l.returns).map unreturned = segmentOf segment := by
    intro segment
    rw [List.map_map]
    exact List.map_congr_left fun l _ => unreturned_returned l.line l.returns
  rw [linesOf, scriptText, String.toList_ofList, Text.lines_unlines hone, writtenLines,
    List.map_append, List.map_flatMap]
  change (first.map _).map unreturned ++ later.flatMap (fun p => (_ :: _).map unreturned) = _
  rw [hsegment]
  congr 1
  refine List.flatMap_congr fun p _ => ?_
  rw [List.map_cons, unreturned_returned, hsegment]

/-! ## Segments -/

/-- Lines that do not separate belong to the segment that they stand in. -/
theorem segments_append (h : ∀ l ∈ ls, isSeparator l = false) (raws : List Line) :
    segments (ls ++ raws) = (ls ++ (segments raws).1, (segments raws).2) := by
  induction ls with
  | nil => rfl
  | cons l ls ih =>
    obtain ⟨hl, hls⟩ := List.forall_mem_cons.mp h
    rw [List.cons_append, segments_of_not_isSeparator hl, ih hls, List.cons_append]

/-- **The segments that are read are those that were written.** -/
theorem segments_scriptText (first : List SegmentLine)
    (later : List (SeparatorLine × List SegmentLine)) :
    segments (segmentOf first ++ later.flatMap fun p => unreturned p.1.line :: segmentOf p.2) =
      (segmentOf first, later.map fun p => segmentOf p.2) := by
  have hinside : ∀ segment : List SegmentLine, ∀ l ∈ segmentOf segment, isSeparator l = false := by
    intro segment
    rw [segmentOf, List.forall_mem_map]
    exact fun l _ => l.isSeparator_unreturned
  induction later generalizing first with
  | nil => rw [List.flatMap_nil, segments_append (hinside first), segments, List.append_nil,
      List.map_nil]
  | cons p later ih =>
    rw [segments_append (hinside first), List.flatMap_cons, List.cons_append,
      segments_of_isSeparator p.1.isSeparator_unreturned, ih p.2, List.append_nil, List.map_cons]

/-! ## The test of a segment -/

/-- A segment with a line that is not blank. -/
def hasText (segment : List Line) : Bool :=
  segment.any fun l => !Text.isBlankText l

/-- A test is that of a segment.  It begins with the first line that is not blank, has the second
token of this line as its name, and is asked for what the lines behind it ask for. -/
def IsTestOf (segment : List Line) (t : Test) : Prop :=
  ∃ blanks nameLine behind, segment = blanks ++ nameLine :: behind ∧
    (∀ l ∈ blanks, Text.isBlankText l = true) ∧ Text.isBlankText nameLine = false ∧
    t.lines = nameLine :: behind ∧
    t.name = ((tokens (Text.trim nameLine))[1]?).getD "" ∧
    t.commands = parseLines (behind.map Text.trim)

theorem isTestOf_ofLines (h : hasText segment = true) :
    IsTestOf segment (Test.ofLines segment) := by
  obtain ⟨l, hl, hblank⟩ := List.any_eq_true.mp h
  have hne : segment.dropWhile Text.isBlankText ≠ [] := by
    intro hnil
    rw [List.dropWhile_eq_nil_iff.mp hnil l hl] at hblank
    cases hblank
  obtain ⟨nameLine, behind, hdrop⟩ := List.exists_cons_of_ne_nil hne
  have hname : Text.isBlankText nameLine = false := by
    have hhead := List.head_dropWhile_not Text.isBlankText hne
    simpa [hdrop] using hhead
  have hlines : (Test.ofLines segment).lines = nameLine :: behind := hdrop
  refine ⟨segment.takeWhile Text.isBlankText, nameLine, behind, ?_,
    fun l hl => List.mem_takeWhile_imp hl, hname, hlines, ?_, ?_⟩
  · rw [← hdrop, List.takeWhile_append_dropWhile]
  · change (((segment.dropWhile Text.isBlankText).head?.bind fun line =>
      (tokens (Text.trim line))[1]?)).getD "" = _
    rw [hdrop, List.head?_cons, Option.bind_some]
  · rw [Test.commands, hlines, List.tail_cons]

/-- **The tests of a script are those of its segments.**  Every segment behind the first that has a
line that is not blank has one test, in the order of the segments, and nothing but the lines of this
segment, without the carriage returns at their ends, decides what this test is. -/
theorem parse_scriptText (first : List SegmentLine)
    (later : List (SeparatorLine × List SegmentLine)) :
    parse (scriptText first later) =
        ((later.map fun p => segmentOf p.2).filter hasText).map Test.ofLines ∧
      List.Forall₂ IsTestOf ((later.map fun p => segmentOf p.2).filter hasText)
        (parse (scriptText first later)) := by
  have hparse : parse (scriptText first later) =
      ((later.map fun p => segmentOf p.2).filter hasText).map Test.ofLines := by
    rw [parse, linesOf_scriptText, segments_scriptText]
    rfl
  refine ⟨hparse, ?_⟩
  rw [hparse, List.forall₂_map_right_iff, List.forall₂_same]
  exact fun segment hsegment => isTestOf_ofLines (List.mem_filter.mp hsegment).2

/-- What is noted in front of the first separator of a script, a name among it. -/
def preface : List SegmentLine :=
  [⟨"name%%preface".toList, 1, by decide, by decide⟩, ⟨"!!".toList, 0, by decide, by decide⟩]

/-- Four segments with separators in front of them: a test behind a blank line, blank lines, a test
without a name, and nothing. -/
def untidy : List (SeparatorLine × List SegmentLine) :=
  [(⟨"!".toList, 1, by decide, by decide⟩,
      [⟨" ".toList, 1, by decide, by decide⟩, ⟨" name%%one%%two ".toList, 2, by decide, by decide⟩,
        ⟨"pass\r".toList, 0, by decide, by decide⟩]),
    (⟨" !\t".toList, 2, by decide, by decide⟩,
      [⟨[], 1, by decide, by decide⟩, ⟨"\t ".toList, 0, by decide, by decide⟩]),
    (⟨"\r !".toList, 0, by decide, by decide⟩,
      [⟨"fail".toList, 0, by decide, by decide⟩, ⟨[], 0, by decide, by decide⟩]),
    (⟨"!\r".toList, 0, by decide, by decide⟩, [])]

theorem parse_untidy :
    scriptText preface untidy =
        "name%%preface\r\n!!\n!\r\n \r\n name%%one%%two \r\r\npass\r\n !\t\r\r\n\r\n\t \n" ++
          "\r !\nfail\n\n!\r\n" ∧
      (parse (scriptText preface untidy)).map (fun test => (test.name, test.lines)) =
        [("one", [" name%%one%%two ".toList, "pass".toList]), ("", ["fail".toList, []])] ∧
      List.Forall₂ IsTestOf
        [[" ".toList, " name%%one%%two ".toList, "pass".toList], ["fail".toList, []]]
        (parse (scriptText preface untidy)) := by
  obtain ⟨hparse, htests⟩ := parse_scriptText preface untidy
  have hsegments : (untidy.map fun p => segmentOf p.2).filter hasText =
      [[" ".toList, " name%%one%%two ".toList, "pass".toList], ["fail".toList, []]] := by
    decide
  rw [hsegments] at hparse htests
  refine ⟨by decide, ?_, htests⟩
  rw [hparse]
  decide +kernel

end Script
end StreamConformance
