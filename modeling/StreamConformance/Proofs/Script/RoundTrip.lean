import StreamConformance.Proofs.Script.Lines

/-!
# Writing a script and reading it

A script is written as the lines of its tests, and a test as a separator, the line with its name and
the lines of its commands.  A writer may lay these lines out as he likes: with white space at both
ends and with blank lines between them.  Whatever he does, the same tests are read.

* `LaidOut`: lines and how they stand in a text.
* `LaidOut.map_dropEndWhile`, `LaidOut.filter_map_trim`: carriage returns at the ends of lines are a
  part of the layout, and it comes off with the white space and the blank lines.
* `segments_of_laidOut`: the segments of a script are those of its tests, each laid out in its own
  way.
* `parse_laidOut`: the tests that are read are those that were written.
-/

namespace StreamConformance
namespace Script

variable {ls raws : List Line} {l raw : Line}

/-! ## Layouts -/

/-- White space of one line. -/
def IsMargin (s : List Char) : Prop :=
  ∀ c ∈ s, Text.isBlank c = true ∧ c ≠ '\n'

instance : DecidablePred IsMargin := fun s =>
  decidable_of_iff ((s.all fun c => Text.isBlank c && c != '\n') = true)
    (by simp only [IsMargin, List.all_eq_true, Bool.and_eq_true, bne_iff_ne])

/-- Lines as they stand in a text: between margins, and with blank lines anywhere. -/
inductive LaidOut : List Line → List Line → Prop where
  | nil : LaidOut [] []
  | blank {ls raws : List Line} {raw : Line} (hraw : IsMargin raw) (h : LaidOut ls raws) :
      LaidOut ls (raw :: raws)
  | line {ls raws : List Line} {l before after : Line} (hbefore : IsMargin before)
      (hafter : IsMargin after) (h : LaidOut ls raws) :
      LaidOut (l :: ls) ((before ++ (l ++ after)) :: raws)

theorem IsMargin.blank {s : List Char} (h : IsMargin s) : ∀ c ∈ s, Text.isBlank c = true :=
  fun c hc => (h c hc).1

theorem IsMargin.of_prefix {s t : List Char} (h : IsMargin s) (hts : t <+: s) : IsMargin t :=
  fun c hc => h c (hts.subset hc)

/-- A text that was laid out has no line feed within a line. -/
theorem LaidOut.oneLine (h : LaidOut ls raws) (hls : ∀ l ∈ ls, IsPlain l) :
    ∀ raw ∈ raws, '\n' ∉ raw := by
  induction h with
  | nil => exact List.forall_mem_nil _
  | blank hraw _ ih => exact List.forall_mem_cons.mpr ⟨fun hmem => (hraw _ hmem).2 rfl, ih hls⟩
  | line hbefore hafter _ ih =>
    obtain ⟨hl, hls⟩ := List.forall_mem_cons.mp hls
    refine List.forall_mem_cons.mpr ⟨fun hmem => ?_, ih hls⟩
    rcases List.mem_append.mp hmem with hmem | hmem
    · exact (hbefore _ hmem).2 rfl
    · exact (List.mem_append.mp hmem).elim hl.oneLine fun hmem => (hafter _ hmem).2 rfl

/-- Carriage returns at the ends of lines belong to their margins. -/
theorem LaidOut.map_dropEndWhile (h : LaidOut ls raws) (hls : ∀ l ∈ ls, IsPlain l) :
    LaidOut ls (raws.map (Text.dropEndWhile (· == '\r'))) := by
  induction h with
  | nil => exact .nil
  | blank hraw _ ih => exact .blank (hraw.of_prefix (Text.dropEndWhile_prefix _ _)) (ih hls)
  | @line _ _ l before after hbefore hafter _ ih =>
    obtain ⟨hl, hls⟩ := List.forall_mem_cons.mp hls
    have hlast : ∀ c ∈ (before ++ l).getLast?, (c == '\r') = false := by
      intro c hc
      rw [List.getLast?_append_of_ne_nil _ hl.ne_nil] at hc
      have hblank := hl.trimmed.2 c hc
      rw [beq_eq_false_iff_ne]
      rintro rfl
      exact absurd hblank (by decide)
    rw [List.map_cons, ← List.append_assoc, Text.dropEndWhile_append_eq hlast, List.append_assoc]
    exact .line hbefore (hafter.of_prefix (Text.dropEndWhile_prefix _ _)) (ih hls)

/-- An empty line at the end can be left out. -/
theorem LaidOut.of_concat_nil (hls : ∀ l ∈ ls, IsPlain l) (h : LaidOut ls (raws ++ [[]])) :
    LaidOut ls raws := by
  generalize hraws : raws ++ [[]] = raws' at h
  induction h generalizing raws with
  | nil => exact absurd (List.append_eq_nil_iff.mp hraws).2 (List.cons_ne_nil _ _)
  | blank hraw h ih =>
    cases raws with
    | nil =>
      cases hraws
      exact h
    | cons raw raws =>
      cases hraws
      exact .blank hraw (ih hls rfl)
  | @line _ _ l before after hbefore hafter h ih =>
    obtain ⟨hl, hls⟩ := List.forall_mem_cons.mp hls
    cases raws with
    | nil =>
      obtain ⟨hempty, -⟩ := List.cons.inj hraws
      have hnil := (List.append_eq_nil_iff.mp hempty.symm).2
      exact absurd (List.append_eq_nil_iff.mp hnil).1 hl.ne_nil
    | cons raw raws =>
      obtain ⟨hraw, hrest⟩ := List.cons.inj hraws
      rw [hraw]
      exact .line hbefore hafter (ih hls hrest)

/-- **The layout comes off with white space and blank lines.** -/
theorem LaidOut.filter_map_trim (h : LaidOut ls raws) (hls : ∀ l ∈ ls, IsPlain l) :
    (raws.map Text.trim).filter (fun l => !l.isEmpty) = ls := by
  induction h with
  | nil => rfl
  | blank hraw _ ih =>
    rw [List.map_cons, Text.trim_of_blank hraw.blank, List.filter_cons_of_neg (by decide), ih hls]
  | @line _ _ l _ _ hbefore hafter _ ih =>
    obtain ⟨hl, hls⟩ := List.forall_mem_cons.mp hls
    rw [List.map_cons, Text.trim_pad hbefore.blank hafter.blank hl.trimmed,
      List.filter_cons_of_pos (by simpa using hl.ne_nil), ih hls]

/-! ## Tests -/

/-- The lines of a test behind its separator. -/
def bodyLines (test : String × List Command) : List Line :=
  line ["name", test.1] :: test.2.flatMap Command.lines

/-- The lines of tests. -/
def scriptLines (tests : List (String × List Command)) : List Line :=
  tests.flatMap fun test => separator :: bodyLines test

/-- A test that can be written: its name is clean and its commands can be written. -/
def IsWritableTest (test : String × List Command) : Prop :=
  IsClean test.1 ∧ ∀ c ∈ test.2, c.IsWritable

instance : DecidablePred IsWritableTest :=
  fun test => inferInstanceAs (Decidable (IsClean test.1 ∧ ∀ c ∈ test.2, c.IsWritable))

variable {test : String × List Command} {tests : List (String × List Command)} {text : String}

theorem isClean_name (h : IsWritableTest test) : ∀ t ∈ ["name", test.1], IsClean t := by
  simp only [List.forall_mem_cons, List.not_mem_nil, IsEmpty.forall_iff, implies_true, and_true]
  exact ⟨by decide +kernel, h.1⟩

theorem isPlain_bodyLines (h : IsWritableTest test) :
    ∀ l ∈ bodyLines test, IsPlain l ∧ l ≠ separator := by
  refine List.forall_mem_cons.mpr ⟨⟨isPlain_line (isClean_name h) ⟨'n', rfl, rfl⟩, ?_⟩, ?_⟩
  · intro heq
    have hkey := keyword_line (isClean_name h)
    rw [heq] at hkey
    revert hkey
    decide +kernel
  · intro l hl
    obtain ⟨c, hc, hl⟩ := List.mem_flatMap.mp hl
    exact isPlain_lines (h.2 c hc) l hl

theorem isPlain_separator : IsPlain separator :=
  ⟨by decide, by decide, by decide⟩

theorem isPlain_scriptLines (h : ∀ test ∈ tests, IsWritableTest test) :
    ∀ l ∈ scriptLines tests, IsPlain l := by
  intro l hl
  obtain ⟨test, htest, hl⟩ := List.mem_flatMap.mp hl
  rcases List.mem_cons.mp hl with rfl | hl
  · exact isPlain_separator
  · exact (isPlain_bodyLines (h test htest) l hl).1

theorem isSeparator_pad {before after : Line} (hbefore : IsMargin before) (hafter : IsMargin after)
    (hl : IsPlain l) : isSeparator (before ++ (l ++ after)) = (l == separator) := by
  rw [isSeparator, Text.trim_pad hbefore.blank hafter.blank hl.trimmed]

theorem segments_of_isSeparator (h : isSeparator raw = true) (raws : List Line) :
    segments (raw :: raws) = ([], (segments raws).1 :: (segments raws).2) := by
  rw [segments]
  dsimp only
  rw [if_pos h]

theorem segments_of_not_isSeparator (h : isSeparator raw = false) (raws : List Line) :
    segments (raw :: raws) = (raw :: (segments raws).1, (segments raws).2) := by
  rw [segments]
  dsimp only
  rw [if_neg (by rw [h]; exact Bool.false_ne_true)]

/-- **The segments of a script are those of its tests.**  Behind the lines `before` comes the first
separator. -/
theorem segments_of_laidOut {before : List Line} (hbefore : ∀ l ∈ before, IsPlain l ∧ l ≠ separator)
    (htests : ∀ test ∈ tests, IsWritableTest test)
    (h : LaidOut (before ++ scriptLines tests) raws) :
    LaidOut before (segments raws).1 ∧
      List.Forall₂ (fun test segment => LaidOut (bodyLines test) segment) tests
        (segments raws).2 := by
  generalize hls : before ++ scriptLines tests = ls at h
  induction h generalizing before tests with
  | nil =>
    obtain ⟨rfl, htests'⟩ := List.append_eq_nil_iff.mp hls
    cases tests with
    | nil => exact ⟨.nil, .nil⟩
    | cons test tests => cases htests'
  | @blank _ _ raw hraw h ih =>
    have hsep : isSeparator raw = false := by
      rw [isSeparator, Text.trim_of_blank hraw.blank]
      rfl
    obtain ⟨hfirst, hlater⟩ := ih hbefore htests hls
    rw [segments_of_not_isSeparator hsep]
    exact ⟨.blank hraw hfirst, hlater⟩
  | @line _ _ l left right hleft hright h ih =>
    cases before with
    | cons l' before =>
      obtain ⟨rfl, hrest⟩ := List.cons.inj hls
      obtain ⟨⟨hl, hne⟩, hbefore⟩ := List.forall_mem_cons.mp hbefore
      have hsep : isSeparator (left ++ (l' ++ right)) = false := by
        rw [isSeparator_pad hleft hright hl, beq_eq_false_iff_ne]
        exact hne
      obtain ⟨hfirst, hlater⟩ := ih hbefore htests hrest
      rw [segments_of_not_isSeparator hsep]
      exact ⟨.line hleft hright hfirst, hlater⟩
    | nil =>
      cases tests with
      | nil => cases hls
      | cons test tests =>
        obtain ⟨htest, htests⟩ := List.forall_mem_cons.mp htests
        obtain ⟨rfl, hrest⟩ := List.cons.inj hls
        have hsep : isSeparator (left ++ (separator ++ right)) = true := by
          rw [isSeparator_pad hleft hright isPlain_separator, beq_self_eq_true]
        obtain ⟨hfirst, hlater⟩ := ih (isPlain_bodyLines htest) htests hrest
        rw [segments_of_isSeparator hsep]
        exact ⟨.nil, .cons hfirst hlater⟩

theorem isBlankText_pad {before after : Line} (hl : IsPlain l) :
    Text.isBlankText (before ++ (l ++ after)) = false := by
  obtain ⟨c, l', rfl⟩ := List.exists_cons_of_ne_nil hl.ne_nil
  have hc : Text.isBlank c = false := hl.trimmed.1 c rfl
  refine List.all_eq_false.mpr ⟨c, ?_, by rw [hc]; exact Bool.false_ne_true⟩
  exact List.mem_append_right _ List.mem_cons_self

/-- The first line that is not blank, and the layout of the lines behind it. -/
theorem LaidOut.exists_first (h : LaidOut (l :: ls) raws) (hl : IsPlain l) :
    ∃ before after rest, raws.dropWhile Text.isBlankText = (before ++ (l ++ after)) :: rest ∧
      IsMargin before ∧ IsMargin after ∧ LaidOut ls rest := by
  generalize hls : l :: ls = ls' at h
  induction h with
  | nil => cases hls
  | @blank _ _ raw hraw h ih =>
    have hblank : Text.isBlankText raw = true := List.all_eq_true.mpr hraw.blank
    rw [List.dropWhile_cons_of_pos hblank]
    exact ih hls
  | @line _ _ _ before after hbefore hafter h =>
    cases hls
    refine ⟨before, after, _, List.dropWhile_cons_of_neg ?_, hbefore, hafter, h⟩
    rw [isBlankText_pad hl]
    exact Bool.false_ne_true

/-- **The name and the commands of a test are read from its segment.** -/
theorem ofLines_of_laidOut (htest : IsWritableTest test) {segment : List Line}
    (h : LaidOut (bodyLines test) segment) :
    (segment.any fun line => !Text.isBlankText line) = true ∧
      ((Test.ofLines segment).name, (Test.ofLines segment).commands) = test := by
  have hplain := (isPlain_bodyLines htest _ List.mem_cons_self).1
  obtain ⟨before, after, rest, hdrop, hbefore, hafter, hrest⟩ := h.exists_first hplain
  have hmem : before ++ (line ["name", test.1] ++ after) ∈ segment := by
    refine (List.dropWhile_suffix Text.isBlankText).subset ?_
    rw [hdrop]
    exact List.mem_cons_self
  have hname : (tokens (Text.trim (before ++ (line ["name", test.1] ++ after))))[1]? =
      some test.1 := by
    rw [Text.trim_pad hbefore.blank hafter.blank hplain.trimmed,
      tokens_line (List.cons_ne_nil _ _) (isClean_name htest)]
    rfl
  have hcommands : parseLines (rest.map Text.trim) = test.2 := by
    have hlines : ∀ l ∈ test.2.flatMap Command.lines, IsPlain l := fun l hl =>
      (isPlain_bodyLines htest l (List.mem_cons_of_mem _ hl)).1
    rw [← parseLines_filter, hrest.filter_map_trim hlines, parseLines_flatMap htest.2]
  constructor
  · exact List.any_eq_true.mpr ⟨_, hmem, by rw [isBlankText_pad hplain]; rfl⟩
  · refine Prod.ext ?_ ?_
    · change (((segment.dropWhile Text.isBlankText).head?.bind fun line =>
        (tokens (Text.trim line))[1]?)).getD "" = test.1
      rw [hdrop, List.head?_cons, Option.bind_some, hname]
      rfl
    · change parseLines ((segment.dropWhile Text.isBlankText).tail.map Text.trim) = test.2
      rw [hdrop, List.tail_cons, hcommands]

/-! ## Scripts -/

/-- The lines that are read from a text are the lines that were written, laid out. -/
theorem laidOut_linesOf (hls : ∀ l ∈ ls, IsPlain l) (h : LaidOut ls raws)
    (htext : text.toList = Text.unlines raws ∨ text.toList ++ ['\n'] = Text.unlines raws) :
    LaidOut ls (linesOf text) := by
  have hone := h.oneLine hls
  have hlines : LaidOut ls (Text.lines text.toList) := by
    rcases htext with htext | htext
    · rw [htext, Text.lines_unlines hone]
      exact h
    · rcases Text.lines_of_concat hone htext with heq | heq
      · rw [heq]
        exact h
      · rw [← heq] at h
        exact h.of_concat_nil hls
  exact hlines.map_dropEndWhile hls

/-- **The tests that are read are those that were written**, in order and with all their commands.
The last line may end with a line feed or not. -/
theorem parse_laidOut (tests : List (String × List Command))
    (htests : ∀ test ∈ tests, IsWritableTest test) (raws : List Line)
    (h : LaidOut (scriptLines tests) raws) (text : String)
    (htext : text.toList = Text.unlines raws ∨ text.toList ++ ['\n'] = Text.unlines raws) :
    (parse text).map (fun test => (test.name, test.commands)) = tests := by
  have hlaid := laidOut_linesOf (isPlain_scriptLines htests) h htext
  have hsegments := (segments_of_laidOut (List.forall_mem_nil _) htests hlaid).2
  rw [parse]
  generalize (segments (linesOf text)).2 = later at hsegments
  clear h htext hlaid
  induction hsegments with
  | nil => rfl
  | @cons test segment tests later hfirst _ ih =>
    obtain ⟨htest, htests⟩ := List.forall_mem_cons.mp htests
    obtain ⟨hany, heq⟩ := ofLines_of_laidOut htest hfirst
    have hfilter : (segment :: later).filter (fun s => s.any fun l => !Text.isBlankText l) =
        segment :: later.filter fun s => s.any fun l => !Text.isBlankText l :=
      List.filter_cons_of_pos hany
    rw [hfilter, List.map_cons, List.map_cons, heq, ih htests]

/-- A test of a stream, and one without a name that opens two channels. -/
def streamAndChannels : List (String × List Command) :=
  [("stream", [.single (.subscribe .requestStream "s1" ⟨"%a b", ""⟩), .single (.take 3 "s1"),
      .single (.await "s1" (.noEvents 250)),
      .single (.assert "s1" (.received [⟨"%b", "&c,d"⟩, ⟨"", "e"⟩])), .single .eof]),
    ("", [.channel ⟨"", ""⟩ [.request 18446744073709551615 "ch", .fail], .channel ⟨"f", "!"⟩ []])]

/-- The lines of these tests with margins and blank lines. -/
def streamAndChannelsLaidOut : List Line :=
  [[] ++ (separator ++ []), [] ++ (line ["name", "stream"] ++ [' ', '\r']), ['\t'],
    [' '] ++ (line ["subscribe", "rs", "s1", "%a b", ""] ++ []),
    [] ++ (line ["take", numeral 3, "s1"] ++ ['\r']),
    [] ++ (line ["await", "no_events", "s1", numeral 250] ++ []),
    [] ++ (line ["assert", "received", "s1", listed [⟨"%b", "&c,d"⟩, ⟨"", "e"⟩]] ++ []), [],
    [] ++ (line ["EOF"] ++ []), [],
    [' '] ++ (separator ++ []), [], [] ++ (line ["name", ""] ++ []),
    [] ++ (line ["channel", "", ""] ++ []), [] ++ (blockOpen ++ []), [],
    ['\t'] ++ (line ["request", numeral 18446744073709551615, "ch"] ++ []),
    ['\t'] ++ (line ["fail"] ++ []), [] ++ (blockClose ++ ['\t']),
    [] ++ (line ["channel", "f", "!"] ++ []), [' '] ++ (blockOpen ++ []),
    [' '] ++ (blockClose ++ [])]

/-- The same as one text, without a line feed at its end. -/
def streamAndChannelsText : String :=
  "!\nname%%stream \r\n\t\n subscribe%%rs%%s1%%%a b%%\ntake%%3%%s1\r\n" ++
    "await%%no_events%%s1%%250\nassert%%received%%s1%%%b,&c,d&&,e\n\nEOF\n\n !\n\nname%%\n" ++
    "channel%%%%\n\x7b\n\n\trequest%%18446744073709551615%%ch\n\tfail\n\x7d\t\n" ++
    "channel%%f%%!\n \x7b\n \x7d"

theorem parse_streamAndChannelsText :
    (∀ test ∈ streamAndChannels, IsWritableTest test) ∧
      LaidOut (scriptLines streamAndChannels) streamAndChannelsLaidOut ∧
      streamAndChannelsText.toList ++ ['\n'] = Text.unlines streamAndChannelsLaidOut ∧
      (parse streamAndChannelsText).map (fun test => (test.name, test.commands)) =
        streamAndChannels := by
  have htests : ∀ test ∈ streamAndChannels, IsWritableTest test := by
    decide +kernel
  have hlaid : LaidOut (scriptLines streamAndChannels) streamAndChannelsLaidOut :=
    .line (by decide) (by decide) <| .line (by decide) (by decide) <| .blank (by decide) <|
      .line (by decide) (by decide) <| .line (by decide) (by decide) <|
      .line (by decide) (by decide) <| .line (by decide) (by decide) <| .blank (by decide) <|
      .line (by decide) (by decide) <| .blank (by decide) <|
      .line (by decide) (by decide) <| .blank (by decide) <| .line (by decide) (by decide) <|
      .line (by decide) (by decide) <| .line (by decide) (by decide) <| .blank (by decide) <|
      .line (by decide) (by decide) <| .line (by decide) (by decide) <|
      .line (by decide) (by decide) <| .line (by decide) (by decide) <|
      .line (by decide) (by decide) <| .line (by decide) (by decide) .nil
  have htext : streamAndChannelsText.toList ++ ['\n'] = Text.unlines streamAndChannelsLaidOut := by
    decide +kernel
  exact ⟨htests, hlaid, htext, parse_laidOut streamAndChannels htests streamAndChannelsLaidOut hlaid
    streamAndChannelsText (Or.inr htext)⟩

end Script
end StreamConformance
