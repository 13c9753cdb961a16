import StreamConformance.Proofs.Text.Cuts
import StreamConformance.Proofs.ValueMaps

/-!
# Marble texts

A marble text has two parts, and they do not meet: what stands in front of the first delimiter says
how many signals there are and of which kind, and the value map behind it says what the items are.
So the characters of the first part are gone through one by one, each with the signal that it stands
for, and whatever map follows, only payloads differ.

* `Marble.IsCut`, `Marble.HasParts`: the parts of a text.
* `Marble.symbols`, `Marble.signalFor`: the characters that count, and what they stand for.
* `Marble.parse_eq_ok_iff`, `Marble.parse_eq_error_iff`: what is accepted, and what is refused.
* `Marble.isRead`: how marble texts are read.
-/

namespace StreamConformance

/-- A signal without its item. -/
def Signal.outline {ι : Type} : Signal ι → Signal Unit
  | .next _ => .next ()
  | .complete => .complete
  | .error message => .error message

namespace Marble

variable {text s map : String} {values : ValueMap} {fault : Fault} {signals : List (Signal Payload)}

/-! ## The parts of a text -/

/-- A text is `s` and `map` with the delimiter between them, and it is the first one. -/
structure IsCut (text s map : String) : Prop where
  text_eq : text = s ++ "&&" ++ map
  first : ∀ s' map', text = s' ++ "&&" ++ map' → s.length ≤ s'.length

/-- The parts of a text that is accepted: all of it if there is no delimiter, and else what is in
front of the first one and the value map behind it. -/
inductive HasParts (text : String) : String → ValueMap → Prop
  | plain (h : ∀ s map, text ≠ s ++ "&&" ++ map) : HasParts text text []
  | mapped {s map : String} {values : ValueMap} (cut : IsCut text s map)
      (read : readValueMap map = .ok values) : HasParts text s values

theorem eq_append_iff :
    text = s ++ "&&" ++ map ↔
      text.toList = s.toList ++ (valueMapDelimiter.chars ++ map.toList) := by
  rw [← String.toList_inj, String.toList_append, String.toList_append, List.append_assoc]
  rfl

theorem cut?_eq_some_iff :
    Text.cut? valueMapDelimiter text.toList = some (s.toList, map.toList) ↔ IsCut text s map := by
  rw [Text.cut?_eq_some_iff, ← eq_append_iff]
  constructor
  · rintro ⟨htext, hfirst⟩
    exact ⟨htext, fun s' map' h => hfirst _ _ (eq_append_iff.mp h)⟩
  · rintro ⟨htext, hfirst⟩
    refine ⟨htext, fun u v huv => ?_⟩
    have hle := hfirst (String.ofList u) (String.ofList v)
      (eq_append_iff.mpr (by rwa [String.toList_ofList, String.toList_ofList]))
    rwa [String.length_ofList] at hle

theorem cut?_eq_none_iff :
    Text.cut? valueMapDelimiter text.toList = none ↔ ∀ s map, text ≠ s ++ "&&" ++ map := by
  rw [Text.cut?_eq_none_iff]
  constructor
  · intro h s map htext
    refine h ⟨s.toList, map.toList, ?_⟩
    rw [List.append_assoc]
    exact (eq_append_iff.mp htext).symm
  · rintro h ⟨u, v, huv⟩
    refine h (String.ofList u) (String.ofList v) (eq_append_iff.mpr ?_)
    rw [String.toList_ofList, String.toList_ofList, ← List.append_assoc, huv]

/-- A text is cut in one way at most. -/
theorem IsCut.unique {s' map' : String} (h : IsCut text s map) (h' : IsCut text s' map') :
    s = s' ∧ map = map' := by
  have hsame := (cut?_eq_some_iff.mpr h).symm.trans (cut?_eq_some_iff.mpr h')
  obtain ⟨hs, hmap⟩ := Prod.mk.inj (Option.some.inj hsame)
  exact ⟨String.toList_inj.mp hs, String.toList_inj.mp hmap⟩

theorem HasParts.unique {s' : String} {values' : ValueMap} (h : HasParts text s values)
    (h' : HasParts text s' values') : s = s' ∧ values = values' := by
  cases h with
  | plain h =>
    cases h' with
    | plain => exact ⟨rfl, rfl⟩
    | mapped cut => exact absurd cut.text_eq (h _ _)
  | mapped cut read =>
    cases h' with
    | plain h' => exact absurd cut.text_eq (h' _ _)
    | mapped cut' read' =>
      obtain ⟨rfl, rfl⟩ := cut.unique cut'
      exact ⟨rfl, Except.ok.inj (read.symm.trans read')⟩

/-- There is no delimiter in front of the first one. -/
theorem HasParts.ne_append (h : HasParts text s values) (u v : String) : s ≠ u ++ "&&" ++ v := by
  cases h with
  | plain h => exact h u v
  | mapped cut =>
    rename_i map _
    intro hs
    have hle := cut.first u (v ++ "&&" ++ map) (by
      rw [cut.text_eq, hs]
      simp only [String.append_assoc])
    rw [hs, String.length_append, String.length_append] at hle
    have htwo : "&&".length = 2 := rfl
    omega

/-- What is in front of the first delimiter does not end as the delimiter begins. -/
theorem IsCut.getLast?_ne (h : IsCut text s map) : s.toList.getLast? ≠ some '&' := by
  intro hlast
  obtain ⟨u, hu⟩ := List.getLast?_eq_some_iff.mp hlast
  have hle := h.first (String.ofList u) ("&" ++ map) (by
    rw [h.text_eq, ← String.toList_inj]
    simp [hu])
  have hlength := congrArg List.length hu
  rw [String.length_ofList] at hle
  rw [String.length_toList, List.length_append, List.length_singleton] at hlength
  omega

/-- Whatever follows, a text is cut where a delimiter was put behind a text without one. -/
theorem isCut_append (hnone : ∀ u v, s ≠ u ++ "&&" ++ v) (hlast : s.toList.getLast? ≠ some '&')
    (map : String) : IsCut (s ++ "&&" ++ map) s map where
  text_eq := rfl
  first s' map' h := by
    have hlists := (eq_append_iff.mp (rfl : s ++ "&&" ++ map = _)).symm.trans (eq_append_iff.mp h)
    rcases List.append_eq_append_iff.mp hlists with ⟨t, hs', -⟩ | ⟨t, hs, hrest⟩
    · rw [← String.length_toList, ← String.length_toList, hs', List.length_append]
      exact Nat.le_add_right _ _
    · -- Both `t` and what is behind `s'` begin as the delimiter does.
      change '&' :: '&' :: map'.toList = _ at hrest
      match t with
      | [] => rw [← String.length_toList, ← String.length_toList, hs, List.append_nil]
      | [x] =>
        obtain rfl := (List.cons.inj hrest).1
        exact absurd (by simp [hs]) hlast
      | x :: y :: t =>
        obtain ⟨rfl, htail⟩ := List.cons.inj hrest
        obtain ⟨rfl, -⟩ := List.cons.inj htail
        refine absurd (eq_append_iff.mpr ?_) (hnone s' (String.ofList t))
        rw [hs, String.toList_ofList]
        rfl

/-! ## What characters stand for -/

/-- A character that stands for a signal. -/
def isSymbol (c : Char) : Bool :=
  c != '-' && !Text.isBlank c

/-- The characters of a text that stand for signals, in order. -/
def symbols (s : String) : List Char :=
  s.toList.filter isSymbol

/-- The signal that such a character stands for, with the items given by `item`. -/
def signalFor {ι : Type} (s : String) (item : Char → ι) (c : Char) : Signal ι :=
  if c = '|' then .complete
  else if c = '#' then .error ("marble error in " ++ s)
  else .next (item c)

theorem outline_signalFor {ι : Type} (s : String) (item : Char → ι) (c : Char) :
    (signalFor s item c).outline = signalFor s (fun _ => ()) c := by
  unfold signalFor
  split
  · rfl
  · split <;> rfl

theorem signalOf?_eq (values : ValueMap) (s : String) (c : Char) :
    signalOf? values s c =
      if isSymbol c then some (signalFor s (payloadOf values) c) else none := by
  by_cases htick : c = '-'
  · subst htick
    rfl
  by_cases hcomplete : c = '|'
  · subst hcomplete
    rfl
  by_cases herror : c = '#'
  · subst herror
    rfl
  cases hblank : Text.isBlank c <;>
    simp [signalOf?, isSymbol, signalFor, htick, hcomplete, herror, hblank]

theorem filterMap_signalOf? (values : ValueMap) (s : String) (cs : List Char) :
    cs.filterMap (signalOf? values s) =
      (cs.filter isSymbol).map (signalFor s (payloadOf values)) := by
  induction cs with
  | nil => rfl
  | cons c cs ih =>
    rw [List.filterMap_cons, signalOf?_eq, List.filter_cons, ih]
    cases isSymbol c <;> rfl

/-! ## What is accepted and what is refused -/

theorem parse_of_cut (h : IsCut text s map) :
    parse text =
      match readValueMap map with
      | .error cause => .error (.invalidValueMap map cause)
      | .ok values => .ok ((symbols s).map (signalFor s (payloadOf values))) := by
  rw [parse, cut?_eq_some_iff.mpr h]
  simp only [String.ofList_toList, filterMap_signalOf?]
  rfl

theorem parse_of_plain (h : ∀ s map, text ≠ s ++ "&&" ++ map) :
    parse text = .ok ((symbols text).map (signalFor text (payloadOf []))) := by
  rw [parse, cut?_eq_none_iff.mpr h]
  simp only [filterMap_signalOf?]
  rfl

theorem plain_or_isCut (text : String) :
    (∀ s map, text ≠ s ++ "&&" ++ map) ∨ ∃ s map, IsCut text s map := by
  rcases hcut : Text.cut? valueMapDelimiter text.toList with _ | ⟨s, map⟩
  · exact Or.inl (cut?_eq_none_iff.mp hcut)
  · refine Or.inr ⟨String.ofList s, String.ofList map, cut?_eq_some_iff.mp ?_⟩
    rw [hcut, String.toList_ofList, String.toList_ofList]

theorem parse_of_hasParts (h : HasParts text s values) :
    parse text = .ok ((symbols s).map (signalFor s (payloadOf values))) := by
  cases h with
  | plain h => exact parse_of_plain h
  | mapped cut read => rw [parse_of_cut cut, read]

/-- **A text is accepted exactly if it has parts**, and they say which signals it has. -/
theorem parse_eq_ok_iff :
    parse text = .ok signals ↔
      ∃ s values, HasParts text s values ∧
        signals = (symbols s).map (signalFor s (payloadOf values)) := by
  constructor
  · intro h
    rcases plain_or_isCut text with hplain | ⟨s, map, hcut⟩
    · rw [parse_of_plain hplain] at h
      exact ⟨text, [], .plain hplain, (Except.ok.inj h).symm⟩
    · rw [parse_of_cut hcut] at h
      split at h
      · cases h
      · exact ⟨s, _, .mapped hcut ‹_›, (Except.ok.inj h).symm⟩
  · rintro ⟨s, values, hparts, rfl⟩
    exact parse_of_hasParts hparts

/-- A text is refused exactly if something else than a value map is behind the first delimiter. -/
theorem parse_eq_error_iff :
    parse text = .error fault ↔
      ∃ s map cause, IsCut text s map ∧ readValueMap map = .error cause ∧
        fault = .invalidValueMap map cause := by
  constructor
  · intro h
    rcases plain_or_isCut text with hplain | ⟨s, map, hcut⟩
    · rw [parse_of_plain hplain] at h
      cases h
    · rw [parse_of_cut hcut] at h
      split at h
      · exact ⟨s, map, _, hcut, ‹_›, (Except.error.inj h).symm⟩
      · cases h
  · rintro ⟨s, map, cause, hcut, hread, rfl⟩
    rw [parse_of_cut hcut, hread]

/-! ## How marble texts are read -/

/-- How a marble text is read. -/
structure IsRead (text : String) : Prop where
  /-- The signals are those of the characters in front of the first delimiter, one for each that is
  no tick and not blank, in order.  An item is what its character means in the value map, wherever
  the character stands. -/
  signals : ∀ signals, parse text = .ok signals ↔
    ∃ s values, HasParts text s values ∧ ∃ item : Char → Payload,
      (∀ c p, Means values c p ↔ p = item c) ∧ signals = (symbols s).map (signalFor s item)
  /-- The text has these parts only. -/
  unique : ∀ s s' values values', HasParts text s values → HasParts text s' values' →
    s = s' ∧ values = values'
  /-- What is not accepted has something else than a value map behind the first delimiter. -/
  refused : ∀ fault, parse text = .error fault ↔
    ∃ s map cause, IsCut text s map ∧ readValueMap map = .error cause ∧
      fault = .invalidValueMap map cause
  /-- The number and the kinds of the signals are those of the characters alone. -/
  outline : ∀ s values, HasParts text s values → ∃ signals, parse text = .ok signals ∧
    signals.map Signal.outline = (symbols s).map (signalFor s fun _ => ())
  /-- Whatever value map is put behind the same characters, they stay the same. -/
  followed : ∀ s values, HasParts text s values → s.toList.getLast? ≠ some '&' →
    ∀ map values', readValueMap map = .ok values' →
      HasParts (s ++ "&&" ++ map) s values' ∧
        ∃ signals signals', parse text = .ok signals ∧ parse (s ++ "&&" ++ map) = .ok signals' ∧
          signals'.map Signal.outline = signals.map Signal.outline
  /-- Where there is a value map already, every other can be put in its place. -/
  maps : ∀ s map, IsCut text s map → (∃ values, readValueMap map = .ok values) →
    s.toList.getLast? ≠ some '&' ∧
      ∀ values, HasParts (s ++ "&&" ++ writeValueMap values) s values

theorem map_outline (s : String) (values : ValueMap) :
    ((symbols s).map (signalFor s (payloadOf values))).map Signal.outline =
      (symbols s).map (signalFor s fun _ => ()) := by
  rw [List.map_map]
  exact List.map_congr_left fun c _ => outline_signalFor s _ c

/-- **Marble texts are read character by character**, and no value map adds, removes or replaces a
tick, a completion or an error. -/
theorem isRead (text : String) : IsRead text where
  signals signals := by
    rw [parse_eq_ok_iff]
    refine exists₂_congr fun s values => and_congr_right fun _ => ?_
    constructor
    · rintro rfl
      exact ⟨payloadOf values, fun c p => means_iff, rfl⟩
    · rintro ⟨item, hitem, rfl⟩
      have hsame : item = payloadOf values :=
        funext fun c => means_iff.mp ((hitem c _).mpr rfl)
      rw [hsame]
  unique _ _ _ _ h h' := h.unique h'
  refused _ := parse_eq_error_iff
  outline s values h := ⟨_, parse_of_hasParts h, map_outline s values⟩
  followed s values h hlast map values' hread := by
    have hparts : HasParts (s ++ "&&" ++ map) s values' :=
      .mapped (isCut_append h.ne_append hlast map) hread
    refine ⟨hparts, _, _, parse_of_hasParts h, parse_of_hasParts hparts, ?_⟩
    rw [map_outline, map_outline]
  maps s map hcut hread := by
    obtain ⟨values, hread⟩ := hread
    have hparts : HasParts text s values := .mapped hcut hread
    exact ⟨hcut.getLast?_ne, fun values => .mapped
      (isCut_append hparts.ne_append hcut.getLast?_ne _) (readValueMap_writeValueMap values)⟩

/-- Of the pairs of an entry the one with the smallest data counts, and an empty entry is none. -/
example : parse "a-b|&&\x7b\"a\":\x7b\"z\":\"1\",\"y\":\"2\"\x7d,\"b\":\x7b\x7d\x7d" =
    .ok [.next ⟨"y", "2"⟩, .next ⟨"b", "b"⟩, .complete] := by
  cbv

end Marble
end StreamConformance
