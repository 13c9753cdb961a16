import StreamConformance.Endpoint
import StreamConformance.Proofs.Text.Cuts

/-!
# The uris of endpoints

A uri falls apart in one way: behind the scheme the authority goes up to the first slash, and the
port stands behind the last colon of the authority.  What is in front of that colon may have colons
of its own, and brackets around them; all brackets at its ends that open or close in the right
direction come off, whether they match or not.

So the text of an endpoint, which has no brackets, is read as that endpoint: there is nothing at the
ends of its host that would come off once more.

* `Text.IsBracketed`, `Text.stripBrackets_eq_iff`: brackets that come off.
* `Endpoint.IsNamedBy`: the uris of an endpoint.
* `Endpoint.parse_eq_ok_iff`: they are the texts that are read as it.
* `Endpoint.IsNamedBy.text`: and so is its own text.
* `Endpoint.readsUri`: how uris are read.
-/

namespace StreamConformance
namespace Text

variable {bare s : List Char}

/-! ## Brackets -/

/-- Brackets around a text that come off: those that open at its front and those that close at its
end.  What is left neither begins with the one kind nor ends with the other. -/
structure IsBracketed (bare s : List Char) : Prop where
  around : ∃ opened closed, s = List.replicate opened '[' ++ (bare ++ List.replicate closed ']')
  front : ∀ c ∈ bare.head?, c ≠ '['
  back : ∀ c ∈ bare.getLast?, c ≠ ']'

/-- Brackets come off once. -/
theorem IsBracketed.refl_of (h : IsBracketed bare s) : IsBracketed bare bare where
  around := ⟨0, 0, by simp⟩
  front := h.front
  back := h.back

/-- Taking brackets off leaves something exactly if there is something in the brackets. -/
theorem stripBrackets_eq_iff (hne : bare ≠ []) :
    dropEndWhile (· == ']') (s.dropWhile (· == '[')) = bare ↔ IsBracketed bare s := by
  constructor
  · rintro rfl
    obtain ⟨rest, hrest⟩ : ∃ rest, rest = s.dropWhile (· == '[') := ⟨_, rfl⟩
    rw [← hrest] at hne ⊢
    have hopening : s.takeWhile (· == '[') =
        List.replicate (s.takeWhile (· == '[')).length '[' :=
      List.eq_replicate_iff.mpr ⟨rfl, fun c hc =>
        beq_iff_eq.mp (List.mem_takeWhile_imp (p := (· == '[')) hc)⟩
    have hclosing : rest.rtakeWhile (· == ']') =
        List.replicate (rest.rtakeWhile (· == ']')).length ']' :=
      List.eq_replicate_iff.mpr ⟨rfl, fun c hc =>
        beq_iff_eq.mp (List.mem_rtakeWhile_imp (p := (· == ']')) hc)⟩
    refine ⟨⟨(s.takeWhile (· == '[')).length, (rest.rtakeWhile (· == ']')).length, ?_⟩,
      fun c hc => ?_, fun c hc => ?_⟩
    · calc s = s.takeWhile (· == '[') ++ rest := by
            rw [hrest, List.takeWhile_append_dropWhile]
        _ = s.takeWhile (· == '[') ++
              (dropEndWhile (· == ']') rest ++ rest.rtakeWhile (· == ']')) :=
            congrArg _ List.rdropWhile_append_rtakeWhile.symm
        _ = _ := by rw [← hopening, ← hclosing]
    · -- What is left begins as the text without its opening brackets does.
      have hhead := List.head?_dropWhile_not (· == '[') s
      obtain ⟨t, ht⟩ := dropEndWhile_prefix (· == ']') rest
      rw [← hrest, ← ht, List.head?_append_of_ne_nil _ hne, Option.mem_def.mp hc] at hhead
      simpa using hhead
    · have hlast : ¬ ((dropEndWhile (· == ']') rest).getLast hne == ']') = true :=
        List.rdropWhile_last_not (· == ']') rest hne
      rw [List.getLast?_eq_some_getLast hne] at hc
      obtain rfl := Option.some.inj hc
      simpa using hlast
  · rintro ⟨⟨opened, closed, rfl⟩, hfront, hback⟩
    have hopen : ∀ c ∈ List.replicate opened '[', (c == '[') = true := fun c hc =>
      beq_iff_eq.mpr (List.eq_of_mem_replicate hc)
    have hclose : ∀ c ∈ List.replicate closed ']', (c == ']') = true := fun c hc =>
      beq_iff_eq.mpr (List.eq_of_mem_replicate hc)
    obtain ⟨x, bare, rfl⟩ := List.exists_cons_of_ne_nil hne
    rw [List.dropWhile_append_of_pos hopen, List.cons_append,
      List.dropWhile_cons_of_neg (by simpa using hfront x rfl), ← List.cons_append,
      dropEndWhile_append hclose,
      dropEndWhile_eq_self fun c hc => beq_eq_false_iff_ne.mpr (hback c hc)]

end Text

namespace Endpoint

open Text (IsBracketed IsNumeral)

variable {e : Endpoint} {uri : String} {authority : List Char}

/-! ## What a uri names -/

/-- An endpoint is written as a host, perhaps in brackets, and the numeral of a port. -/
structure IsWritten (e : Endpoint) (host port : List Char) : Prop where
  host : IsBracketed e.host.toList host
  host_ne : e.host ≠ ""
  no_colon : ':' ∉ port
  port : IsNumeral port e.port
  port_le : e.port ≤ 65535

/-- A uri names an endpoint: behind the scheme, and up to the first slash or the end, the endpoint
is written with a colon between host and port. -/
def IsNamedBy (e : Endpoint) (uri : String) : Prop :=
  ∃ host port path, uri.toList = "tcp://".toList ++ (host ++ ':' :: port ++ path) ∧
    '/' ∉ host ++ ':' :: port ∧ (∀ c ∈ path.head?, c = '/') ∧ e.IsWritten host port

theorem ofAuthority?_eq_some_iff :
    ofAuthority? authority = some e ↔
      ∃ host port, authority = host ++ ':' :: port ∧ e.IsWritten host port := by
  unfold ofAuthority?
  split
  · rename_i hcut
    refine iff_of_false (by simp) ?_
    rintro ⟨host, port, hparts, h⟩
    rw [Text.cutLast?_eq_some_iff.mpr ⟨hparts, h.no_colon⟩] at hcut
    cases hcut
  · rename_i host port hcut
    obtain ⟨hparts, hcolon⟩ := Text.cutLast?_eq_some_iff.mp hcut
    dsimp only
    constructor
    · intro h
      split at h
      · cases h
      · rename_i hempty
        obtain ⟨n, hn, rfl⟩ := Option.map_eq_some_iff.mp h
        obtain ⟨hnumeral, hle⟩ := Text.numeralUpTo?_eq_some_iff.mp hn
        have hne := mt List.isEmpty_iff.mpr hempty
        refine ⟨host, port, hparts, ?_, by simpa using hne, hcolon, hnumeral, hle⟩
        rw [String.toList_ofList]
        exact (Text.stripBrackets_eq_iff hne).mp rfl
    · rintro ⟨host', port', hparts', h⟩
      have hsame := Text.cutLast?_eq_some_iff.mpr ⟨hparts', h.no_colon⟩
      rw [hcut] at hsame
      obtain ⟨rfl, rfl⟩ := Prod.mk.inj (Option.some.inj hsame)
      have hne : e.host.toList ≠ [] := by simpa using h.host_ne
      have hn := Text.numeralUpTo?_eq_some_iff.mpr ⟨h.port, h.port_le⟩
      rw [(Text.stripBrackets_eq_iff hne).mpr h.host, if_neg (mt List.isEmpty_iff.mp hne),
        String.ofList_toList]
      exact Option.map_eq_some_iff.mpr ⟨e.port, hn, rfl⟩

/-- **A text is read as an endpoint exactly if it is a uri of that endpoint.** -/
theorem parse_eq_ok_iff : Endpoint.parse uri = .ok e ↔ e.IsNamedBy uri := by
  have hread : Endpoint.parse uri = .ok e ↔
      ((Text.stripStart? "tcp://".toList uri.toList).bind fun rest =>
        ofAuthority? (rest.takeWhile (· != '/'))) = some e := by
    unfold Endpoint.parse
    generalize Option.bind _ _ = named
    cases named <;> simp
  rw [hread, Option.bind_eq_some_iff]
  constructor
  · rintro ⟨rest, hstrip, hauthority⟩
    obtain ⟨path, hrest, hslash, hpath⟩ :=
      Text.takeWhile_ne_eq_iff.mp (rfl : rest.takeWhile (· != '/') = _)
    obtain ⟨host, port, hparts, hwritten⟩ := ofAuthority?_eq_some_iff.mp hauthority
    have huri := Text.stripStart?_eq_some_iff.mp hstrip
    rw [hparts] at hrest hslash
    rw [hrest] at huri
    exact ⟨host, port, path, huri, hslash, hpath, hwritten⟩
  · rintro ⟨host, port, path, huri, hslash, hpath, hwritten⟩
    refine ⟨_, Text.stripStart?_eq_some_iff.mpr huri, ?_⟩
    rw [Text.takeWhile_ne_eq_iff.mpr ⟨path, rfl, hslash, hpath⟩]
    exact ofAuthority?_eq_some_iff.mpr ⟨host, port, rfl, hwritten⟩

/-- **The text of an endpoint that a uri names is a uri of it.** -/
theorem IsNamedBy.text (h : e.IsNamedBy uri) : e.IsNamedBy e.text := by
  obtain ⟨host, port, path, -, hslash, -, h⟩ := h
  have hhost : '/' ∉ e.host.toList := by
    obtain ⟨opened, closed, rfl⟩ := h.host.around
    exact fun hmem => hslash (by simp [hmem])
  have hdigit {c : Char} (hc : c.isDigit = false) : c ∉ Text.digits e.port := fun hmem => by
    rw [Text.isDigit_of_mem_digits hmem] at hc
    cases hc
  refine ⟨e.host.toList, Text.digits e.port, [], ?_, ?_, by simp, h.host.refl_of, h.host_ne,
    hdigit rfl, Text.isNumeral_digits e.port, h.port_le⟩
  · simp [Endpoint.text]
  · simp [hhost, hdigit]

/-- How uris are read. -/
structure ReadsUri (uri : String) : Prop where
  /-- The endpoint that is read is the one that the uri names. -/
  named : ∀ e : Endpoint, Endpoint.parse uri = .ok e ↔ e.IsNamedBy uri
  /-- A text that names none is refused, and named in the refusal. -/
  refused : (∀ e : Endpoint, ¬ e.IsNamedBy uri) ↔
    Endpoint.parse uri = .error (.unsupportedUri uri)
  /-- The text of an endpoint that was read is read as that endpoint. -/
  stable : ∀ e : Endpoint, Endpoint.parse uri = .ok e → Endpoint.parse e.text = .ok e

/-- **Uris are read by their grammar**, and an endpoint that was read is read again from its
text. -/
theorem readsUri (uri : String) : ReadsUri uri where
  named _ := parse_eq_ok_iff
  refused := by
    simp only [← parse_eq_ok_iff]
    unfold Endpoint.parse
    generalize Option.bind _ _ = named
    cases named <;> simp
  stable _ h := parse_eq_ok_iff.mpr (parse_eq_ok_iff.mp h).text

/-- Brackets come off, a plus sign and zeros do not count, and the path may hold anything. -/
example : Endpoint.parse "tcp://[[fe80::1]:+0080/a:b]" = .ok ⟨"fe80::1", 80⟩ := by
  cbv

end Endpoint
end StreamConformance
