import Mathlib.Data.List.Nodup
import StreamConformance.Proofs.Client.Endings

/-!
# The numbers of streams

The streams of a connection are numbered 1, 3, 5 and so on, in the order in which they are opened; a
message without answers takes a number as well, for its frame.  There are 2 ^ 31 odd numbers of 32
bits, so as long as no more than that are handed out, no two streams have the same.

* `Chronicle.Numbered`, `Chronicle.numbered_of_reach`: the numbers of the stream objects are some of
  those that were handed out, in order.
* `Chronicle.odd_of_label`: they are odd.
* `Chronicle.unshared_of_allotted_le`: no two are the same.
-/

namespace StreamConformance
namespace Client

open Crew (Move)

/-- The number that is handed out after `n` others. -/
def streamNumber (n : Nat) : UInt32 :=
  UInt32.ofNat (2 * n + 1)

theorem streamNumber_succ (n : Nat) : streamNumber (n + 1) = streamNumber n + 2 := by
  rw [streamNumber, show 2 * (n + 1) + 1 = 2 * n + 1 + 2 by omega, UInt32.ofNat_add, streamNumber]
  rfl

theorem toNat_streamNumber (n : Nat) : (streamNumber n).toNat = (2 * n + 1) % 2 ^ 32 :=
  UInt32.toNat_ofNat'

/-- All numbers are odd, the first 2 ^ 31 and those after them. -/
theorem odd_streamNumber (n : Nat) : (streamNumber n).toNat % 2 = 1 := by
  rw [toNat_streamNumber]
  omega

theorem nodup_streamNumber {n : Nat} (hn : n ≤ 2 ^ 31) :
    ((List.range n).map streamNumber).Nodup := by
  refine List.Nodup.map_on (fun m hm m' hm' heq => ?_) List.nodup_range
  have hnat := congrArg UInt32.toNat heq
  rw [toNat_streamNumber, toNat_streamNumber] at hnat
  have hlt := List.mem_range.mp hm
  have hlt' := List.mem_range.mp hm'
  omega

/-- A stream object gets the next number, unless it is one for a message, which gets none. -/
theorem Connection.newLabel?_cases {c : Connection} {e : Event Step} {l : Label}
    (h : c.newLabel? e = some l) :
    (l.kind = .detached ∧ l.id = 0 ∧ allots e = false) ∨
      (l.kind ≠ .detached ∧ l.id = c.nextStream ∧ allots e = true) := by
  cases e with
  | opened n kind p i =>
    cases kind with
    | fireAndForget =>
      cases h
      exact Or.inl ⟨rfl, rfl, rfl⟩
    | requestResponse | requestStream | requestSubscription =>
      cases h
      exact Or.inr ⟨by simp, rfl, rfl⟩
  | openedChannel n i =>
    cases h
    exact Or.inr ⟨by simp, rfl, rfl⟩
  | asked | attached | heard | copied | released | resumed => cases h

namespace Chronicle

variable {ι : Type} {c : Crew ι Chronicle Step} {r : Chronicle} {j : Nat}

/-- How many numbers were handed out. -/
def allotted (r : Chronicle) : Nat :=
  r.told.countP allots

theorem allotted_react (e : Event Step) (r : Chronicle) :
    (r.react e).1.allotted = r.allotted + if allots e then 1 else 0 := by
  rw [allotted, react, List.countP_append, List.countP_singleton, allotted]

/-- The numbers of the stream objects that are no messages. -/
def numbers (r : Chronicle) : List UInt32 :=
  (r.connection.labels.filter (·.kind != .detached)).map (·.id)

/-- The numbers of the stream objects are some of those that were handed out, in order. -/
structure Numbered (r : Chronicle) : Prop where
  next : r.connection.nextStream = streamNumber r.allotted
  numbers : r.numbers.Sublist ((List.range r.allotted).map streamNumber)
  detached : ∀ l ∈ r.connection.labels, l.kind = .detached → l.id = 0

theorem numbered_nil : Numbered {} where
  next := rfl
  numbers := List.Sublist.refl _
  detached l hl := by cases hl

theorem numbers_react (e : Event Step) (r : Chronicle) :
    (r.react e).1.numbers =
      r.numbers ++ ((r.connection.newLabel? e).toList.filter (·.kind != .detached)).map (·.id) := by
  rw [numbers, react, Connection.labels_react, List.filter_append, List.map_append, numbers]

/-- Whatever number is handed out comes after those before. -/
theorem Numbered.react (h : r.Numbered) (e : Event Step) : (r.react e).1.Numbered where
  next := by
    rw [allotted_react]
    show (r.connection.react e).1.nextStream = _
    rw [Connection.nextStream_react, h.next]
    cases allots e with
    | false => exact UInt32.add_zero _
    | true => exact (streamNumber_succ _).symm
  numbers := by
    have hmore : r.numbers.Sublist ((List.range (r.react e).1.allotted).map streamNumber) := by
      refine h.numbers.trans (List.Sublist.map _ (List.range_sublist.mpr ?_))
      rw [allotted_react]
      exact Nat.le_add_right _ _
    rw [numbers_react]
    cases hl : r.connection.newLabel? e with
    | none =>
      rw [Option.toList_none, List.filter_nil, List.map_nil, List.append_nil]
      exact hmore
    | some l =>
      rcases Connection.newLabel?_cases hl with ⟨hk, -, -⟩ | ⟨hk, hid, hallots⟩
      · simpa [hk] using hmore
      · rw [allotted_react, hallots, if_pos rfl, List.range_succ, List.map_append]
        refine h.numbers.append ?_
        simp [hk, hid, h.next]
  detached := by
    intro l hl hk
    have hl : l ∈ (r.connection.react e).1.labels := hl
    rw [Connection.labels_react, List.mem_append, Option.mem_toList] at hl
    rcases hl with hl | hnew
    · exact h.detached l hl hk
    · rcases Connection.newLabel?_cases hnew with ⟨-, hid, -⟩ | ⟨hne, -⟩
      · exact hid
      · exact absurd hk hne

theorem numbered_of_reach [DecidableEq ι] (h : Crew.Reach environment (newRules ι) start c) :
    c.exchange.far.Numbered := by
  refine reach_induction (P := fun c => c.exchange.far.Numbered) .refl h numbered_nil
    fun _ ih hmove _ => ?_
  rcases far_cases hmove with ⟨event, -, -, hfar⟩ | ⟨-, severed, hfar⟩
  · rw [hfar]
    exact ih.react event
  · rw [hfar]
    exact ⟨ih.next, ih.numbers, ih.detached⟩

/-- **The numbers of streams are odd.** -/
theorem odd_of_label [DecidableEq ι] (h : Crew.Reach environment (newRules ι) start c) {l : Label}
    (hl : c.exchange.far.connection.labels[j]? = some l) (hk : l.kind ≠ .detached) :
    l.id.toNat % 2 = 1 := by
  have hmem : l.id ∈ c.exchange.far.numbers :=
    List.mem_map_of_mem (List.mem_filter.mpr ⟨List.mem_of_getElem? hl, by simpa using hk⟩)
  obtain ⟨n, -, hn⟩ := List.mem_map.mp ((numbered_of_reach h).numbers.subset hmem)
  rw [← hn]
  exact odd_streamNumber n

/-- **No two streams have the same number**, as long as there are enough. -/
theorem unshared_of_allotted_le [DecidableEq ι]
    (h : Crew.Reach environment (newRules ι) start c) (hn : c.exchange.far.allotted ≤ 2 ^ 31)
    {l : Label} (hl : c.exchange.far.connection.labels[j]? = some l) (hk : l.kind ≠ .detached) :
    c.exchange.far.connection.Unshared j := by
  intro j' m l' hm hl' hid
  obtain rfl := Option.some.inj (hl.symm.trans hm)
  have hk' : l'.kind ≠ .detached := by
    intro hdetached
    have hodd := odd_of_label h hl hk
    rw [← hid, (numbered_of_reach h).detached l' (List.mem_of_getElem? hl') hdetached] at hodd
    exact absurd hodd (by decide)
  have hnodup := (numbered_of_reach h).numbers.nodup (nodup_streamNumber hn)
  rw [numbers, List.Nodup, List.pairwise_map, List.pairwise_filter,
    List.pairwise_iff_getElem] at hnodup
  have hne {i k : Nat} {a b : Label} (ha : c.exchange.far.connection.labels[i]? = some a)
      (hb : c.exchange.far.connection.labels[k]? = some b) (hka : a.kind ≠ .detached)
      (hkb : b.kind ≠ .detached) (hid : a.id = b.id) : ¬ i < k := by
    intro hlt
    obtain ⟨hi, rfl⟩ := List.getElem?_eq_some_iff.mp ha
    obtain ⟨hk, rfl⟩ := List.getElem?_eq_some_iff.mp hb
    exact hnodup i k hi hk hlt (by simpa using hka) (by simpa using hkb) hid
  have hnlt := hne hl hl' hk hk' hid.symm
  have hngt := hne hl' hl hk' hk hid
  omega

end Chronicle
end Client
end StreamConformance
