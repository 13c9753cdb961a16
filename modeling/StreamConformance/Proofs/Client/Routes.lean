import StreamConformance.Client.Routes

/-!
# The two halves of a route table

An entry of the table has two halves, and each is taken out by itself.  Looked up by its halves, the
table is two tables that have nothing to do with each other, but for `insert`, which enters both.

* `Routes.inbound?`, `Routes.outbound?`: what the halves of an entry say.
* `Routes.inbound?_takeInbound`, `Routes.outbound?_takeInbound` and so on: what becomes of them.
* `Routes.IsPruned`: an entry disappears with its second half.
* `Routes.uses`: how often a consumer is named in the table.  What takes a consumer out takes one
  mention of it away (`Routes.uses_takeInbound_le`).
-/

namespace StreamConformance
namespace Client
namespace Routes

variable {t : Routes} {r : Route} {i : Nat} {id id' : UInt32}

/-- The interaction whose consumer gets the answers of a stream. -/
def inbound? (id : UInt32) (t : Routes) : Option Nat :=
  (t.find? id).bind (·.inbound)

/-- The stream object whose link gets what concerns the items sent on a stream. -/
def outbound? (id : UInt32) (t : Routes) : Option Nat :=
  (t.find? id).bind (·.outbound)

/-! ## Entries -/

theorem find?_erase (id id' : UInt32) (t : Routes) :
    (t.erase id).find? id' = if id = id' then none else t.find? id' := by
  rw [find?, erase, find?]
  dsimp only
  rw [List.find?_filter]
  by_cases hid : id = id'
  · subst hid
    rw [if_pos rfl, List.find?_eq_none.mpr (by simp), Option.map_none]
  · have hsame : (fun e : UInt32 × Route => decide ((e.1 != id) = true ∧ (e.1 == id') = true)) =
        fun e => e.1 == id' := by
      funext e
      by_cases he : e.1 = id'
      · simp [he, Ne.symm hid]
      · simp [he]
    rw [if_neg hid, hsame]

theorem find?_insert (id id' : UInt32) (r : Route) (t : Routes) :
    (t.insert id r).find? id' = if id = id' then some r else t.find? id' := by
  by_cases hid : id = id'
  · subst hid
    rw [if_pos rfl, find?, insert, List.find?_cons_of_pos (by simp), Option.map_some]
  · rw [if_neg hid, find?, insert, List.find?_cons_of_neg (by simpa using hid)]
    exact (find?_erase id id' t).trans (if_neg hid)

theorem mem_of_find? (h : t.find? id = some r) : (id, r) ∈ t.entries := by
  obtain ⟨⟨id', r'⟩, he, rfl⟩ := Option.map_eq_some_iff.mp h
  have hid : (id' == id) = true := List.find?_some (p := fun e : UInt32 × Route => e.1 == id) he
  rw [← eq_of_beq hid]
  exact List.mem_of_find?_eq_some he

/-! ## Halves -/

theorem inbound?_eq_some : t.inbound? id = some i ↔ ∃ r, t.find? id = some r ∧ r.inbound = some i :=
  Option.bind_eq_some_iff

theorem outbound?_eq_some {j : Nat} :
    t.outbound? id = some j ↔ ∃ r, t.find? id = some r ∧ r.outbound = some j :=
  Option.bind_eq_some_iff

/-- An empty entry need not be in the table. -/
theorem find?_put (id id' : UInt32) (r : Route) (t : Routes) :
    (t.put id r).find? id' =
      if id = id' then (if r.isEmpty then none else some r) else t.find? id' := by
  unfold put
  split
  · rw [find?_erase]
  · rw [find?_insert]

theorem inbound?_insert (id id' : UInt32) (r : Route) (t : Routes) :
    (t.insert id r).inbound? id' = if id = id' then r.inbound else t.inbound? id' := by
  rw [inbound?, find?_insert]
  split <;> rfl

theorem outbound?_insert (id id' : UInt32) (r : Route) (t : Routes) :
    (t.insert id r).outbound? id' = if id = id' then r.outbound else t.outbound? id' := by
  rw [outbound?, find?_insert]
  split <;> rfl

theorem inbound?_put (id id' : UInt32) (r : Route) (t : Routes) :
    (t.put id r).inbound? id' = if id = id' then r.inbound else t.inbound? id' := by
  rw [inbound?, find?_put]
  by_cases hid : id = id'
  · rw [if_pos hid, if_pos hid]
    cases hr : r.isEmpty with
    | false => rfl
    | true =>
      rw [Route.isEmpty, Bool.and_eq_true, Option.isNone_iff_eq_none] at hr
      exact hr.1.symm
  · rw [if_neg hid, if_neg hid]
    rfl

theorem outbound?_put (id id' : UInt32) (r : Route) (t : Routes) :
    (t.put id r).outbound? id' = if id = id' then r.outbound else t.outbound? id' := by
  rw [outbound?, find?_put]
  by_cases hid : id = id'
  · rw [if_pos hid, if_pos hid]
    cases hr : r.isEmpty with
    | false => rfl
    | true =>
      rw [Route.isEmpty, Bool.and_eq_true, Option.isNone_iff_eq_none,
        Option.isNone_iff_eq_none] at hr
      exact hr.2.symm
  · rw [if_neg hid, if_neg hid]
    rfl

/-! ## Taking a half out -/

theorem snd_takeInbound (id : UInt32) (t : Routes) : (t.takeInbound id).2 = t.inbound? id := by
  rw [takeInbound, inbound?]
  cases t.find? id <;> rfl

theorem snd_takeOutbound (id : UInt32) (t : Routes) : (t.takeOutbound id).2 = t.outbound? id := by
  rw [takeOutbound, outbound?]
  cases t.find? id <;> rfl

@[simp] theorem inbound?_takeInbound (id id' : UInt32) (t : Routes) :
    (t.takeInbound id).1.inbound? id' = if id = id' then none else t.inbound? id' := by
  unfold takeInbound
  cases hr : t.find? id with
  | some r => exact inbound?_put ..
  | none =>
    by_cases hid : id = id'
    · rw [if_pos hid, ← hid, inbound?, hr, Option.bind_none]
    · rw [if_neg hid]

@[simp] theorem outbound?_takeInbound (id id' : UInt32) (t : Routes) :
    (t.takeInbound id).1.outbound? id' = t.outbound? id' := by
  unfold takeInbound
  cases hr : t.find? id with
  | none => rfl
  | some r =>
    refine (outbound?_put ..).trans ?_
    split
    · rename_i hid
      rw [← hid, outbound?, hr, Option.bind_some]
    · rfl

@[simp] theorem outbound?_takeOutbound (id id' : UInt32) (t : Routes) :
    (t.takeOutbound id).1.outbound? id' = if id = id' then none else t.outbound? id' := by
  unfold takeOutbound
  cases hr : t.find? id with
  | some r => exact outbound?_put ..
  | none =>
    by_cases hid : id = id'
    · rw [if_pos hid, ← hid, outbound?, hr, Option.bind_none]
    · rw [if_neg hid]

@[simp] theorem inbound?_takeOutbound (id id' : UInt32) (t : Routes) :
    (t.takeOutbound id).1.inbound? id' = t.inbound? id' := by
  unfold takeOutbound
  cases hr : t.find? id with
  | none => rfl
  | some r =>
    refine (inbound?_put ..).trans ?_
    split
    · rename_i hid
      rw [← hid, inbound?, hr, Option.bind_some]
    · rfl

/-! ## Nothing is left of an entry with its second half -/

/-- No entry of the table is empty. -/
def IsPruned (t : Routes) : Prop :=
  ∀ id r, t.find? id = some r → r.isEmpty = false

theorem IsPruned.insert (h : t.IsPruned) (hr : r.isEmpty = false) (id : UInt32) :
    (t.insert id r).IsPruned := by
  intro id' r' hr'
  rw [find?_insert] at hr'
  split at hr'
  · rw [← Option.some.inj hr', hr]
  · exact h id' r' hr'

theorem IsPruned.put (h : t.IsPruned) (id : UInt32) (r : Route) : (t.put id r).IsPruned := by
  intro id' r' hr'
  rw [find?_put] at hr'
  split at hr'
  · cases hr : r.isEmpty with
    | true =>
      rw [hr, if_pos rfl] at hr'
      cases hr'
    | false =>
      rw [hr, if_neg Bool.false_ne_true] at hr'
      rw [← Option.some.inj hr', hr]
  · exact h id' r' hr'

theorem IsPruned.takeInbound (h : t.IsPruned) (id : UInt32) : (t.takeInbound id).1.IsPruned := by
  unfold Routes.takeInbound
  split
  · exact h
  · exact h.put id _

theorem IsPruned.takeOutbound (h : t.IsPruned) (id : UInt32) : (t.takeOutbound id).1.IsPruned := by
  unfold Routes.takeOutbound
  split
  · exact h
  · exact h.put id _

/-- There is an entry for a stream if there is a half of it. -/
theorem IsPruned.isSome_find?_iff (h : t.IsPruned) :
    (t.find? id).isSome = true ↔
      (t.inbound? id).isSome = true ∨ (t.outbound? id).isSome = true := by
  rw [inbound?, outbound?]
  cases hr : t.find? id with
  | none => simp
  | some r =>
    have hnot := h id r hr
    rw [Route.isEmpty, Bool.and_eq_false_iff, Option.isNone_eq_false_iff,
      Option.isNone_eq_false_iff] at hnot
    simpa using hnot

/-! ## How often a consumer is named -/

/-- How often the consumer of an interaction is named in the table. -/
def uses (i : Nat) (t : Routes) : Nat :=
  t.entries.countP fun e => e.2.inbound == some i

theorem uses_pos_of_inbound? (h : t.inbound? id = some i) : 0 < t.uses i := by
  obtain ⟨r, hr, hi⟩ := inbound?_eq_some.mp h
  exact List.countP_pos_iff.mpr ⟨_, mem_of_find? hr, beq_iff_eq.mpr hi⟩

theorem uses_erase_le (id : UInt32) (i : Nat) (t : Routes) : (t.erase id).uses i ≤ t.uses i :=
  List.filter_sublist.countP_le

theorem uses_insert_le (id : UInt32) (r : Route) (i : Nat) (t : Routes) :
    (t.insert id r).uses i ≤ t.uses i + if r.inbound = some i then 1 else 0 := by
  have herase := uses_erase_le id i t
  rw [uses, insert, List.countP_cons]
  simp only [beq_iff_eq]
  exact Nat.add_le_add_right herase _

/-- What is found is not left when it is erased. -/
theorem uses_erase_of_find? (h : t.find? id = some r) (i : Nat) :
    (t.erase id).uses i + (if r.inbound = some i then 1 else 0) ≤ t.uses i := by
  have hsplit := List.countP_eq_countP_filter_add t.entries
    (fun e => e.2.inbound == some i) (fun e => e.1 != id)
  have hmem : (id, r) ∈ t.entries.filter (fun e => !(e.1 != id)) :=
    List.mem_filter.mpr ⟨mem_of_find? h, by simp⟩
  rw [uses, uses, hsplit, erase]
  refine Nat.add_le_add_left ?_ _
  split
  · rename_i hi
    exact List.countP_pos_iff.mpr ⟨_, hmem, beq_iff_eq.mpr hi⟩
  · exact Nat.zero_le _

theorem uses_put_le (h : t.find? id = some r) (r' : Route) (i : Nat) :
    (t.put id r').uses i + (if r.inbound = some i then 1 else 0) ≤
      t.uses i + if r'.inbound = some i then 1 else 0 := by
  have herase := uses_erase_of_find? h i
  unfold put
  split
  · omega
  · have hinsert : (t.insert id r').uses i =
        (t.erase id).uses i + if r'.inbound = some i then 1 else 0 := by
      rw [uses, insert, List.countP_cons]
      simp only [beq_iff_eq]
      rfl
    omega

/-- **Who is taken out is named once less.** -/
theorem uses_takeInbound_le (id : UInt32) (i : Nat) (t : Routes) :
    (t.takeInbound id).1.uses i + (if t.inbound? id = some i then 1 else 0) ≤ t.uses i := by
  unfold takeInbound inbound?
  cases hr : t.find? id with
  | none => simp
  | some r =>
    have hput := uses_put_le hr { r with inbound := none } i
    simpa using hput

theorem uses_takeOutbound_le (id : UInt32) (i : Nat) (t : Routes) :
    (t.takeOutbound id).1.uses i ≤ t.uses i := by
  unfold takeOutbound
  cases hr : t.find? id with
  | none => exact Nat.le_refl _
  | some r =>
    have hput := uses_put_le hr { r with outbound := none } i
    dsimp only at hput ⊢
    omega

end Routes
end Client
end StreamConformance
