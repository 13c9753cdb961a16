import StreamConformance.Proofs.Channel.Attempts
import StreamConformance.Proofs.Channel.Handles

/-!
# The chronicle of a connection

A chronicle is a connection together with what it was told and what it tried to write, both in
order and neither ever read.  As a far side it is the connection.

* `Chronicle.environment`: the connection as a far side that keeps its chronicle.
* `Chronicle.Faithful`: the frames on the wire are the attempts that were not refused, and after a
  refusal for another reason than the size nothing more is written.
* `Chronicle.Book`: what the chronicle has to say of one link.  The first of its attempts opens the
  channel, its items are the first ones of those that were sent to it, and it is done exactly if
  its producer has ended or was dismissed.
* `Chronicle.Faithful.react`, `Chronicle.Book.react`: both hold whatever happens.
-/

namespace StreamConformance
namespace Client

open Connection (Attempt FitsLink)

/-- The item that was to be written. -/
def Connection.Attempt.item? (a : Attempt) : Option Payload :=
  a.frame.item?

/-- The frame was refused. -/
def Connection.Attempt.isRefused (a : Attempt) : Bool :=
  a.fault.isSome

/-- The frame was refused, and with it an item. -/
def Connection.Attempt.isRefusedItem (a : Attempt) : Bool :=
  a.item?.isSome && a.isRefused

/-- The frame was refused for its size. -/
def Connection.Attempt.isOversize (a : Attempt) : Bool :=
  match a.fault with
  | some (.frameTooLarge _) => true
  | _ => false

/-- A connection, what it tried to write, and what it was told. -/
structure Chronicle where
  connection : Connection := {}
  attempts : List Attempt := []
  told : List (Event Step) := []

namespace Chronicle

/-- How a connection reacts that keeps its chronicle. -/
def react (e : Event Step) (r : Chronicle) : Chronicle × List (Call Step) :=
  ({ connection := (r.connection.react e).1
     attempts := r.attempts ++ (r.connection.attempt? e).toList
     told := r.told ++ [e] },
    (r.connection.react e).2)

/-- The connection as a far side. -/
def environment : Environment Chronicle Step where
  dial _ := none
  react := react
  idle _ := none

/-- From now on nothing can be written, and the reader has not found out. -/
def sever (cause : String) (r : Chronicle) : Chronicle :=
  { r with connection := { r.connection with severed := some cause } }

/-- The attempts of the link of a stream object. -/
def attemptsOf (j : Nat) (r : Chronicle) : List Attempt :=
  r.attempts.filter (·.link == some j)

/-- The items that were sent to a stream object. -/
def sentTo (j : Nat) (r : Chronicle) : List Payload :=
  r.told.filterMap (item? j)

/-- The producer of a stream object has completed or failed. -/
def Ended (j : Nat) (r : Chronicle) : Prop :=
  ∃ e ∈ r.told, ends j e = true

/-- The reader has canceled the producer of a stream object. -/
def Dismissed (j : Nat) (r : Chronicle) : Prop :=
  ∃ e ∈ r.told, dismisses j e = true

/-- A producer has given its subscription to a stream object. -/
def Attached (j : Nat) (r : Chronicle) : Prop :=
  ∃ e ∈ r.told, attaches j e = true

/-- What is on the wire is what was tried and not refused. -/
structure Faithful (r : Chronicle) : Prop where
  written : r.connection.written = r.attempts.filterMap Attempt.written?
  dead : ∀ a ∈ r.attempts, a.isRefused = true → a.isOversize = false → r.connection.IsDead
  silent : r.attempts.Pairwise fun a b =>
    a.isRefused = true → a.isOversize = false → b.isRefused = true
  /-- Items go out through links only. -/
  items : ∀ a ∈ r.attempts, a.link = none → a.item? = none

/-- The first attempt opens the channel, and no other does. -/
def OpensFirst (l : List Attempt) : Prop :=
  ∀ a m, l = a :: m → a.frame.isOpening = true ∧ ∀ b ∈ m, b.frame.isOpening = false

theorem OpensFirst.concat {l : List Attempt} {a : Attempt} (h : OpensFirst l)
    (ha : a.frame.isOpening = l.isEmpty) : OpensFirst (l ++ [a]) := by
  intro b m hbm
  cases l with
  | nil =>
    obtain ⟨rfl, rfl⟩ := List.cons.inj hbm
    exact ⟨ha, by simp⟩
  | cons b' m' =>
    obtain ⟨rfl, rfl⟩ := List.cons.inj hbm
    obtain ⟨hb, hm⟩ := h _ _ rfl
    refine ⟨hb, fun b'' hb'' => ?_⟩
    rcases List.mem_append.mp hb'' with hb'' | hb''
    · exact hm b'' hb''
    · rw [List.mem_singleton.mp hb'', ha]
      rfl

/-- What the chronicle has to say of the link of the stream object `j`. -/
structure Book (j : Nat) (r : Chronicle) : Prop where
  opened : (r.connection.linkAt j).opened = !(r.attemptsOf j).isEmpty
  opening : OpensFirst (r.attemptsOf j)
  /-- What is sent to a link that is done does not go out. -/
  sent : ∃ late, r.sentTo j = (r.attemptsOf j).filterMap Attempt.item? ++ late ∧
    (late ≠ [] → (r.connection.linkAt j).outboundDone = true)
  done : (r.connection.linkAt j).outboundDone = true ↔ r.Ended j ∨ r.Dismissed j
  attached : (r.connection.linkAt j).outboundDone = true →
    (r.connection.linkAt j).attached = false
  absent : r.connection.link? j = none → ¬ r.Attached j

variable {r : Chronicle} {e : Event Step} {i j : Nat}

theorem faithful_nil : Faithful {} := by
  constructor <;> simp [Connection.IsDead]

theorem book_nil (j : Nat) : Book j {} := by
  have hlink : (({} : Chronicle).connection.linkAt j) = {} := by
    rw [Connection.linkAt, Connection.link?]
    rfl
  constructor
  · rw [hlink]
    rfl
  · intro a m h
    cases h
  · exact ⟨[], rfl, fun h => absurd rfl h⟩
  · rw [hlink]
    simp [Ended, Dismissed]
  · rw [hlink]
    simp
  · simp [Attached]

/-! ## What an event adds -/

theorem exists_told_react (P : Event Step → Bool) :
    (∃ e' ∈ (r.react e).1.told, P e' = true) ↔ (∃ e' ∈ r.told, P e' = true) ∨ P e = true := by
  simp only [react, List.mem_append, List.mem_singleton, or_and_right, exists_or,
    exists_eq_left]

theorem ended_react : (r.react e).1.Ended j ↔ r.Ended j ∨ ends j e = true :=
  exists_told_react (ends j)

theorem dismissed_react : (r.react e).1.Dismissed j ↔ r.Dismissed j ∨ dismisses j e = true :=
  exists_told_react (dismisses j)

theorem attached_react : (r.react e).1.Attached j ↔ r.Attached j ∨ attaches j e = true :=
  exists_told_react (attaches j)

theorem sentTo_react (e : Event Step) (r : Chronicle) (j : Nat) :
    (r.react e).1.sentTo j = r.sentTo j ++ (item? j e).toList := by
  rw [sentTo, react, List.filterMap_append, sentTo]
  cases h : item? j e <;> simp [h]

theorem exists_link_of_item {p : Payload} (he : r.connection.AllowsEvent e)
    (hp : item? j e = some p) :
    ∃ i, r.connection.link? j = some (i, r.connection.linkAt j) := by
  cases hl : r.connection.link? j with
  | none =>
    rw [(Connection.isSilent_of_allowsEvent he hl).1] at hp
    cases hp
  | some x => exact ⟨x.1, by rw [Connection.linkAt, hl]; rfl⟩

/-- An event leads to at most one attempt of a link, and to one if it has an item for it. -/
theorem attemptsOf_react (he : r.connection.AllowsEvent e) (j : Nat) :
    ((r.react e).1.attemptsOf j = r.attemptsOf j ∧
      ∀ p, item? j e = some p → (r.connection.linkAt j).outboundDone = true) ∨
    ∃ a, (r.react e).1.attemptsOf j = r.attemptsOf j ++ [a] ∧
      FitsLink j e (r.connection.linkAt j) a.frame := by
  have happend : (r.react e).1.attemptsOf j =
      r.attemptsOf j ++ (r.connection.attempt? e).toList.filter (·.link == some j) := by
    rw [attemptsOf, react, List.filter_append, attemptsOf]
  by_cases hnew : ∃ a, r.connection.attempt? e = some a ∧ a.link = some j
  · obtain ⟨a, ha, hlink⟩ := hnew
    refine Or.inr ⟨a, by rw [happend, ha]; simp [hlink], ?_⟩
    obtain ⟨hnone, -⟩ | ⟨k, i, l, hk, -, hl, hfits⟩ := Connection.attempt_cases ha
    · rw [hlink] at hnone
      cases hnone
    · obtain rfl : k = j := Option.some.inj (hk.symm.trans hlink)
      have hlinkAt : r.connection.linkAt k = l := by
        rw [Connection.linkAt, hl]
        rfl
      rw [hlinkAt]
      exact hfits
  · refine Or.inl ⟨?_, fun p hp => ?_⟩
    · rw [happend]
      cases ha : r.connection.attempt? e with
      | none => exact List.append_nil _
      | some a =>
        have hne : a.link ≠ some j := fun h => hnew ⟨a, ha, h⟩
        simp [hne]
    · obtain ⟨i, hl⟩ := exists_link_of_item he hp
      cases hdone : (r.connection.linkAt j).outboundDone with
      | true => rfl
      | false => exact absurd (Connection.attempt_of_item hp hl hdone) hnew

/-! ## Both are kept -/

theorem isDead_of_attempt {a : Attempt} (h : r.connection.attempt? e = some a)
    (ha : a.isRefused = true) (hsize : a.isOversize = false) : r.connection.IsDead := by
  obtain ⟨fault, hfault⟩ := Option.isSome_iff_exists.mp ha
  have hrefusal := Connection.fault_of_attempt h
  rw [hfault] at hrefusal
  refine Connection.isDead_of_refusal? hrefusal.symm ?_
  rintro n rfl
  rw [Attempt.isOversize, hfault] at hsize
  cases hsize

theorem isRefused_of_attempt {a : Attempt} (h : r.connection.attempt? e = some a)
    (hdead : r.connection.IsDead) : a.isRefused = true := by
  rw [Attempt.isRefused, Connection.fault_of_attempt h, Option.isSome_iff_ne_none]
  exact Connection.refusal?_of_isDead hdead a.frame

theorem item?_of_attempt {a : Attempt} (he : r.connection.AllowsEvent e)
    (h : r.connection.attempt? e = some a) (hlink : a.link = none) : a.item? = none := by
  obtain ⟨-, s, rfl⟩ | ⟨k, i, l, hk, -⟩ := Connection.attempt_cases h
  · cases s with
    | write f =>
      cases h
      exact he
    | writeMessage i f =>
      cases h
      exact he
    | writeCancel stream =>
      cases h
      rfl
    | _ => cases h
  · rw [hlink] at hk
    cases hk

theorem Faithful.react (h : Faithful r) (he : r.connection.AllowsEvent e) :
    Faithful (r.react e).1 := by
  have hmem {a : Attempt} (ha : a ∈ (r.connection.attempt? e).toList) :
      r.connection.attempt? e = some a := Option.mem_toList.mp ha
  constructor
  · show (r.connection.react e).1.written = List.filterMap Attempt.written? (r.attempts ++ _)
    rw [Connection.written_react, List.filterMap_append, h.written]
    cases r.connection.attempt? e with
    | none => rfl
    | some a => cases ha : a.written? <;> simp [ha]
  · intro a ha hrefused hsize
    refine Connection.isDead_react ?_ e
    rcases List.mem_append.mp ha with ha | ha
    · exact h.dead a ha hrefused hsize
    · exact isDead_of_attempt (hmem ha) hrefused hsize
  · refine List.pairwise_append.mpr ⟨h.silent, ?_, fun a ha b hb hrefused hsize => ?_⟩
    · cases r.connection.attempt? e <;> simp
    · exact isRefused_of_attempt (hmem hb) (h.dead a ha hrefused hsize)
  · intro a ha hlink
    rcases List.mem_append.mp ha with ha | ha
    · exact h.items a ha hlink
    · exact item?_of_attempt he (hmem ha) hlink

theorem Faithful.sever (h : Faithful r) (cause : String) : Faithful (r.sever cause) where
  written := h.written
  dead _ _ _ _ := Or.inr rfl
  silent := h.silent
  items := h.items

/-- A link that is done stays so. -/
theorem outboundDone_react (he : r.connection.AllowsEvent e)
    (h : (r.connection.linkAt j).outboundDone = true) :
    ((r.react e).1.connection.linkAt j).outboundDone = true := by
  have hbecomes := Connection.linkAt_react_of_allowsEvent he j
  exact hbecomes.outboundDone.trans (by rw [h]; rfl)

theorem Book.done_react (h : Book j r) (he : r.connection.AllowsEvent e) :
    ((r.react e).1.connection.linkAt j).outboundDone = true ↔
      (r.react e).1.Ended j ∨ (r.react e).1.Dismissed j := by
  have hbecomes : (r.connection.linkAt j).Becomes j e ((r.react e).1.connection.linkAt j) :=
    Connection.linkAt_react_of_allowsEvent he j
  rw [hbecomes.outboundDone, Bool.or_eq_true, Bool.or_eq_true, h.done, ended_react,
    dismissed_react, or_assoc, or_or_or_comm]

/-- A link that is done has let its producer go. -/
theorem Book.detached_react (h : Book j r) (he : r.connection.AllowsEvent e) :
    ((r.react e).1.connection.linkAt j).outboundDone = true →
      ((r.react e).1.connection.linkAt j).attached = false := by
  have hbecomes : (r.connection.linkAt j).Becomes j e ((r.react e).1.connection.linkAt j) :=
    Connection.linkAt_react_of_allowsEvent he j
  rw [hbecomes.attached h.attached, hbecomes.outboundDone]
  have hkept := h.attached
  revert hkept
  cases (r.connection.linkAt j).outboundDone <;> cases (r.connection.linkAt j).attached <;>
    cases ends j e <;> cases dismisses j e <;> simp

/-- Where there is no link no producer has given its subscription. -/
theorem Book.absent_react (h : Book j r) (he : r.connection.AllowsEvent e)
    (hnone : (r.react e).1.connection.link? j = none) : ¬ (r.react e).1.Attached j := by
  intro hatt
  cases hl : r.connection.link? j with
  | none =>
    rcases attached_react.mp hatt with hatt | hatt
    · exact h.absent hl hatt
    · rw [(Connection.isSilent_of_allowsEvent he hl).2.2.2] at hatt
      cases hatt
  | some x =>
    obtain ⟨l', hl', -⟩ := Connection.link?_react e (l := x.2) hl
    have hsome : (r.react e).1.connection.link? j = some (x.1, l') := hl'
    rw [hnone] at hsome
    cases hsome

theorem Book.react (h : Book j r) (he : r.connection.AllowsEvent e) : Book j (r.react e).1 := by
  have hdone := h.done_react he
  have hattached := h.detached_react he
  have habsent := h.absent_react he
  have hopened : ((r.react e).1.connection.linkAt j).opened = _ :=
    (Connection.linkAt_react_of_allowsEvent he j).opened
  obtain ⟨late, hsent, hlate⟩ := h.sent
  have hsent' := sentTo_react e r j
  rw [hsent] at hsent'
  obtain ⟨hsame, hitem⟩ | ⟨a, happend, hfits⟩ := attemptsOf_react he j
  · refine ⟨?_, ?_, ⟨late ++ (item? j e).toList, ?_, fun hne => outboundDone_react he ?_⟩, hdone,
      hattached, habsent⟩
    · rw [hsame, ← h.opened, hopened]
      cases hp : item? j e with
      | none => simp
      | some p => simp [hitem p hp]
    · rw [hsame]
      exact h.opening
    · rw [hsame, hsent', List.append_assoc]
    · cases hp : item? j e with
      | none =>
        rw [hp] at hne
        exact hlate (by simpa using hne)
      | some p => exact hitem p hp
  · have hempty : (!((r.attemptsOf j ++ [a]).isEmpty)) = true := by simp
    cases hfits with
    | item hp hnot hf hopening =>
      have hnil : late = [] := by
        cases late with
        | nil => rfl
        | cons p l =>
          rw [hlate (List.cons_ne_nil p l)] at hnot
          cases hnot
      refine ⟨?_, ?_, ⟨[], ?_, fun hne => absurd rfl hne⟩, hdone, hattached, habsent⟩
      · rw [happend, hempty, hopened, hp, hnot]
        simp
      · rw [happend]
        refine h.opening.concat ?_
        rw [hopening, h.opened, Bool.not_not]
      · rw [hsent', happend, hp, hnil]
        simp [Attempt.item?, hf]
    | other hp hf hopen =>
      refine ⟨?_, ?_, ⟨late, ?_, fun hne => outboundDone_react he (hlate hne)⟩, hdone, hattached,
        habsent⟩
      · rw [happend, hempty, hopened, hopen]
        rfl
      · rw [happend]
        refine h.opening.concat ?_
        rw [Wire.Frame.isOpening_of_item? hf, ← Bool.not_inj_iff, ← h.opened, hopen]
        rfl
      · rw [hsent', happend, hp]
        simp [Attempt.item?, hf]

theorem Book.sever (h : Book j r) (cause : String) : Book j (r.sever cause) where
  opened := h.opened
  opening := h.opening
  sent := h.sent
  done := h.done
  attached := h.attached
  absent := h.absent

/-! ## Producers that gave their subscription -/

/-- A producer that gave its subscription to a link goes out of use only if it ends, or is told to
stop. -/
theorem attached_or_ended_or_ask (h : Book j r) (he : r.connection.AllowsEvent e) {P : Prop}
    (hold : r.connection.Serves i j → r.Attached j →
      (r.connection.linkAt j).attached = true ∨ r.Ended j ∨ P)
    (hserves : (r.react e).1.connection.Serves i j) (hatt : (r.react e).1.Attached j) :
    ((r.react e).1.connection.linkAt j).attached = true ∨ (r.react e).1.Ended j ∨ P ∨
      .ask i .cancel ∈ (r.react e).2 := by
  cases hl : r.connection.link? j with
  | none =>
    rcases attached_react.mp hatt with hatt | hatt
    · exact absurd hatt (h.absent hl)
    · rw [(Connection.isSilent_of_allowsEvent he hl).2.2.2] at hatt
      cases hatt
  | some x =>
    obtain ⟨i', l⟩ := x
    have hlinkAt : r.connection.linkAt j = l := by
      rw [Connection.linkAt, hl]
      rfl
    have hi : i' = i := by
      obtain ⟨l', hl', -⟩ := Connection.link?_react e hl
      obtain ⟨l'', hl''⟩ := hserves
      exact congrArg Prod.fst (Option.some.inj (hl'.symm.trans hl''))
    subst hi
    have hbecomes : l.Becomes j e ((r.react e).1.connection.linkAt j) := by
      rw [← hlinkAt]
      exact Connection.linkAt_react_of_allowsEvent he j
    have hkept : l.outboundDone = true → l.attached = false := by
      rw [← hlinkAt]
      exact h.attached
    by_cases hends : ends j e = true
    · exact Or.inr (Or.inl (ended_react.mpr (Or.inr hends)))
    · rcases attached_react.mp hatt with hatt | hnew
      · rcases hold ⟨l, hl⟩ hatt with hin | hended | hP
        · rw [hlinkAt] at hin
          by_cases hdis : dismisses j e = true
          · unfold dismisses at hdis
            split at hdis
            · obtain rfl := eq_of_beq hdis
              exact Or.inr (Or.inr (Or.inr (Connection.ask_of_cancelProducer hl hin)))
            · cases hdis
          · refine Or.inl ?_
            rw [hbecomes.attached hkept, hin]
            simp [hends, hdis]
        · exact Or.inr (Or.inl (ended_react.mpr (Or.inl hended)))
        · exact Or.inr (Or.inr (Or.inl hP))
      · unfold attaches at hnew
        split at hnew
        · rename_i s n
          obtain rfl := eq_of_beq hnew
          by_cases hbusy : l.outboundDone = true ∨ l.attached = true
          · exact Or.inr (Or.inr (Or.inr (Connection.ask_of_attached hl hbusy)))
          · refine Or.inl ?_
            rw [hbecomes.attached hkept]
            simp_all [ends, dismisses, attaches]
        · cases hnew

end Chronicle
end Client
end StreamConformance
