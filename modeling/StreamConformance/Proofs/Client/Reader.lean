import Mathlib.Data.List.TakeWhile
import StreamConformance.Proofs.Client.Endings

/-!
# The reader of a connection

The frames that arrive at a connection are read by one thread, one after another: it is done with a
frame, and with all that the frame leads to, before it reads the next.  All other threads may do what
they like meanwhile, with other streams or with the same.

* `Chronicle.readerRules`: what the threads may do if only one of them reads.
* `Chronicle.alone_of_isReading`: a thread that is about to look at a frame has nothing else to do.
* `Chronicle.reader_of_isFollowUp`: what a frame leads to for a producer is done by the reader.
* `Chronicle.framesSince`: the frames that were looked at since a stream was entered into the table.
* `Chronicle.exists_frame_of_stopped`: a link is looked for because of a frame, and that is among them
  unless the reader was still busy with it when the stream was entered.
-/

namespace StreamConformance

open Wire (Frame)

/-- A consumer that has got nothing yet. -/
structure Reception.IsFresh (x : Reception) : Prop where
  terminal : x.terminal = none
  subscription : x.subscription = none
  items : ∀ ps, x.items = some ps → ps = []

namespace Client
namespace Chronicle

open Crew (Move Turns)
open Exchange (Origin)

variable {ι : Type} {c d : Crew ι Chronicle Step} {e e' : Exchange Chronicle} {reader k : ι}
  {i j : Nat} {t : Task Step} {old new : List (Task Step)} {r : Chronicle} {id : UInt32}

/-! ## One reader -/

/-- Only the thread `reader` reads frames, and a consumer that is opened has got nothing yet. -/
def ReadsAlone (reader k : ι) (e e' : Exchange Chronicle) (ts : List (Task Step)) : Prop :=
  (∀ f, .call (.resume (.receive f)) ∈ ts → k = reader) ∧
    ∀ x, e' = e.enter x → x.receiver.reception.IsFresh

/-- What the threads may do if the thread `reader` is the only one that reads. -/
def readerRules (reader : ι) : Crew.Rules ι Chronicle Step :=
  (newRules ι).restrict (ReadsAlone reader)

section Reach

variable [DecidableEq ι]

theorem reach_newRules (h : Crew.Reach environment (readerRules reader) start c) :
    Crew.Reach environment (newRules ι) start c :=
  h.mono (fun _ _ _ _ hstart => hstart.1) fun _ _ _ hemit => hemit

/-- What every turn keeps is kept along a run. -/
theorem reading_induction {P : Crew ι Chronicle Step → Prop}
    (h : Crew.Reach environment (readerRules reader) start c) (hP : P start)
    (hturn : ∀ {c d : Crew ι Chronicle Step} {k : ι} {old new : List (Task Step)},
      Crew.Reach environment (readerRules reader) start c → P c →
      Move environment (readerRules reader) k c.exchange old new d.exchange →
      Turns k old new c d → P d) : P c := by
  induction h with
  | refl => exact hP
  | tail h hstep ih =>
    have hcalm := (tidy_of_reach (reach_rules (reach_newRules h))).calm
    obtain ⟨k, old, new, hmove, hturns⟩ := hstep.move hcalm
    exact hturn h ih hmove hturns

end Reach

/-! ## What the reader is at -/

/-- A frame is about to be looked at. -/
def IsReading : Task Step → Prop
  | .call (.resume (.receive _)) | .tell (.resumed (.receive _)) => True
  | _ => False

/-- A frame is not looked at twice: that it is about to be is what a thread begins with. -/
theorem isReading_of_mem_new (h : Move environment (readerRules reader) k e old new e')
    (ht : t ∈ new) (hreading : IsReading t) :
    new = [t] ∧ ((old = [] ∧ k = reader) ∨ ∃ t', old = [t'] ∧ IsReading t') := by
  cases h with
  | @perform t' hcalm =>
    have horigin := Origin.of_mem ht
    cases horigin with
    | @call event cl hcl =>
      have hmem : cl ∈ (e.far.connection.react event).2 := hcl
      cases Connection.makes_of_mem hmem <;> cases hreading
    | resumed s =>
      cases s with
      | receive f => exact ⟨rfl, Or.inr ⟨_, rfl, trivial⟩⟩
      | _ => cases hreading
    | _ => cases hreading
  | start hstart =>
    have hreads := hstart.2.1
    cases hstart.1.1 with
    | arrive f =>
      obtain rfl := List.mem_singleton.mp ht
      exact ⟨rfl, Or.inl ⟨rfl, hreads f (List.mem_singleton_self _)⟩⟩
    | sever => cases ht
    | channel | request | own | finish | release =>
      rw [List.mem_singleton.mp ht] at hreading
      cases hreading
  | emit =>
    obtain ⟨r, -, rfl⟩ := Option.map_eq_some_iff.mp (Option.mem_toList.mp ht)
    cases hreading

/-- **Who is about to look at a frame is the reader, and has nothing else to do.** -/
theorem alone_of_isReading [DecidableEq ι]
    (h : Crew.Reach environment (readerRules reader) start c) (ht : t ∈ c.stack k)
    (hreading : IsReading t) : k = reader ∧ c.stack k = [t] := by
  refine reading_induction (P := fun c => ∀ k, ∀ t ∈ c.stack k, IsReading t →
    k = reader ∧ c.stack k = [t]) h (by rintro k t ⟨⟩)
    (fun {c d k old new} _ ih hmove hturns k' t ht hreading => ?_) k t ht hreading
  obtain ⟨rest, hc, hd, hidle⟩ := hturns.stack
  by_cases hk : k' = k
  · subst hk
    rw [hd, Function.update_self] at ht ⊢
    rcases List.mem_append.mp ht with hnew | hrest
    · obtain ⟨rfl, ⟨rfl, hk⟩ | ⟨t', rfl, hreading'⟩⟩ := isReading_of_mem_new hmove hnew hreading
      · exact ⟨hk, by rw [hidle rfl]; rfl⟩
      · obtain ⟨hk, hstack⟩ := ih k' t' (by rw [hc]; exact List.mem_cons_self) hreading'
        obtain rfl : rest = [] := (List.cons.inj (hc.symm.trans hstack)).2
        exact ⟨hk, rfl⟩
    · -- It is not behind another task, as it is alone.
      obtain ⟨-, hstack⟩ := ih k' t (by rw [hc]; exact List.mem_append_right _ hrest) hreading
      rw [hc] at hstack
      cases old with
      | nil =>
        rw [hidle rfl] at hrest
        cases hrest
      | cons t' old =>
        rw [(List.append_eq_nil_iff.mp (List.cons.inj hstack).2).2] at hrest
        cases hrest
  · rw [hd, Function.update_of_ne hk] at ht ⊢
    exact ih k' t ht hreading

/-- A connection that is open was open before. -/
theorem isOpen_of_move (h : Move environment (newRules ι) k e old new e')
    (hopen : e'.far.connection.closed = false) : e.far.connection.closed = false := by
  by_contra hclosed
  rw [closed_move h (by simpa using hclosed)] at hopen
  cases hopen

/-- What a frame leads to for the producer of a channel. -/
def IsFollowUp : Task Step → Prop
  | .call (.resume (.detachLink _)) | .tell (.resumed (.detachLink _)) |
    .call (.resume (.cancelProducer _)) | .tell (.resumed (.cancelProducer _)) => True
  | _ => False

theorem IsReading.not_isFollowUp (h : IsReading t) : ¬ IsFollowUp t := by
  unfold IsReading at h
  split at h <;> first | exact id | cases h

/-- **What frames lead to for producers is done by the reader**, as long as the connection is open. -/
theorem reader_of_isFollowUp [DecidableEq ι]
    (h : Crew.Reach environment (readerRules reader) start c)
    (hopen : c.exchange.far.connection.closed = false) (ht : t ∈ c.stack k)
    (hfollows : IsFollowUp t) : k = reader := by
  refine reading_induction (P := fun c => c.exchange.far.connection.closed = false →
    ∀ k, ∀ t ∈ c.stack k, IsFollowUp t → k = reader) h (by rintro - k t ⟨⟩)
    (fun {c d k old new} hreach ih hmove hturns hopen k' t ht hfollows => ?_) hopen k t ht hfollows
  have hopen' := isOpen_of_move hmove.of_restrict hopen
  rcases hturns.mem_stack ht with ht | ⟨rfl, hnew⟩
  · exact ih hopen' k' t ht hfollows
  rcases new_cases hmove.of_restrict hnew with ⟨t', rfl, hnew, -⟩ | ⟨-, hbegins⟩
  · have ht' := hturns.mem_old (List.mem_singleton_self _)
    have horigin := Origin.of_mem hnew
    cases horigin with
    | @call event cl hcl =>
      have hmem : cl ∈ (c.exchange.far.connection.react event).2 := hcl
      cases Connection.makes_of_mem hmem with
      | detachLink => exact (alone_of_isReading hreach ht' trivial).1
      | cancelProducer => exact ih hopen' k' _ ht' trivial
      | drainLink =>
        have hclosed : c.exchange.far.connection.closed = true :=
          backed_of_due (reach_newRules hreach) _ (Or.inr ⟨k', ht'⟩)
        rw [hopen'] at hclosed
        cases hclosed
      | _ => cases hfollows
    | resumed s =>
      cases s with
      | detachLink | cancelProducer => exact ih hopen' k' _ ht' trivial
      | _ => cases hfollows
    | _ => cases hfollows
  · cases hbegins <;> cases hfollows

/-- Between two frames nothing is left to be done for a producer. -/
theorem not_pending_of_idle [DecidableEq ι]
    (h : Crew.Reach environment (readerRules reader) start c)
    (hopen : c.exchange.far.connection.closed = false) (hidle : c.stack reader = [])
    (hfollows : IsFollowUp t) : ¬ c.Pending t := by
  rintro ⟨k, hk⟩
  rw [reader_of_isFollowUp h hopen hk hfollows, hidle] at hk
  cases hk

/-! ## Frames since a stream was entered -/

/-- The stream object `j` is entered into the route table. -/
def registers (j : Nat) : Event Step → Bool
  | .resumed (.register j') => j' == j
  | _ => false

/-- The frame that is looked at. -/
def received? : Event Step → Option Frame
  | .resumed (.receive f) => some f
  | _ => none

/-- What a connection was told since the stream object `j` was entered. -/
def since (j : Nat) (r : Chronicle) : List (Event Step) :=
  (r.told.dropWhile fun e => !registers j e).tail

/-- The frames that were looked at since the stream object `j` was entered. -/
def framesSince (j : Nat) (r : Chronicle) : List Frame :=
  (r.since j).filterMap received?

/-- The last frame that was looked at before the stream object `j` was entered. -/
def frameBefore? (j : Nat) (r : Chronicle) : Option Frame :=
  ((r.told.takeWhile fun e => !registers j e).filterMap received?).getLast?

/-- Because of a frame it was looked for the link of a stream since the stream object `j` was
entered. -/
def Stopped (j : Nat) (id : UInt32) (r : Chronicle) : Prop :=
  .resumed (.detachLink id) ∈ r.since j

theorem registers_eq_true {event : Event Step} :
    registers j event = true ↔ event = .resumed (.register j) := by
  unfold registers
  split
  · simp
  · rename_i hne
    simpa using hne j

theorem registered_iff : r.Registered j ↔ ∃ event ∈ r.told, registers j event = true := by
  simp [Registered, registers_eq_true]

theorem since_of_not_registered (h : ¬ r.Registered j) : r.since j = [] := by
  rw [since, List.dropWhile_eq_nil_iff.mpr fun event hevent => ?_, List.tail_nil]
  by_contra hreg
  exact h (registered_iff.mpr ⟨event, hevent, by simpa using hreg⟩)

/-- What was told before a stream object was entered, and what was told since. -/
theorem told_of_registered (h : r.Registered j) :
    r.told = (r.told.takeWhile fun e => !registers j e) ++ .resumed (.register j) :: r.since j := by
  obtain ⟨event, hevent, hreg⟩ := registered_iff.mp h
  have hne : (r.told.dropWhile fun e => !registers j e) ≠ [] := fun hnil => by
    have hall := List.dropWhile_eq_nil_iff.mp hnil event hevent
    rw [hreg] at hall
    cases hall
  have hhead : registers j ((r.told.dropWhile fun e => !registers j e).head hne) = true := by
    have hnot := List.head_dropWhile_not (fun e => !registers j e) hne
    simpa using hnot
  rw [since, ← registers_eq_true.mp hhead, List.cons_head_tail, List.takeWhile_append_dropWhile]

/-- What is told once a stream object was entered comes behind all else. -/
theorem since_append_of_registered {s : Chronicle} {events : List (Event Step)}
    (h : r.Registered j) (hs : s.told = r.told ++ events) : s.since j = r.since j ++ events := by
  obtain ⟨event, hevent, hreg⟩ := registered_iff.mp h
  rw [since, hs, List.dropWhile_append, if_neg, List.tail_append_of_ne_nil, since]
  · intro hnil
    have hall := List.dropWhile_eq_nil_iff.mp hnil event hevent
    rw [hreg] at hall
    cases hall
  · intro hempty
    have hall := List.dropWhile_eq_nil_iff.mp (List.isEmpty_iff.mp hempty) event hevent
    rw [hreg] at hall
    cases hall

/-- An entry is followed by nothing yet. -/
theorem since_of_register {s : Chronicle} (h : ¬ r.Registered j)
    (hs : s.told = r.told ++ [.resumed (.register j)]) : s.since j = [] := by
  have hall : ∀ event ∈ r.told, (!registers j event) = true := fun event hevent => by
    by_contra hreg
    exact h (registered_iff.mpr ⟨event, hevent, by simpa using hreg⟩)
  rw [since, hs, List.dropWhile_append_of_pos hall,
    List.dropWhile_cons_of_neg (by simp [registers]), List.tail_cons]

theorem frameBefore?_of_registered {s : Chronicle} {events : List (Event Step)}
    (h : r.Registered j) (hs : s.told = r.told ++ events) : s.frameBefore? j = r.frameBefore? j := by
  have hall : ∀ event ∈ r.told.takeWhile (fun e => !registers j e), (!registers j event) = true :=
    fun _ => List.mem_takeWhile_imp
  rw [frameBefore?, hs, told_of_registered h, List.append_assoc, List.cons_append,
    List.takeWhile_append_of_pos hall, List.takeWhile_cons_of_neg (by simp [registers]),
    List.append_nil, frameBefore?]

theorem since_move (h : Move environment (newRules ι) k e old new e') (hj : e.far.Registered j) :
    e'.far.since j = e.far.since j ++ old.filterMap Task.event? :=
  since_append_of_registered hj (told_move h)

/-- Nothing was told since a stream object was entered that is entered only now. -/
theorem since_move_of_not_registered (h : Move environment (newRules ι) k e old new e')
    (hj : ¬ e.far.Registered j) : e'.far.since j = [] := by
  by_cases hj' : e'.far.Registered j
  · have htold := told_move h
    rcases far_cases h with ⟨event, rfl, -, -⟩ | ⟨hold, -⟩
    · rw [Registered, htold, List.mem_append] at hj'
      have hevent := hj'.resolve_left hj
      obtain rfl := List.mem_singleton.mp hevent
      exact since_of_register hj htold
    · rw [Registered, htold, hold, List.append_nil] at hj'
      exact absurd hj' hj
  · exact since_of_not_registered hj'

/-! ## Why a link is looked for -/

section Stopped

variable [DecidableEq ι]

/-- **A link is about to be looked for because of the last frame.** -/
theorem exists_frame_of_detachLink (h : Crew.Reach environment (readerRules reader) start c)
    (hopen : c.exchange.far.connection.closed = false)
    (ht : t = .call (.resume (.detachLink id)) ∨ t = .tell (.resumed (.detachLink id)))
    (hpending : c.Pending t) :
    ∃ f, (c.exchange.far.told.filterMap received?).getLast? = some f ∧ detachesLink id f := by
  refine reading_induction (P := fun c => c.exchange.far.connection.closed = false →
    ∀ t, t = .call (.resume (.detachLink id)) ∨ t = .tell (.resumed (.detachLink id)) →
      c.Pending t → ∃ f, (c.exchange.far.told.filterMap received?).getLast? = some f ∧
        detachesLink id f) h (by rintro - t - ⟨k, ⟨⟩⟩)
    (fun {c d k old new} hreach ih hmove hturns hopen t ht hpending => ?_) hopen t ht hpending
  have hopen' := isOpen_of_move hmove.of_restrict hopen
  have htold := told_move hmove.of_restrict
  have hfollows : IsFollowUp t := by
    rcases ht with rfl | rfl <;> trivial
  obtain ⟨k', hk'⟩ := hpending
  rcases hturns.mem_stack hk' with hk' | ⟨rfl, hnew⟩
  · obtain ⟨f, hlast, hf⟩ := ih hopen' t ht ⟨k', hk'⟩
    -- The reader looks at no other frame before it has come to this.
    have hnone : (old.filterMap Task.event?).filterMap received? = [] := by
      refine List.filterMap_eq_nil_iff.mpr fun event hevent => ?_
      by_contra hreading
      have ht' := Task.mem_filterMap_event?.mp hevent
      have hreading' : IsReading (.tell event) := by
        unfold received? at hreading
        split at hreading
        · trivial
        · exact absurd rfl hreading
      obtain ⟨hk, hstack⟩ := alone_of_isReading hreach (hturns.mem_old ht') hreading'
      rw [reader_of_isFollowUp hreach hopen' hk' hfollows, ← hk, hstack] at hk'
      rw [List.mem_singleton.mp hk'] at hfollows
      exact hreading'.not_isFollowUp hfollows
    rw [htold, List.filterMap_append, hnone, List.append_nil]
    exact ⟨f, hlast, hf⟩
  · rcases new_cases hmove.of_restrict hnew with ⟨t', rfl, hnew, -⟩ | ⟨-, hbegins⟩
    · have hpending : c.Pending t' := ⟨k', hturns.mem_old (List.mem_singleton_self _)⟩
      have horigin := Origin.of_mem hnew
      rcases ht with rfl | rfl
      · cases horigin with
        | @call event cl hcl =>
          have hmem : .resume (.detachLink id) ∈ (c.exchange.far.connection.react event).2 := hcl
          cases Connection.makes_of_mem hmem with
          | @detachLink f _ hf =>
            rw [htold]
            exact ⟨f, by simp [Task.event?, received?], hf⟩
      · cases horigin with
        | resumed s =>
          rw [htold, List.filterMap_cons_none rfl, List.filterMap_nil, List.append_nil]
          exact ih hopen' _ (Or.inl rfl) hpending
    · rcases ht with rfl | rfl <;> cases hbegins

/-- **A link is looked for because of a frame.**  That is one of those since the stream was entered,
unless the reader was still busy with it when that happened. -/
theorem exists_frame_of_stopped (h : Crew.Reach environment (readerRules reader) start c)
    (hopen : c.exchange.far.connection.closed = false) (hstopped : c.exchange.far.Stopped j id) :
    ∃ f, detachesLink id f ∧
      (f ∈ c.exchange.far.framesSince j ∨ c.exchange.far.frameBefore? j = some f) := by
  refine reading_induction (P := fun c => c.exchange.far.connection.closed = false →
    c.exchange.far.Stopped j id → ∃ f, detachesLink id f ∧
      (f ∈ c.exchange.far.framesSince j ∨ c.exchange.far.frameBefore? j = some f)) h (by rintro - ⟨⟩)
    (fun {c d k old new} hreach ih hmove hturns hopen hstopped => ?_) hopen hstopped
  have hmove' := hmove.of_restrict
  have hopen' := isOpen_of_move hmove' hopen
  by_cases hj : c.exchange.far.Registered j
  · have hbefore := frameBefore?_of_registered hj (told_move hmove')
    rw [Stopped, since_move hmove' hj, List.mem_append] at hstopped
    rw [framesSince, since_move hmove' hj, List.filterMap_append, hbefore]
    suffices hf : ∃ f, detachesLink id f ∧
        (f ∈ c.exchange.far.framesSince j ∨ c.exchange.far.frameBefore? j = some f) from
      hf.imp fun f hf => ⟨hf.1, hf.2.imp_left fun hf => List.mem_append_left _ hf⟩
    rcases hstopped with hstopped | hold
    · exact ih hopen' hstopped
    · obtain ⟨f, hlast, hf⟩ := exists_frame_of_detachLink hreach hopen' (Or.inr rfl)
        ⟨k, hturns.mem_old (Task.mem_filterMap_event?.mp hold)⟩
      refine ⟨f, hf, ?_⟩
      rw [told_of_registered hj, List.filterMap_append, List.filterMap_cons_none rfl,
        List.getLast?_append] at hlast
      cases hsince : ((c.exchange.far.since j).filterMap received?).getLast? with
      | none =>
        rw [hsince] at hlast
        exact Or.inr hlast
      | some f' =>
        rw [hsince] at hlast
        obtain rfl := Option.some.inj hlast
        exact Or.inl (List.mem_of_getLast? hsince)
  · rw [Stopped, since_move_of_not_registered hmove' hj] at hstopped
    cases hstopped

end Stopped

end Chronicle
end Client
end StreamConformance
