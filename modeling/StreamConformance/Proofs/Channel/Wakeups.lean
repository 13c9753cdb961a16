import Mathlib.Data.List.Induction
import StreamConformance.Proofs.Channel.Emissions
import StreamConformance.Proofs.Wakeups

/-!
# Threads at an emitter

Any number of threads send signals through one emitter, each some signals in order, while the peer
asks for items and cancels.  Each decision on a signal is a section of its own under the emitter's
lock (`Emitter.visit`), so a schedule at the monitor is any interleaving of the threads.

An item has to wait as long as there is no demand, the emitter is not canceled and it is not
finished.  What the peer does changes the first two, and notifies.  The third is changed by a
thread that sends a completion or an error, *and this does not notify*: a thread that waits for
demand meanwhile is left parked, though there is nothing left to wait for
(`lost_wakeup_of_completion`).  It goes on when the peer next asks for something, if ever.

This is the only way to lose a wake-up: none is lost in a schedule exactly if nobody waits whenever
the emitter is finished (`noLostWakeup_iff`).

`Recorded.play` and what is built on it are schedules of this kind: `exists_moves_respond`,
`exists_moves_ask`.
-/

namespace StreamConformance
namespace Emitter

variable {e e' : Emitter} {s : Signal Payload} {rest : List (Signal Payload)}

/-! ## One section -/

/-- The next section of a thread that has some signals left to send. -/
def visit : List (Signal Payload) → Emitter → Emitter × Thread (List (Signal Payload)) Unit
  | [], e => (e, .returned ())
  | s :: rest, e =>
    match e.emit s with
    | .waits => (e, .parked (s :: rest) false)
    | .refused => (e, .returned ())
    | .sent e' => (e', .parked rest true)

/-- Threads send signals, and the peer asks. -/
def emissions : Monitor.Rules Emitter (List (Signal Payload)) Unit Ask where
  visit := visit
  change a e := (e.ask a, true)

/-- Threads at an emitter. -/
abbrev Crowd := Monitor Emitter (List (Signal Payload)) Unit

/-- There is a reason to wait before an item is sent. -/
def HasToWait (e : Emitter) : Prop :=
  e.demand = 0 ∧ e.canceled = false ∧ e.finished = false

theorem hasToWait_of_waits (h : e.emit s = .waits) : e.HasToWait := by
  have hopen : e.isClosed = false := by
    by_contra hclosed
    rw [refused_of_isClosed ((Bool.not_eq_false _).mp hclosed)] at h
    cases h
  obtain ⟨hcanceled, hfinished⟩ := Bool.or_eq_false_iff.mp hopen
  refine ⟨?_, hcanceled, hfinished⟩
  unfold emit at h
  rw [if_neg (by simp [hopen])] at h
  cases s with
  | next item =>
    by_contra hdemand
    simp [hdemand] at h
  | complete | error => cases h

/-- Sending does not cancel. -/
theorem canceled_of_sent (h : e.emit s = .sent e') : e'.canceled = e.canceled := by
  cases goes_emit h with
  | item | terminal => rfl

/-- What a thread can do in a section. -/
inductive Visits (e : Emitter) :
    List (Signal Payload) → Emitter → Thread (List (Signal Payload)) Unit → Prop where
  | done : Visits e [] e (.returned ())
  | waits (s : Signal Payload) (rest : List (Signal Payload)) (h : e.HasToWait) :
      Visits e (s :: rest) e (.parked (s :: rest) false)
  | refused (s : Signal Payload) (rest : List (Signal Payload)) (h : e.isClosed = true) :
      Visits e (s :: rest) e (.returned ())
  | sent {s : Signal Payload} {e' : Emitter} (rest : List (Signal Payload))
      (h : e.emit s = .sent e') : Visits e (s :: rest) e' (.parked rest true)

theorem visits (todo : List (Signal Payload)) (e : Emitter) :
    Visits e todo (visit todo e).1 (visit todo e).2 := by
  cases todo with
  | nil => exact .done
  | cons s rest =>
    rw [visit]
    cases h : e.emit s with
    | waits => exact .waits s rest (hasToWait_of_waits h)
    | refused => exact .refused s rest (isClosed_of_refused h)
    | sent e' => exact .sent rest h

/-- Whoever parks does so with reason. -/
theorem hasToWait_of_parked {todo left : List (Signal Payload)}
    (h : (visit todo e).2 = .parked left false) : (visit todo e).1.HasToWait := by
  have hv := visits todo e
  generalize (visit todo e).1 = e', (visit todo e).2 = t at h hv
  cases hv with
  | waits _ _ hwait => exact hwait
  | done | refused | sent => cases h

/-! ## Schedules -/

/-- A thread waits for a notification only while there is no demand and no cancellation. -/
def Starves (e : Emitter) (t : Thread (List (Signal Payload)) Unit) : Prop :=
  ∀ todo, t = .parked todo false → e.demand = 0 ∧ e.canceled = false

theorem keeps_starves : Monitor.Keeps emissions Starves where
  come _ _ _ h := by cases h
  visit e todo left h := by
    have hwait := hasToWait_of_parked h
    exact ⟨hwait.1, hwait.2.1⟩
  other e t todo ht left h := by
    obtain ⟨hdemand, hcanceled⟩ := ht left h
    have hv := visits todo e
    simp only [emissions]
    generalize (visit todo e).1 = e', (visit todo e).2 = t' at hv
    cases hv with
    | done | waits | refused => exact ⟨hdemand, hcanceled⟩
    | sent _ hsent =>
      exact ⟨Nat.le_zero.mp (hdemand ▸ demand_le_of_sent hsent),
        (canceled_of_sent hsent).trans hcanceled⟩
  change e t a _ left h := by
    -- Whatever the peer asks for, everybody is notified.
    cases t <;> cases h

/-- An emitter of which nothing has been asked yet, and nobody at it. -/
abbrev Crowd.new : Crowd where
  state := {}

/-- Every thread that waits for a notification has a reason to wait. -/
def NoLostWakeup (m : Crowd) : Prop :=
  ∀ todo, .parked todo false ∈ m.threads → m.state.HasToWait

variable {moves : List (Monitor.Move (List (Signal Payload)) Ask)}

theorem noLostWakeup_iff_stirring :
    NoLostWakeup (Crowd.new.play emissions moves) ↔
      ((Crowd.new.play emissions moves).state.finished = true →
        (Crowd.new.play emissions moves).Stirring) := by
  have hstarves := keeps_starves.play (m := Crowd.new)
    (fun _ ht => absurd ht List.not_mem_nil) moves
  constructor
  · intro h hfinished todo ht
    exact Bool.false_ne_true ((h todo ht).2.2.symm.trans hfinished)
  · intro h todo ht
    obtain ⟨hdemand, hcanceled⟩ := hstarves _ ht todo rfl
    refine ⟨hdemand, hcanceled, ?_⟩
    by_contra hfinished
    exact h ((Bool.not_eq_false _).mp hfinished) todo ht

/-- In its next section the thread `k` finishes the emitter. -/
def Finishes (k : Nat) (m : Crowd) : Prop :=
  m.state.finished = false ∧ (m.look emissions k).state.finished = true

/-- Nobody begins to wait in a section after which the emitter is finished. -/
theorem stirring_look {m : Crowd} (h : m.Stirring) {k : Nat}
    (hfinished : (m.look emissions k).state.finished = true) : (m.look emissions k).Stirring := by
  intro todo ht
  rcases Monitor.look_cases emissions k m with hlook | ⟨todo', -, hlook⟩
  · rw [hlook] at ht
    exact h todo ht
  · rw [hlook] at ht hfinished
    rcases List.mem_or_eq_of_mem_set ht with ht | ht
    · exact h todo ht
    · have hwait := hasToWait_of_parked ht.symm
      exact Bool.false_ne_true (hwait.2.2.symm.trans hfinished)

/-- If nobody waits whenever the emitter is finished, nobody waits at a finished emitter. -/
theorem stirring_of_finishes
    (h : ∀ earlier k, earlier ++ [.look k] <+: moves →
      Finishes k (Crowd.new.play emissions earlier) →
      (Crowd.new.play emissions earlier).Stirring)
    {earlier : List (Monitor.Move (List (Signal Payload)) Ask)} (hearlier : earlier <+: moves)
    (hfinished : (Crowd.new.play emissions earlier).state.finished = true) :
    (Crowd.new.play emissions earlier).Stirring := by
  induction earlier using List.reverseRecOn with
  | nil => cases hfinished
  | append_singleton earlier move ih =>
    have hprefix : earlier <+: moves := (List.prefix_append earlier [move]).trans hearlier
    rw [Monitor.play_concat] at hfinished ⊢
    cases move with
    | come todo =>
      intro left ht
      rcases List.mem_append.mp ht with ht | ht
      · exact ih hprefix hfinished left ht
      · cases List.mem_singleton.mp ht
    | look k =>
      refine stirring_look ?_ hfinished
      by_cases hbefore : (Crowd.new.play emissions earlier).state.finished = true
      · exact ih hprefix hbefore
      · exact h earlier k hearlier ⟨(Bool.not_eq_true _).mp hbefore, hfinished⟩
    | change a => exact Monitor.stirring_update_true _ _

/-- **No wake-up is lost exactly if nobody waits whenever the emitter is finished.** -/
theorem noLostWakeup_iff (moves : List (Monitor.Move (List (Signal Payload)) Ask)) :
    (∀ earlier, earlier <+: moves → NoLostWakeup (Crowd.new.play emissions earlier)) ↔
      ∀ earlier k, earlier ++ [.look k] <+: moves →
        Finishes k (Crowd.new.play emissions earlier) →
        (Crowd.new.play emissions earlier).Stirring := by
  constructor
  · intro h earlier k hearlier hfinishes todo ht
    have hwait := h _ hearlier
    rw [Monitor.play_concat] at hwait
    have hunfinished := (hwait todo (Monitor.mem_look_of_waits k ht)).2.2
    exact Bool.false_ne_true (hunfinished.symm.trans hfinishes.2)
  · intro h earlier hearlier
    exact noLostWakeup_iff_stirring.mpr (stirring_of_finishes h hearlier)

/-- One thread waits for demand, and another completes: the first stays parked. -/
theorem lost_wakeup_of_completion :
    ¬ NoLostWakeup (Crowd.new.play emissions
      [.come [.next ⟨"a", "a"⟩], .look 0, .come [.complete], .look 1]) := by
  intro h
  have hwait := h [.next ⟨"a", "a"⟩] (List.mem_cons_self ..)
  exact Bool.false_ne_true (hwait.2.2.symm.trans rfl)

/-! ## Players -/

/-- The threads that play signals, without what the peer got. -/
def Players.crowd (m : Players) : Crowd where
  state := m.state.emitter
  threads := m.threads

/-- A thread that plays signals has one section after another, until it waits or has returned. -/
theorem exists_looks_play (signals : List (Signal Payload)) (r : Recorded)
    {threads : List (Thread (List (Signal Payload)) Unit)} {k : Nat}
    (hk : threads[k]? = some (.parked signals true)) :
    ∃ n, Monitor.play emissions ⟨r.emitter, threads⟩ (List.replicate n (.look k)) =
      ⟨(Recorded.play signals r).1.emitter,
        threads.set k (Thread.after (Recorded.play signals r).2)⟩ := by
  induction signals generalizing r threads with
  | nil =>
    refine ⟨1, ?_⟩
    rw [List.replicate_one, Monitor.play_cons, Monitor.play_nil, Monitor.advance,
      Monitor.look_of_ready hk]
    rfl
  | cons s rest ih =>
    have hlook : Monitor.look emissions k ⟨r.emitter, threads⟩ =
        ⟨(visit (s :: rest) r.emitter).1, threads.set k (visit (s :: rest) r.emitter).2⟩ :=
      Monitor.look_of_ready hk
    rw [Recorded.play]
    cases hs : r.emitter.emit s with
    | waits | refused =>
      rw [visit, hs] at hlook
      exact ⟨1, hlook⟩
    | sent e' =>
      rw [visit, hs] at hlook
      have hk' : (threads.set k (.parked rest true))[k]? = some (.parked rest true) :=
        List.getElem?_set_self (List.getElem?_eq_some_iff.mp hk).1
      obtain ⟨n, hn⟩ := ih (r.deliver s e') hk'
      refine ⟨n + 1, ?_⟩
      rw [List.replicate_succ, Monitor.play_cons, Monitor.advance, hlook]
      rw [List.set_set] at hn
      exact hn

/-- Notified threads play one after another. -/
theorem exists_moves_settleThreads (r : Recorded)
    (before threads : List (Thread (List (Signal Payload)) Unit)) :
    ∃ moves, Monitor.play emissions ⟨r.emitter, before ++ threads⟩ moves =
      ⟨(Monitor.settleThreads Recorded.play r threads).1.emitter,
        before ++ (Monitor.settleThreads Recorded.play r threads).2⟩ := by
  induction threads generalizing r before with
  | nil => exact ⟨[], rfl⟩
  | cons t threads ih =>
    match t with
    | .parked todo true =>
      have hk : (before ++ .parked todo true :: threads)[before.length]? =
          some (Thread.parked (ρ := Unit) todo true) := by simp
      obtain ⟨n, hn⟩ := exists_looks_play todo r hk
      obtain ⟨moves, hmoves⟩ :=
        ih (Recorded.play todo r).1 (before ++ [Thread.after (Recorded.play todo r).2])
      refine ⟨List.replicate n (.look before.length) ++ moves, ?_⟩
      rw [Monitor.play_append, hn]
      simpa [Monitor.settleThreads] using hmoves
    | .parked todo false =>
      obtain ⟨moves, hmoves⟩ := ih r (before ++ [.parked todo false])
      exact ⟨moves, by simpa [Monitor.settleThreads] using hmoves⟩
    | .returned result =>
      obtain ⟨moves, hmoves⟩ := ih r (before ++ [.returned result])
      exact ⟨moves, by simpa [Monitor.settleThreads] using hmoves⟩

/-- **A thread that is started to play signals is a thread that comes**, and has its sections. -/
theorem exists_moves_respond (signals : List (Signal Payload)) (m : Players) :
    ∃ moves, m.crowd.play emissions moves = (m.respond signals).crowd := by
  have hk : (m.threads ++ [.parked signals true])[m.threads.length]? =
      some (Thread.parked (ρ := Unit) signals true) := by simp
  obtain ⟨n, hn⟩ := exists_looks_play signals m.state hk
  refine ⟨.come signals :: List.replicate n (.look m.threads.length), ?_⟩
  rw [Monitor.play_cons]
  refine hn.trans ?_
  simp [Players.crowd, Players.respond, Monitor.spawn]

/-- **What the peer asks for is a change of the emitter**, after which the notified threads have
their sections. -/
theorem exists_moves_ask (a : Ask) (m : Players) :
    ∃ moves, m.crowd.play emissions moves = (m.ask a).crowd := by
  obtain ⟨moves, hmoves⟩ := exists_moves_settleThreads
    { m.state with emitter := m.state.emitter.ask a } [] (m.threads.map Thread.notify)
  exact ⟨.change a :: moves, hmoves⟩

/-- A completion while a player waits leaves the player waiting. -/
example : ((Players.respond [.next ⟨"a", "a"⟩] { state := {} }).emit .complete).1.isWaiting = true :=
  rfl

end Emitter
end StreamConformance
