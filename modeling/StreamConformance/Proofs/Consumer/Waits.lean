import StreamConformance.Proofs.Consumer.Accounting
import StreamConformance.Proofs.Wakeups

/-!
# Waiting for a consumer

Threads wait for the end of a consumer's stream, or for a number of items, while others deliver
to it, request, cancel and wait.  Every section under the consumer's lock is a move at a monitor
(`StreamConformance.Monitor.play`), so a schedule is any interleaving of any number of threads.

A wait looks at two fields of the consumer: how many items there are, and whether the stream has
ended.  No operation changes them without notifying (`unchanged_of_silent`), and none undoes what
a wait was answered with (`Becomes.answer?_eq`).  From these two facts, both about one operation:

* `attends_play`: a thread that is parked without having been notified has nothing to go on for,
  and one that has returned was answered as it would be answered now.
* `answer?_play`: how a wait is answered depends on the operations alone, and not on who waited
  when.
* `awaits_exactly`: what this comes to for the three ways of waiting.
-/

namespace StreamConformance
namespace Consumer

variable {ι η φ : Type} {c c' : Consumer ι η φ} {op : Operation ι η φ} {a : Option (η × Ask)}

/-! ## What is waited for -/

/-- What a thread waits for has come, or will never come. -/
def Waiting.IsOver (w : Waiting) (c : Consumer ι η φ) : Prop :=
  match w with
  | .terminal => c.terminal ≠ none
  | .atLeast n => n ≤ c.received ∨ c.terminal ≠ none

theorem answer?_terminal :
    c.answer? .terminal = if c.terminal = none then none else some true := by
  cases hterm : c.terminal <;> simp [answer?, isTerminated, hterm]

theorem answer?_atLeast (n : Nat) :
    c.answer? (.atLeast n) =
      if n ≤ c.received then some true else if c.terminal = none then none else some false := by
  cases hterm : c.terminal <;> simp [answer?, isTerminated, hterm]

theorem answer?_eq_none_iff (w : Waiting) : c.answer? w = none ↔ ¬ w.IsOver c := by
  cases w with
  | terminal => simp [answer?_terminal, Waiting.IsOver]
  | atLeast n =>
    rw [answer?_atLeast]
    by_cases hn : n ≤ c.received <;> simp [Waiting.IsOver, hn]

/-- A wait looks at the items and at the end of the stream only. -/
theorem answer?_congr (hreceived : c'.received = c.received) (hterm : c'.terminal = c.terminal)
    (w : Waiting) : c'.answer? w = c.answer? w := by
  cases w with
  | terminal => rw [answer?_terminal, answer?_terminal, hterm]
  | atLeast n => rw [answer?_atLeast, answer?_atLeast, hreceived, hterm]

/-! ## One operation -/

/-- An operation that may change what a wait looks at. -/
def Operation.isEvent : Operation ι η φ → Bool
  | .deliver _ => true
  | .demand .cancel => true
  | _ => false

/-- The operations that notify: deliveries and cancellations, unless they come too late. -/
theorem wakes_perform (c : Consumer ι η φ) (op : Operation ι η φ) :
    (c.perform op).2.wakes = (op.isEvent && !c.isTerminated) := by
  cases op with
  | subscribed h =>
    simp only [perform, subscribed, Operation.isEvent, Bool.false_and]
    split <;> rfl
  | deliver s =>
    cases s <;> cases hterm : c.isTerminated <;>
      simp [perform, deliver, next, terminate, Operation.isEvent, hterm]
  | demand a =>
    cases a with
    | cancel =>
      cases hterm : c.isTerminated <;> simp [perform, demand, cancel, Operation.isEvent, hterm]
    | request n =>
      simp only [perform, demand, request, Operation.isEvent, Bool.false_and]
      split
      · rfl
      · split <;> rfl
  | record holds => rfl
  | setForward target => rfl

/-- **An operation that does not notify changes nothing that a wait looks at.** -/
theorem unchanged_of_silent (hsilent : (c.perform op).2.wakes = false) :
    (c.perform op).1.received = c.received ∧ (c.perform op).1.terminal = c.terminal := by
  rw [wakes_perform] at hsilent
  have h := becomes_perform c op
  generalize (c.perform op).1 = c', (c.perform op).2.ask = a at h
  cases h with
  | taken _ hterm | completed hterm | failed _ hterm | canceled hterm =>
    -- these notify
    simp [Operation.isEvent, isTerminated, hterm] at hsilent
  | late | tooLate | nothing | asked | held | accepted | turnedDown | recorded | forwarded =>
    exact ⟨rfl, rfl⟩

/-- **What a wait has been answered with stands**, whatever is done with the consumer. -/
theorem Becomes.answer?_eq (h : Becomes c op c' a) {w : Waiting} {b : Bool}
    (hb : c.answer? w = some b) : c'.answer? w = some b := by
  by_cases hterm : c.terminal = none
  · -- Before the end of the stream a wait is answered only if there are enough items.
    have henough : ∃ n, w = .atLeast n ∧ n ≤ c.received ∧ b = true := by
      cases w with
      | terminal => simp [answer?_terminal, hterm] at hb
      | atLeast n =>
        rw [answer?_atLeast, if_pos hterm] at hb
        split at hb
        · exact ⟨n, rfl, ‹_›, (Option.some.inj hb).symm⟩
        · cases hb
    obtain ⟨n, rfl, hn, rfl⟩ := henough
    have hn' : n ≤ c'.received := by
      cases h with
      | taken => exact Nat.le_succ_of_le hn
      | late | tooLate | completed | failed | canceled | nothing | asked | held | accepted
      | turnedDown | recorded | forwarded => exact hn
    rw [answer?_atLeast, if_pos hn']
  · have hsame : c'.received = c.received ∧ c'.terminal = c.terminal := by
      cases h with
      | taken _ h | completed h | failed _ h | canceled h | nothing h | asked _ h | held _ h =>
        exact absurd h hterm
      | late | tooLate | accepted | turnedDown | recorded | forwarded => exact ⟨rfl, rfl⟩
    rw [answer?_congr hsame.1 hsame.2, hb]

/-! ## Threads that wait -/

/-- What a thread has to do at a consumer. -/
inductive Errand where
  | wait (w : Waiting)
  /-- Request `n` items, and then wait until there are so many. -/
  | take (n : Nat)

/-- The next section of a thread.  A wait that is over returns what it waited for and the answer;
the request of a `take` is a section of its own. -/
def visit : Errand → Consumer ι η φ → Consumer ι η φ × Thread Errand (Waiting × Bool)
  | .wait w, c =>
    match c.answer? w with
    | some b => (c, .returned (w, b))
    | none => (c, .parked (.wait w) false)
  | .take n, c => ((c.request n).1, .parked (.wait (.atLeast n)) true)

/-- Threads wait, and operations are performed. -/
def waits : Monitor.Rules (Consumer ι η φ) Errand (Waiting × Bool) (Operation ι η φ) where
  visit := visit
  change op c := ((c.perform op).1, (c.perform op).2.wakes)

theorem visit_wait_of_some {w : Waiting} {b : Bool} (h : c.answer? w = some b) :
    visit (.wait w) c = (c, .returned (w, b)) := by
  simp only [visit, h]

theorem visit_wait_of_none {w : Waiting} (h : c.answer? w = none) :
    visit (.wait w) c = (c, .parked (.wait w) false) := by
  simp only [visit, h]

/-- No section of a thread that waits changes what a wait looks at. -/
theorem unchanged_visit (todo : Errand) (c : Consumer ι η φ) :
    (visit todo c).1.received = c.received ∧ (visit todo c).1.terminal = c.terminal := by
  cases todo with
  | wait w =>
    cases h : c.answer? w with
    | none => rw [visit_wait_of_none h]; exact ⟨rfl, rfl⟩
    | some b => rw [visit_wait_of_some h]; exact ⟨rfl, rfl⟩
  | take n =>
    have hsilent : (c.perform (.demand (.request n))).2.wakes = false := wakes_perform _ _
    exact unchanged_of_silent hsilent

/-- What a thread at a consumer is like: if it waits for a notification, then with reason, and if
it has returned, then with the answer that the consumer gives. -/
def Attends (c : Consumer ι η φ) : Thread Errand (Waiting × Bool) → Prop
  | .parked _ true => True
  | .parked todo false => ∃ w, todo = .wait w ∧ c.answer? w = none
  | .returned (w, b) => c.answer? w = some b

theorem Attends.of_unchanged (h : c'.received = c.received ∧ c'.terminal = c.terminal)
    {t : Thread Errand (Waiting × Bool)} (ht : Attends c t) : Attends c' t := by
  have hanswer := answer?_congr h.1 h.2
  match t with
  | .parked _ true => trivial
  | .parked _ false =>
    obtain ⟨w, hw, hnone⟩ := ht
    exact ⟨w, hw, (hanswer w).trans hnone⟩
  | .returned (w, b) => exact (hanswer w).trans ht

theorem keeps_attends :
    Monitor.Keeps (waits : Monitor.Rules (Consumer ι η φ) _ _ _) Attends where
  come _ _ := trivial
  visit c todo := by
    cases todo with
    | wait w =>
      cases h : c.answer? w with
      | none =>
        simp only [waits, visit_wait_of_none h]
        exact ⟨w, rfl, h⟩
      | some b =>
        simp only [waits, visit_wait_of_some h]
        exact h
    | take n => trivial
  other c t todo ht := ht.of_unchanged (unchanged_visit todo c)
  change c t op ht := by
    cases hwakes : (c.perform op).2.wakes with
    | true =>
      simp only [waits, hwakes, if_true]
      match t with
      | .parked _ _ => trivial
      | .returned (w, b) => exact (becomes_perform c op).answer?_eq ht
    | false =>
      simp only [waits, hwakes, Bool.false_eq_true, if_false]
      exact ht.of_unchanged (unchanged_of_silent hwakes)

/-- Threads at a consumer with which nothing has been done yet. -/
abbrev crowd (label : String) (initialDemand : Nat) :
    Monitor (Consumer ι η φ) Errand (Waiting × Bool) where
  state := (Run.start label initialDemand).consumer

variable {label : String} {initialDemand : Nat}
  {moves : List (Monitor.Move Errand (Operation ι η φ))}

/-- **Nobody waits without reason, and everybody has returned the answer that holds.** -/
theorem attends_play : ∀ t ∈ ((crowd label initialDemand).play waits moves).threads,
    Attends ((crowd label initialDemand).play waits moves).state t :=
  keeps_attends.play (fun _ ht => absurd ht List.not_mem_nil) moves

/-! ## Waiting makes no difference -/

theorem Becomes.received_eq (h : Becomes c op c' a) :
    c'.received = if c.terminal = none then c.received + op.item?.toList.length
      else c.received := by
  cases h with
  | taken _ hterm | completed hterm | failed _ hterm | canceled hterm | nothing hterm
  | asked _ hterm | held _ hterm => simp [hterm, Operation.item?]
  | late _ hterm | tooLate _ hterm => simp [hterm]
  | accepted | turnedDown | recorded | forwarded => simp [Operation.item?]

/-- Consumers that agree in what a wait looks at agree after the same operation. -/
theorem agree_perform {d : Consumer ι η φ}
    (h : c.received = d.received ∧ c.terminal = d.terminal) (op : Operation ι η φ) :
    (c.perform op).1.received = (d.perform op).1.received ∧
      (c.perform op).1.terminal = (d.perform op).1.terminal := by
  have hc := becomes_perform c op
  have hd := becomes_perform d op
  exact ⟨by rw [hc.received_eq, hd.received_eq, h.1, h.2],
    by rw [hc.terminal_eq, hd.terminal_eq, h.2]⟩

theorem agree_play {m : Monitor (Consumer ι η φ) Errand (Waiting × Bool)} {r : Run ι η φ}
    (h : m.state.received = r.consumer.received ∧ m.state.terminal = r.consumer.terminal)
    (moves : List (Monitor.Move Errand (Operation ι η φ))) :
    (m.play waits moves).state.received =
        (r.afterAll (Monitor.changes moves)).consumer.received ∧
      (m.play waits moves).state.terminal =
        (r.afterAll (Monitor.changes moves)).consumer.terminal := by
  induction moves generalizing m r with
  | nil => exact h
  | cons move moves ih =>
    cases move with
    | come todo => exact ih h
    | look k =>
      have hlook : (m.look waits k).state.received = m.state.received ∧
          (m.look waits k).state.terminal = m.state.terminal := by
        rcases Monitor.look_cases waits k m with hlook | ⟨todo, -, hlook⟩
        · rw [hlook]
          exact ⟨rfl, rfl⟩
        · rw [hlook]
          exact unchanged_visit todo m.state
      exact ih ⟨hlook.1.trans h.1, hlook.2.trans h.2⟩
    | change op =>
      refine ih (r := r.after op) ?_
      rw [Monitor.advance, Monitor.state_update]
      exact agree_perform h op

/-- **How a wait is answered depends on the operations alone**, whoever waits and whenever. -/
theorem answer?_play (w : Waiting) :
    ((crowd label initialDemand).play waits moves).state.answer? w =
      (run label initialDemand (Monitor.changes moves)).consumer.answer? w :=
  have h := agree_play (m := crowd label initialDemand) (r := Run.start label initialDemand)
    ⟨rfl, rfl⟩ moves
  answer?_congr h.1 h.2 w

/-! ## The three ways of waiting -/

/-- Waiting for a consumer is exact, as far as a schedule goes. -/
structure AwaitsExactly (label : String) (initialDemand : Nat)
    (moves : List (Monitor.Move Errand (Operation ι η φ))) : Prop where
  /-- Nobody stays parked, without having been notified since, while there is nothing to wait
  for. -/
  parked : ∀ todo, .parked todo false ∈ ((crowd label initialDemand).play waits moves).threads →
    ∃ w, todo = .wait w ∧ ¬ w.IsOver ((crowd label initialDemand).play waits moves).state
  /-- Whoever looks while there is nothing to wait for returns. -/
  returns : ∀ k w,
    ((crowd label initialDemand).play waits moves).threads[k]? = some (.parked (.wait w) true) →
    w.IsOver ((crowd label initialDemand).play waits moves).state →
    ∃ b, ((crowd label initialDemand).play waits (moves ++ [.look k])).threads[k]? =
      some (.returned (w, b))
  /-- A wait for the end returns only when the stream has ended. -/
  terminal : ∀ b,
    .returned (.terminal, b) ∈ ((crowd label initialDemand).play waits moves).threads →
    ((crowd label initialDemand).play waits moves).state.terminal ≠ none
  /-- A wait for `n` items returns true exactly if there are so many, and false only if the
  stream has ended. -/
  atLeast : ∀ n b,
    .returned (.atLeast n, b) ∈ ((crowd label initialDemand).play waits moves).threads →
    (b = true ↔ n ≤ ((crowd label initialDemand).play waits moves).state.received) ∧
      (b = false → ((crowd label initialDemand).play waits moves).state.terminal ≠ none)
  /-- What a wait for items gave up on never comes. -/
  never : ∀ n,
    .returned (.atLeast n, false) ∈ ((crowd label initialDemand).play waits moves).threads →
    ∀ more, ((crowd label initialDemand).play waits (moves ++ more)).state.received < n
  /-- The answer is what the operations come to: it is the same if the wait begins at another
  time, if other threads wait, and if nobody does. -/
  answer : ∀ w b,
    .returned (w, b) ∈ ((crowd label initialDemand).play waits moves).threads →
    (run label initialDemand (Monitor.changes moves)).consumer.answer? w = some b

theorem terminal_of_answer? {b : Bool} (h : c.answer? .terminal = some b) : c.terminal ≠ none := by
  intro hterm
  simp [answer?_terminal, hterm] at h

theorem atLeast_of_answer? {n : Nat} {b : Bool} (h : c.answer? (.atLeast n) = some b) :
    (b = true ↔ n ≤ c.received) ∧ (b = false → c.terminal ≠ none) := by
  rw [answer?_atLeast] at h
  by_cases hn : n ≤ c.received
  · rw [if_pos hn] at h
    obtain rfl := Option.some.inj h
    simp [hn]
  · rw [if_neg hn] at h
    split at h
    · cases h
    · obtain rfl := Option.some.inj h
      exact ⟨by simpa using hn, fun _ => ‹_›⟩

/-- **Waiting for a consumer is exact**, for any number of threads and in every schedule. -/
theorem awaits_exactly (label : String) (initialDemand : Nat)
    (moves : List (Monitor.Move Errand (Operation ι η φ))) :
    AwaitsExactly label initialDemand moves where
  parked todo h := by
    obtain ⟨w, hw, hnone⟩ := attends_play _ h
    exact ⟨w, hw, (answer?_eq_none_iff w).mp hnone⟩
  returns k w hk hover := by
    obtain ⟨b, hb⟩ := Option.ne_none_iff_exists'.mp
      (mt (answer?_eq_none_iff w).mp (not_not_intro hover))
    refine ⟨b, ?_⟩
    rw [Monitor.play_concat, Monitor.advance, Monitor.getElem?_look_of_ready hk]
    exact congrArg (some ·.2) (visit_wait_of_some hb)
  terminal b h := terminal_of_answer? (attends_play _ h)
  atLeast n b h := atLeast_of_answer? (attends_play _ h)
  never n h more := by
    obtain ⟨k, hk⟩ := List.mem_iff_getElem?.mp h
    have hlater : .returned (.atLeast n, false) ∈
        ((crowd label initialDemand).play waits (moves ++ more)).threads := by
      rw [Monitor.play_append]
      exact List.mem_of_getElem? (Monitor.returned_play hk more)
    simpa using (atLeast_of_answer? (attends_play _ hlater)).1
  answer w b h := by
    rw [← answer?_play]
    exact attends_play _ h

/-- A thread that takes an item waits until another one delivers it. -/
example :
    ((crowd "c" 0 : Monitor (Consumer Nat Unit Unit) _ _).play waits
        [.come (.take 1), .look 0, .look 0, .look 0, .change (.deliver (.next 7)), .look 0]).threads =
      [.returned (.atLeast 1, true)] :=
  rfl

end Consumer
end StreamConformance
