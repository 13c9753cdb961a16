import StreamConformance.Proofs.Crew

/-!
# Emissions

An emitter decides on one signal after another, and is asked for items or for the end at any time
between two of them.  `Emitter.Goes` says what can become of it: an item uses a unit of demand that
was there, a completion or an error uses none, and only what was asked for adds any.

* `Emitter.goes_emit`, `Emitter.refused_of_isClosed`: what is decided.
* `Emitter.demand_of_sent`, `Emitter.finished_of_sent`: what was sent is told by the emitter before
  and afterwards.
-/

namespace StreamConformance

namespace Emitter

variable {e e' : Emitter} {s : Signal Payload}

/-- Whether a signal is sent. -/
def Emission.isSent : Emission → Bool
  | .sent _ => true
  | _ => false

/-- What becomes of an emitter when the signals `sent` are decided on, or it is asked for `asked`. -/
inductive Goes : List (Signal Payload) → List Ask → Emitter → Emitter → Prop where
  | rest {e : Emitter} : Goes [] [] e e
  | ask {e : Emitter} (a : Ask) : Goes [] [a] e (e.ask a)
  /-- An item uses one unit of demand, which is there. -/
  | item {e : Emitter} (item : Payload) (hopen : e.isClosed = false) (hdemand : 0 < e.demand) :
      Goes [.next item] [] e { e with demand := e.demand - 1 }
  /-- A completion or error uses none. -/
  | terminal {e : Emitter} {s : Signal Payload} (hs : s.isTerminal = true)
      (hopen : e.isClosed = false) : Goes [s] [] e { e with finished := true }

/-- A closed emitter refuses everything; nothing has to wait. -/
theorem refused_of_isClosed (h : e.isClosed = true) (s : Signal Payload) : e.emit s = .refused :=
  if_pos h

theorem isClosed_of_refused (h : e.emit s = .refused) : e.isClosed = true := by
  by_contra hopen
  unfold emit at h
  rw [if_neg hopen] at h
  cases s with
  | next item =>
    by_cases hd : e.demand = 0
    · simp [hd] at h
    · simp [hd] at h
  | complete | error => cases h

/-- **What is sent.** -/
theorem goes_emit (h : e.emit s = .sent e') : Goes [s] [] e e' := by
  have hopen : e.isClosed = false := by
    by_contra hclosed
    rw [refused_of_isClosed ((Bool.not_eq_false _).mp hclosed)] at h
    cases h
  unfold emit at h
  rw [if_neg (by simp [hopen])] at h
  cases s with
  | next item =>
    by_cases hd : e.demand = 0
    · simp [hd] at h
    · simp only [beq_iff_eq, hd, if_false, Emission.sent.injEq] at h
      subst h
      exact .item item hopen (Nat.pos_of_ne_zero hd)
  | complete | error =>
    cases h
    exact .terminal rfl hopen

theorem Goes.isClosed {sent : List (Signal Payload)} {asked : List Ask}
    (h : Goes sent asked e e') (hclosed : e.isClosed = true) : sent = [] ∧ e'.isClosed = true := by
  cases h with
  | rest => exact ⟨rfl, hclosed⟩
  | ask a =>
    refine ⟨rfl, ?_⟩
    cases a with
    | request n => exact hclosed
    | cancel => rfl
  | item item hopen hdemand => exact absurd (hclosed.symm.trans hopen) (by simp)
  | terminal hs hopen => exact absurd (hclosed.symm.trans hopen) (by simp)

/-! ## What was sent -/

theorem item?_eq_none_of_isTerminal {s : Signal Payload} (hs : s.isTerminal = true) :
    s.item? = none := by
  cases s with
  | next item => cases hs
  | complete | error => rfl

/-- A signal is sent by an emitter that is not closed. -/
theorem isClosed_of_sent (h : e.emit s = .sent e') : e.isClosed = false := by
  cases goes_emit h with
  | item item hopen | terminal hs hopen => exact hopen

/-- A signal is sent by an emitter that is not finished, and finishes it if it is a completion or
error. -/
theorem finished_of_sent (h : e.emit s = .sent e') :
    e.finished = false ∧ (s.isTerminal = true → e'.finished = true) := by
  refine ⟨(Bool.or_eq_false_iff.mp (isClosed_of_sent h)).2, fun hs => ?_⟩
  cases goes_emit h with
  | item item => cases hs
  | terminal => rfl

/-- An item uses one unit of demand; completions and errors use none. -/
theorem demand_of_sent (h : e.emit s = .sent e') :
    e.demand = s.item?.toList.length + e'.demand := by
  cases goes_emit h with
  | item item hopen hdemand =>
    show e.demand = 1 + (e.demand - 1)
    omega
  | terminal hs hopen =>
    rw [item?_eq_none_of_isTerminal hs]
    exact (Nat.zero_add _).symm

/-- An item is sent only if there is demand for it. -/
theorem demand_pos_of_sent (h : e.emit s = .sent e') (hs : s.isTerminal = false) :
    0 < e.demand := by
  cases goes_emit h with
  | item item hopen hdemand => exact hdemand
  | terminal hterminal =>
    rw [hs] at hterminal
    cases hterminal

/-- Sending adds no demand. -/
theorem demand_le_of_sent (h : e.emit s = .sent e') : e'.demand ≤ e.demand := by
  rw [demand_of_sent h]
  exact Nat.le_add_left ..

end Emitter
end StreamConformance
