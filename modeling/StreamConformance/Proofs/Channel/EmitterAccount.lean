import StreamConformance.Proofs.Channel.Emissions
import StreamConformance.Proofs.Consumer.Accounting

/-!
# The account of an emitter

What is left of the demand of an emitter, and why it is closed, are told by what it has sent and what
it was asked for.

* `Emitter.Accounts`: what an emitter has sent and what it was asked for agree with what it is.
* `Emitter.Accounts.goes`: whatever becomes of the emitter, its account is kept.
-/

namespace StreamConformance

namespace Emitter

variable {e e' : Emitter} {s : Signal Payload}

/-- What an emitter has sent and what it was asked for agree with what it is. -/
structure Accounts (asked : List Ask) (sent : List (Signal Payload)) (e : Emitter) : Prop where
  canceled : e.canceled = true ↔ .cancel ∈ asked
  finished : e.finished = true ↔ ∃ s ∈ sent, s.isTerminal = true
  /-- Nothing is used that was not asked for. -/
  le : (sent.filterMap Signal.item?).length + e.demand ≤ (asked.map Ask.amount).sum
  /-- Nothing is lost, unless the sum is too large. -/
  min_le : min (asked.map Ask.amount).sum Demand.limit ≤
    (sent.filterMap Signal.item?).length + e.demand

variable {asked asked' : List Ask} {sent sent' : List (Signal Payload)}

theorem accounts_fresh : Accounts [] [] {} :=
  ⟨by simp, by simp, Nat.le_refl 0, Nat.zero_le _⟩

/-- **The account is kept.** -/
theorem Accounts.goes (h : Accounts asked sent e) (hgoes : Goes sent' asked' e e') :
    Accounts (asked ++ asked') (sent ++ sent') e' := by
  cases hgoes with
  | rest => rwa [List.append_nil, List.append_nil]
  | ask a =>
    rw [List.append_nil]
    cases a with
    | request n =>
      refine ⟨by simpa [ask] using h.canceled, h.finished, ?_, ?_⟩
      · have hle := h.le
        have hadd := Demand.add_le e.demand n
        simp only [ask, List.map_append, List.sum_append, List.map_cons, List.map_nil,
          List.sum_cons, List.sum_nil, Ask.amount]
        omega
      · have hle := h.min_le
        have hadd : Demand.add e.demand n = min (e.demand + n) Demand.limit := rfl
        simp only [ask, List.map_append, List.sum_append, List.map_cons, List.map_nil,
          List.sum_cons, List.sum_nil, Ask.amount]
        omega
    | cancel =>
      refine ⟨by simp [ask], h.finished, ?_, ?_⟩
      · simpa [ask, Ask.amount] using h.le
      · simpa [ask, Ask.amount] using h.min_le
  | item item hopen hdemand =>
    rw [List.append_nil]
    have hlength : ((sent ++ [Signal.next item]).filterMap Signal.item?).length =
        (sent.filterMap Signal.item?).length + 1 := by
      simp [Signal.item?]
    refine ⟨h.canceled, by simpa [Signal.isTerminal] using h.finished, ?_, ?_⟩
    · have hle := h.le
      rw [hlength]
      show _ + (e.demand - 1) ≤ _
      omega
    · have hle := h.min_le
      rw [hlength]
      show _ ≤ _ + (e.demand - 1)
      omega
  | @terminal e s hs hopen =>
    rw [List.append_nil]
    have hitems : (sent ++ [s]).filterMap Signal.item? = sent.filterMap Signal.item? := by
      simp [item?_eq_none_of_isTerminal hs]
    refine ⟨h.canceled, iff_of_true rfl ⟨s, by simp, hs⟩, ?_, ?_⟩
    · rw [hitems]
      exact h.le
    · rw [hitems]
      exact h.min_le

/-- What was asked for is what was sent and what is left, unless the sum is too large. -/
theorem Accounts.eq (h : Accounts asked sent e)
    (hsum : (asked.map Ask.amount).sum ≤ Demand.limit) :
    (sent.filterMap Signal.item?).length + e.demand = (asked.map Ask.amount).sum :=
  Nat.le_antisymm h.le (Nat.min_eq_left hsum ▸ h.min_le)

theorem Accounts.isClosed_iff (h : Accounts asked sent e) :
    e.isClosed = true ↔ (∃ s ∈ sent, s.isTerminal = true) ∨ .cancel ∈ asked := by
  rw [isClosed, Bool.or_eq_true, h.canceled, h.finished, or_comm]

/-- As long as an emitter is open it has sent items only. -/
theorem Accounts.items (h : Accounts asked sent e) (hopen : e.isClosed = false) :
    ∀ s ∈ sent, s.isTerminal = false := by
  intro s hs
  by_contra hterminal
  have hclosed := h.isClosed_iff.mpr (Or.inl ⟨s, hs, (Bool.not_eq_false _).mp hterminal⟩)
  rw [hopen] at hclosed
  cases hclosed

end Emitter
end StreamConformance
