import StreamConformance.Proofs.Channel.Emissions

/-!
# Accounts of a channel's signals

The peer that subscribes to a scripted producer gets signals from two sides: the initial payload,
which its own demand brings out, and what the script emits.  An account says where the initial
payload is and which signals the script has sent.

* `Account`: the account itself; `Account.told` is what the peer has heard by it.
* `Tallies`: an account agrees with the producer and with what the threads have still to do.
* `OnDemand`: what is true besides, as long as the peer asks for nothing once it has canceled.
* `Tallies.release`, `Tallies.hear_initial`, `Tallies.hear_hand`, `Tallies.emit`,
  `Tallies.cancel`, `Tallies.keep`: how an account is kept right.
-/

namespace StreamConformance

/-- Items, and after them at most one completion or error. -/
def EndsOnce (l : List (Signal Payload)) : Prop :=
  l.Pairwise fun s _ => s.isTerminal = false

/-- The initial payload comes first, and nothing comes behind a completion or error. -/
def InitialFirst (p0 : Payload) (l : List (Signal Payload)) : Prop :=
  l = [] ∨ ∃ l', l = .next p0 :: l' ∧ EndsOnce l'

theorem EndsOnce.concat {l : List (Signal Payload)} (h : ∀ s ∈ l, s.isTerminal = false)
    (s : Signal Payload) : EndsOnce (l ++ [s]) := by
  refine List.pairwise_append.mpr ⟨?_, List.pairwise_singleton .., fun a ha b _ => h a ha⟩
  exact List.Pairwise.imp_of_mem (fun ha _ _ => h _ ha) (List.pairwise_of_forall fun _ _ => trivial)

/-- Where the initial payload of a channel is. -/
inductive Opening (ι : Type) where
  /-- No demand has come yet. -/
  | waiting
  /-- Thread `k` is about to deliver it, for a demand of `n`. -/
  | held (k : ι) (n : Nat)
  | heard
  /-- The peer canceled before it asked for anything. -/
  | dropped

/-- What has become of the initial payload of a channel and of the signals of its script. -/
structure Account (ι : Type) where
  opening : Opening ι := .waiting
  /-- What the peer heard of the script ahead of the initial payload. -/
  before : List (Signal Payload) := []
  /-- What the peer heard of the script behind the initial payload. -/
  after : List (Signal Payload) := []
  /-- What the script has decided to send and not yet delivered. -/
  hand : Option (Signal Payload) := none

namespace Account

variable {ι τ : Type}

/-- The signals that the script has decided to send, in order. -/
def sent (a : Account ι) : List (Signal Payload) :=
  a.before ++ a.after ++ a.hand.toList

/-- What the peer heard, in order. -/
def told (p0 : Payload) (a : Account ι) : List (Signal Payload) :=
  match a.opening with
  | .heard => a.before ++ .next p0 :: a.after
  | _ => a.before ++ a.after

/-- The peer hears what the script has sent. -/
def hear (s : Signal Payload) (a : Account ι) : Account ι :=
  match a.opening with
  | .heard => { a with after := a.after ++ [s], hand := none }
  | _ => { a with before := a.before ++ [s], hand := none }

/-- What thread `k` is about to deliver to the peer `r` of the producer `i`. -/
def front [DecidableEq ι] (script : ι) (i : Nat) (r : Handle) (p0 : Payload) (a : Account ι)
    (k : ι) : List (Task τ) :=
  (match a.opening with
    | .held j n => if j = k then [.tell (.heard r (.next p0)), .settle i n] else []
    | _ => []) ++
  if k = script then a.hand.toList.map fun s => .tell (.heard r s) else []

/-- A task delivers nothing to the peer, and settles nothing as long as the initial payload has
not been heard. -/
def Idle (i : Nat) (r : Handle) (a : Account ι) (t : Task τ) : Prop :=
  (∀ s, t ≠ .tell (.heard r s)) ∧ (a.opening ≠ .heard → ∀ n, t ≠ .settle i n)

section Idle

variable {σ : Type} {env : Environment σ τ} {i : Nat} {r : Handle} {a : Account ι}

theorem idle_call (cl : Call τ) : a.Idle i r (.call cl) :=
  ⟨fun _ hs => (by cases hs), fun _ _ hn => (by cases hn)⟩

/-- Tasks that threads begin with deliver nothing, and pass nothing on. -/
theorem idle_of_isOuter {t : Task τ} (ht : t.isOuter = true) :
    a.Idle i r t ∧ ∀ b, t ≠ .passOn i b := by
  refine ⟨⟨?_, fun _ => ?_⟩, ?_⟩ <;> rintro _ rfl <;> cases ht

/-- What is left by tasks that concern other producers does not concern this one. -/
theorem idle_of_mem_perform {e : Exchange σ} {t t' : Task τ}
    (hsole : e.SoleReceiver r i) (ht : t.producer? ≠ some i)
    (h : t' ∈ (e.perform env t).2) : a.Idle i r t' ∧ ∀ b, t' ≠ .passOn i b := by
  have horigin := Exchange.Origin.of_mem h
  refine ⟨⟨?_, fun _ => ?_⟩, ?_⟩
  · rintro s rfl
    cases horigin with
    | heard s hj hr => exact ht (hsole _ hr ▸ hj)
  · rintro n rfl
    cases horigin with
    | settle n hj => exact ht hj
  · rintro b rfl
    cases horigin with
    | passOn b hj => exact ht hj

end Idle

/-- The peer cancels; an initial payload that still waits is dropped. -/
def cancel (a : Account ι) : Account ι :=
  match a.opening with
  | .waiting => { a with opening := .dropped }
  | _ => a

@[simp] theorem opening_hear (s : Signal Payload) (a : Account ι) :
    (a.hear s).opening = a.opening := by
  unfold hear
  split <;> rfl

@[simp] theorem hand_hear (s : Signal Payload) (a : Account ι) : (a.hear s).hand = none := by
  unfold hear
  split <;> rfl

theorem told_hear (s : Signal Payload) (p0 : Payload) {a : Account ι}
    (h : a.opening ≠ .heard → a.after = []) : (a.hear s).told p0 = a.told p0 ++ [s] := by
  rcases a with ⟨_ | _ | _ | _, before, after, hand⟩ <;> simp_all [hear, told]

theorem sent_hear {s : Signal Payload} {a : Account ι} (hs : a.hand = some s)
    (h : a.opening ≠ .heard → a.after = []) : (a.hear s).sent = a.sent := by
  rcases a with ⟨_ | _ | _ | _, before, after, hand⟩ <;> simp_all [hear, sent]

theorem opening_cancel (a : Account ι) :
    a.cancel.opening ≠ .waiting ∧ (a.cancel.opening = .heard ↔ a.opening = .heard) ∧
      ∀ k n, a.cancel.opening = .held k n ↔ a.opening = .held k n := by
  rcases a with ⟨_ | _ | _ | _, before, after, hand⟩ <;> simp [cancel]

theorem signals_cancel (p0 : Payload) (a : Account ι) :
    a.cancel.before = a.before ∧ a.cancel.after = a.after ∧ a.cancel.hand = a.hand ∧
      a.cancel.told p0 = a.told p0 := by
  rcases a with ⟨_ | _ | _ | _, before, after, hand⟩ <;> simp [cancel, told]

section Front

variable [DecidableEq ι] {script : ι} {i : Nat} {r : Handle} {p0 : Payload} {a : Account ι}

/-- The front of a thread begins with a delivery. -/
theorem heard_of_front {k : ι} {t : Task τ} {l : List (Task τ)}
    (h : a.front script i r p0 k = t :: l) : ∃ s, t = .tell (.heard r s) := by
  have hhand : (if k = script then a.hand.toList.map fun s => .tell (.heard r s) else []) = t :: l →
      ∃ s, t = .tell (.heard r s) := by
    intro h
    split at h
    · cases hs : a.hand with
      | none => simp [hs] at h
      | some s => exact ⟨s, by simp [hs] at h; exact h.1.symm⟩
    · cases h
  unfold front at h
  split at h
  · rename_i j n _
    by_cases hj : j = k
    · rw [if_pos hj, List.cons_append] at h
      exact ⟨_, (List.cons.inj h).1.symm⟩
    · rw [if_neg hj, List.nil_append] at h
      exact hhand h
  · rw [List.nil_append] at h
    exact hhand h

theorem front_of_held {k : ι} {n : Nat} (h : a.opening = .held k n)
    (hs : k = script → a.hand = none) :
    a.front (τ := τ) script i r p0 k = [.tell (.heard r (.next p0)), .settle i n] := by
  have hhand : (if k = script then a.hand.toList.map fun s => .tell (.heard r s) else [] :
      List (Task τ)) = [] := by
    split
    · rw [hs ‹_›]
      rfl
    · rfl
  rw [front, h, hhand, List.append_nil]
  exact if_pos rfl

theorem front_of_not_held {k : ι} (h : ∀ n, a.opening ≠ .held k n) :
    a.front (τ := τ) script i r p0 k =
      if k = script then a.hand.toList.map fun s => .tell (.heard r s) else [] := by
  unfold front
  split
  · rename_i j n ho
    rw [if_neg (fun hj : j = k => h n (hj ▸ ho)), List.nil_append]
  · rw [List.nil_append]

theorem front_cancel (k : ι) :
    a.cancel.front (τ := τ) script i r p0 k = a.front script i r p0 k := by
  rcases a with ⟨_ | _ | _ | _, before, after, hand⟩ <;> rfl

end Front

end Account

variable {ι σ τ : Type} [DecidableEq ι]

/-- An account is right: it agrees with what the peer `r` of the producer `i` was told, with the
producer `p` itself, and with what the threads have still to do. -/
structure Tallies (script : ι) (i : Nat) (r : Handle) (p0 : Payload) (a : Account ι)
    (p : ScriptedProducer) (c : Crew ι σ τ) : Prop where
  producer : c.exchange.scripted? i = some p
  remote : p.remote = some r
  told : c.signals r = a.told p0
  after : a.opening ≠ .heard → a.after = []
  waiting : a.opening = .waiting → p.initial = .pending p0
  opened : a.opening ≠ .waiting → ∀ q, p.initial ≠ .pending q
  apart : ∀ n, a.opening = .held script n → a.hand = none
  /-- What a thread is about to deliver comes first, and there is nothing of the kind behind. -/
  stack : ∀ k, ∃ rest, c.stack k = a.front script i r p0 k ++ rest ∧ ∀ t ∈ rest, a.Idle i r t
  ends : EndsOnce a.sent
  unfinished : p.emitter.finished = false → ∀ s ∈ a.sent, s.isTerminal = false

/-- As long as the peer is patient, no demand reaches the emitter before the peer has heard the
initial payload. -/
structure OnDemand (i : Nat) (a : Account ι) (p : ScriptedProducer) (c : Crew ι σ τ) : Prop where
  initial : p.initial = .sent → a.opening = .heard ∨ .call (.ask i .cancel) ∈ c.done
  demand : a.opening ≠ .heard → p.emitter.demand = 0
  passOn : a.opening ≠ .heard → ∀ k n, .passOn i (.request n) ∉ c.stack k
  before : ∀ s ∈ a.before, s.isTerminal = true
  hand : a.opening ≠ .heard → ∀ s ∈ a.hand, s.isTerminal = true

variable {env : Environment σ τ} {rules : Crew.Rules ι σ τ} {script : ι} {i : Nat} {r : Handle}
  {p0 : Payload} {a : Account ι} {p p' : ScriptedProducer} {c d : Crew ι σ τ}

namespace Tallies

/-- A thread that is not about to deliver anything has nothing to deliver later. -/
theorem idle_of_stack (h : Tallies script i r p0 a p c) {k : ι} {t : Task τ}
    {rest : List (Task τ)} (hk : c.stack k = t :: rest) (ht : ∀ s, t ≠ .tell (.heard r s)) :
    a.front (τ := τ) script i r p0 k = [] ∧ ∀ t' ∈ t :: rest, a.Idle i r t' := by
  obtain ⟨rest', hs, hidle⟩ := h.stack k
  cases hf : a.front (τ := τ) script i r p0 k with
  | nil =>
    rw [hf, List.nil_append] at hs
    refine ⟨rfl, ?_⟩
    rw [← hk, hs]
    exact hidle
  | cons t' l =>
    obtain ⟨s, rfl⟩ := Account.heard_of_front hf
    rw [hk, hf, List.cons_append] at hs
    exact absurd (List.cons.inj hs).1 (ht s)

theorem front_of_stack_nil (h : Tallies script i r p0 a p c) {k : ι} (hk : c.stack k = []) :
    a.front (τ := τ) script i r p0 k = [] := by
  obtain ⟨rest, hs, -⟩ := h.stack k
  rw [hk] at hs
  exact (List.append_eq_nil_iff.mp hs.symm).1

/-- What a thread delivers is the initial payload or what the script has sent. -/
theorem cases_of_heard (h : Tallies script i r p0 a p c) {k : ι} {s : Signal Payload}
    {rest : List (Task τ)} (hk : c.stack k = .tell (.heard r s) :: rest) :
    (∃ n rest', a.opening = .held k n ∧ s = .next p0 ∧ rest = .settle i n :: rest' ∧
      ∀ t ∈ rest', a.Idle i r t) ∨
    (k = script ∧ a.hand = some s ∧ (∀ n, a.opening ≠ .held k n) ∧ ∀ t ∈ rest, a.Idle i r t) := by
  obtain ⟨rest', hs, hidle⟩ := h.stack k
  rw [hk] at hs
  by_cases hheld : ∃ n, a.opening = .held k n
  · obtain ⟨n, hn⟩ := hheld
    rw [Account.front_of_held hn (fun hk => h.apart n (by rw [hn, hk]))] at hs
    obtain ⟨ht, hrest⟩ := List.cons.inj hs
    cases ht
    exact Or.inl ⟨n, rest', hn, rfl, hrest, hidle⟩
  · have hheld' : ∀ n, a.opening ≠ .held k n := fun n hn => hheld ⟨n, hn⟩
    rw [Account.front_of_not_held hheld'] at hs
    -- Without a front the delivery would be among the idle tasks.
    have hfront : ∀ l : List (Task τ), .tell (.heard r s) :: rest = l → l = rest' → False := by
      rintro l rfl rfl
      exact (hidle _ List.mem_cons_self).1 s rfl
    by_cases hk' : k = script
    · rw [if_pos hk'] at hs
      cases hhand : a.hand with
      | none =>
        rw [hhand] at hs
        exact (hfront _ hs rfl).elim
      | some s' =>
        rw [hhand] at hs
        obtain ⟨ht, rfl⟩ := List.cons.inj hs
        cases ht
        exact Or.inr ⟨hk', rfl, hheld', hidle⟩
    · rw [if_neg hk', List.nil_append] at hs
      exact (hfront _ hs rfl).elim

/-- An account stays right if a thread that has nothing to deliver goes on with tasks that deliver
nothing, and the producer changes in no way that shows. -/
theorem keep (h : Tallies script i r p0 a p c) {k : ι} {ts : List (Task τ)}
    (hs : d.stack = Function.update c.stack k ts) (hf : a.front (τ := τ) script i r p0 k = [])
    (hts : ∀ t ∈ ts, a.Idle i r t) (hd : d.signals r = c.signals r)
    (hp : d.exchange.scripted? i = some p') (hr : p'.remote = p.remote)
    (hi : ∀ q, p'.initial = .pending q ↔ p.initial = .pending q)
    (he : p'.emitter.finished = p.emitter.finished) : Tallies script i r p0 a p' d where
  producer := hp
  remote := hr.trans h.remote
  told := hd.trans h.told
  after := h.after
  waiting ha := (hi p0).mpr (h.waiting ha)
  opened ha q hq := h.opened ha q ((hi q).mp hq)
  apart := h.apart
  stack k' := by
    rw [hs]
    by_cases hk : k' = k
    · subst hk
      exact ⟨ts, by rw [hf, Function.update_self]; rfl, hts⟩
    · rw [Function.update_of_ne hk]
      exact h.stack k'
  ends := h.ends
  unfinished hfin := h.unfinished (he ▸ hfin)

/-- The peer's first demand brings out the initial payload. -/
theorem release (h : Tallies script i r p0 a p c) (ha : a.opening = .waiting) {k : ι} {n : Nat}
    {rest : List (Task τ)}
    (hs : d.stack = Function.update c.stack k
      (.tell (.heard r (.next p0)) :: .settle i n :: rest))
    (hf : a.front (τ := τ) script i r p0 k = []) (hrest : ∀ t ∈ rest, a.Idle i r t)
    (hd : d.signals r = c.signals r) (hp : d.exchange.scripted? i = some p')
    (hr : p'.remote = p.remote) (hi : ∀ q, p'.initial ≠ .pending q)
    (he : p'.emitter.finished = p.emitter.finished) :
    Tallies script i r p0 { a with opening := .held k n } p' d := by
  have hwait : ∀ k' n', a.opening ≠ .held k' n' := by simp [ha]
  have hhand : k = script → a.hand = none := by
    intro hk
    rw [Account.front_of_not_held (hwait k), if_pos hk] at hf
    simpa using hf
  exact
    { producer := hp
      remote := hr.trans h.remote
      told := by rw [hd, h.told, Account.told, Account.told, ha]
      after := fun _ => h.after (by simp [ha])
      waiting := fun h' => by cases h'
      opened := fun _ => hi
      apart := fun n' h' => hhand (Opening.held.inj h').1
      stack := by
        intro k'
        rw [hs]
        by_cases hk : k' = k
        · subst hk
          rw [Function.update_self,
            Account.front_of_held (a := { a with opening := .held k' n }) rfl hhand]
          exact ⟨rest, rfl, fun t ht => ⟨(hrest t ht).1, fun _ => (hrest t ht).2 (by simp [ha])⟩⟩
        · rw [Function.update_of_ne hk, Account.front_of_not_held]
          · obtain ⟨rest', hs', hidle⟩ := h.stack k'
            rw [Account.front_of_not_held (hwait k')] at hs'
            exact ⟨rest', hs', fun t ht =>
              ⟨(hidle t ht).1, fun _ => (hidle t ht).2 (by simp [ha])⟩⟩
          · intro n' h'
            exact hk (Opening.held.inj h').1.symm
      ends := h.ends
      unfinished := fun hfin => h.unfinished (he ▸ hfin) }

/-- The peer hears the initial payload. -/
theorem hear_initial (h : Tallies script i r p0 a p c) {k : ι} {n : Nat} {ts : List (Task τ)}
    (ha : a.opening = .held k n) (hs : d.stack = Function.update c.stack k ts)
    (hts : ∀ t ∈ ts, ∀ s, t ≠ .tell (.heard r s)) (hd : d.signals r = c.signals r ++ [.next p0])
    (hp : d.exchange.scripted? i = some p) :
    Tallies script i r p0 { a with opening := .heard } p d := by
  have hne : a.opening ≠ .heard := by simp [ha]
  have hnot : ∀ k' n', ({ a with opening := .heard } : Account ι).opening ≠ .held k' n' :=
    fun _ _ h' => by cases h'
  exact
    { producer := hp
      remote := h.remote
      told := by simp [hd, h.told, Account.told, ha, h.after hne]
      after := fun h' => absurd rfl h'
      waiting := fun h' => by cases h'
      opened := fun _ => h.opened (by simp [ha])
      apart := fun n' h' => by cases h'
      stack := by
        intro k'
        rw [hs, Account.front_of_not_held (hnot k')]
        by_cases hk : k' = k
        · subst hk
          refine ⟨ts, ?_, fun t ht => ⟨hts t ht, fun h' => absurd rfl h'⟩⟩
          rw [Function.update_self]
          split
          · rename_i hk
            rw [h.apart n (by rw [ha, hk])]
            rfl
          · rfl
        · rw [Function.update_of_ne hk]
          obtain ⟨rest, hs', hidle⟩ := h.stack k'
          rw [Account.front_of_not_held] at hs'
          · exact ⟨rest, hs', fun t ht => ⟨(hidle t ht).1, fun h' => absurd rfl h'⟩⟩
          · intro n' h'
            rw [ha] at h'
            exact hk (Opening.held.inj h').1.symm
      ends := h.ends
      unfinished := h.unfinished }

/-- The peer hears what the script has sent. -/
theorem hear_hand (h : Tallies script i r p0 a p c) {s : Signal Payload} {ts : List (Task τ)}
    (ha : a.hand = some s) (hnot : ∀ n, a.opening ≠ .held script n)
    (hs : d.stack = Function.update c.stack script ts) (hts : ∀ t ∈ ts, a.Idle i r t)
    (hd : d.signals r = c.signals r ++ [s]) (hp : d.exchange.scripted? i = some p) :
    Tallies script i r p0 (a.hear s) p d where
  producer := hp
  remote := h.remote
  told := by rw [hd, h.told, Account.told_hear s p0 h.after]
  after h' := by
    rw [Account.opening_hear] at h'
    have := h.after h'
    rcases a with ⟨_ | _ | _ | _, before, after, hand⟩ <;> simp_all [Account.hear]
  waiting h' := h.waiting (by simpa using h')
  opened h' := h.opened (by simpa using h')
  apart n _ := Account.hand_hear s a
  stack k := by
    rw [hs]
    by_cases hk : k = script
    · subst hk
      rw [Function.update_self, Account.front_of_not_held (by simpa using hnot)]
      exact ⟨ts, by simp, by simpa [Account.Idle] using hts⟩
    · rw [Function.update_of_ne hk]
      obtain ⟨rest, hs', hidle⟩ := h.stack k
      refine ⟨rest, ?_, by simpa [Account.Idle] using hidle⟩
      rw [hs']
      simp only [Account.front, Account.opening_hear, if_neg hk]
  ends := by
    rw [Account.sent_hear ha h.after]
    exact h.ends
  unfinished := by
    rw [Account.sent_hear ha h.after]
    exact h.unfinished

/-- The script sends a signal. -/
theorem emit (h : Tallies script i r p0 a p c) {s : Signal Payload} {e : Emitter}
    (hk : c.stack script = []) (hemit : p.emitter.emit s = .sent e)
    (hs : d.stack = Function.update c.stack script [.tell (.heard r s)])
    (hd : d.signals r = c.signals r)
    (hp : d.exchange.scripted? i = some { p with emitter := e }) :
    Tallies script i r p0 { a with hand := some s } { p with emitter := e } d := by
  have hf := h.front_of_stack_nil hk
  have hnot : ∀ n, a.opening ≠ .held script n := by
    intro n hn
    rw [Account.front_of_held hn fun _ => h.apart n hn] at hf
    cases hf
  have hhand : a.hand = none := by
    rw [Account.front_of_not_held hnot, if_pos rfl] at hf
    simpa using hf
  obtain ⟨hfin, hfin'⟩ := Emitter.finished_of_sent hemit
  have hsent : ({ a with hand := some s } : Account ι).sent = a.sent ++ [s] := by
    simp [Account.sent, hhand]
  have hitems := h.unfinished hfin
  exact
    { producer := hp
      remote := h.remote
      told := hd.trans h.told
      after := h.after
      waiting := h.waiting
      opened := h.opened
      apart := fun n h' => absurd h' (hnot n)
      stack := by
        intro k
        rw [hs]
        by_cases hk : k = script
        · subst hk
          rw [Function.update_self,
            Account.front_of_not_held (a := { a with hand := some s }) hnot]
          exact ⟨[], by simp, by simp⟩
        · rw [Function.update_of_ne hk]
          obtain ⟨rest, hs', hidle⟩ := h.stack k
          refine ⟨rest, ?_, hidle⟩
          rw [hs']
          simp only [Account.front, if_neg hk]
      ends := by
        rw [hsent]
        exact EndsOnce.concat hitems s
      unfinished := by
        intro hfin s' hs'
        rw [hsent, List.mem_append, List.mem_singleton] at hs'
        rcases hs' with hs' | rfl
        · exact hitems s' hs'
        · by_contra hterm
          rw [hfin' (by simpa using hterm)] at hfin
          cases hfin }

/-- The peer cancels. -/
theorem cancel (h : Tallies script i r p0 a p c) {k : ι} {ts : List (Task τ)}
    (hs : d.stack = Function.update c.stack k ts) (hf : a.front (τ := τ) script i r p0 k = [])
    (hts : ∀ t ∈ ts, a.Idle i r t) (hd : d.signals r = c.signals r)
    (hp : d.exchange.scripted? i = some { p with initial := .sent }) :
    Tallies script i r p0 a.cancel { p with initial := .sent } d := by
  obtain ⟨hwait, hheard, hheld⟩ := a.opening_cancel
  obtain ⟨hbefore, hafter, hhand, htold⟩ := a.signals_cancel p0
  have hidle : ∀ t : Task τ, a.Idle i r t → a.cancel.Idle i r t :=
    fun t ht => ⟨ht.1, fun ho => ht.2 (fun ho' => ho (hheard.mpr ho'))⟩
  have hsent : a.cancel.sent = a.sent := by
    simp only [Account.sent, hbefore, hafter, hhand]
  exact
    { producer := hp
      remote := h.remote
      told := by rw [hd, h.told, htold]
      after := fun ho => by rw [hafter, h.after (fun ho' => ho (hheard.mpr ho'))]
      waiting := fun ho => absurd ho hwait
      opened := fun _ q hq => by cases hq
      apart := fun n ho => by rw [hhand, h.apart n ((hheld script n).mp ho)]
      stack := by
        intro k'
        rw [hs, Account.front_cancel]
        by_cases hk : k' = k
        · subst hk
          exact ⟨ts, by rw [hf, Function.update_self]; rfl, fun t ht => hidle t (hts t ht)⟩
        · rw [Function.update_of_ne hk]
          obtain ⟨rest, hs', hrest⟩ := h.stack k'
          exact ⟨rest, hs', fun t ht => hidle t (hrest t ht)⟩
      ends := by
        rw [hsent]
        exact h.ends
      unfinished := by
        rw [hsent]
        exact h.unfinished }

end Tallies

namespace OnDemand

variable {a' : Account ι}

/-- Nothing is sent on demand too early by a step that sends nothing and leaves the emitter
without demand. -/
theorem keep (h : OnDemand i a p c) {k : ι} {ts : List (Task τ)}
    (hs : d.stack = Function.update c.stack k ts) (hdone : c.done <+: d.done)
    (ho : a.opening = .heard → a'.opening = .heard) (hb : a'.before = a.before)
    (hh : a'.hand = a.hand)
    (hi : p'.initial = .sent → p.initial = .sent ∨ a'.opening = .heard ∨
      .call (.ask i .cancel) ∈ d.done)
    (he : a'.opening ≠ .heard → p'.emitter.demand = p.emitter.demand)
    (hts : a'.opening ≠ .heard → ∀ n, .passOn i (.request n) ∉ ts) : OnDemand i a' p' d where
  initial h' := by
    rcases hi h' with h' | h'
    · rcases h.initial h' with h' | h'
      · exact Or.inl (ho h')
      · exact Or.inr (hdone.subset h')
    · exact h'
  demand h' := (he h').trans (h.demand (mt ho h'))
  passOn h' k' n := by
    rw [hs]
    by_cases hk : k' = k
    · subst hk
      rw [Function.update_self]
      exact hts h' n
    · rw [Function.update_of_ne hk]
      exact h.passOn (mt ho h') k' n
  before := by
    rw [hb]
    exact h.before
  hand h' := by
    rw [hh]
    exact h.hand (mt ho h')

/-- The peer hears what the script has sent. -/
theorem hear_hand (h : OnDemand i a p c) {s : Signal Payload} {k : ι} {ts : List (Task τ)}
    (ha : a.hand = some s) (hs : d.stack = Function.update c.stack k ts)
    (hdone : c.done <+: d.done) (hts : a.opening ≠ .heard → ∀ n, .passOn i (.request n) ∉ ts) :
    OnDemand i (a.hear s) p d := by
  have hbefore : ∀ s' ∈ (a.hear s).before, s'.isTerminal = true := by
    have hb := h.before
    have hh := h.hand
    rcases a with ⟨_ | _ | _ | _, before, after, hand⟩ <;>
      simp_all [Account.hear, or_imp]
  exact
    { initial := by
        rw [Account.opening_hear]
        exact fun h' => (h.initial h').imp_right (hdone.subset ·)
      demand := by
        rw [Account.opening_hear]
        exact h.demand
      passOn := by
        rw [Account.opening_hear]
        intro h' k' n
        rw [hs]
        by_cases hk : k' = k
        · subst hk
          rw [Function.update_self]
          exact hts h' n
        · rw [Function.update_of_ne hk]
          exact h.passOn h' k' n
      before := hbefore
      hand := by simp }

/-- The script sends a signal. -/
theorem emit (h : OnDemand i a p c) {s : Signal Payload} {e : Emitter} {k : ι}
    {ts : List (Task τ)} (hemit : p.emitter.emit s = .sent e)
    (hs : d.stack = Function.update c.stack k ts) (hdone : c.done <+: d.done)
    (hts : ∀ n, .passOn i (.request n) ∉ ts) :
    OnDemand i { a with hand := some s } { p with emitter := e } d where
  initial h' := (h.initial h').imp_right (hdone.subset ·)
  demand h' := by
    have h0 : p.emitter.demand = 0 := h.demand h'
    have hle : e.demand ≤ p.emitter.demand := Emitter.demand_le_of_sent hemit
    show e.demand = 0
    omega
  passOn h' k' n := by
    rw [hs]
    by_cases hk : k' = k
    · subst hk
      rw [Function.update_self]
      exact hts n
    · rw [Function.update_of_ne hk]
      exact h.passOn h' k' n
  before := h.before
  hand h' s' hs' := by
    obtain rfl : s = s' := by simpa using hs'
    by_contra hterm
    have hpos := Emitter.demand_pos_of_sent hemit (by simpa using hterm)
    have h0 := h.demand h'
    omega

end OnDemand

end StreamConformance
