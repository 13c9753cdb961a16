import StreamConformance.Proofs.Sections

/-!
# How far a producer is with its peer

Before a producer sends anything, its peer has to subscribe, to be given a subscription, and, if
the producer is a script, to let the gate be fired.  What a producer has of all this is its
`Standing`: the peer, what the gate was fired with, and the demand of the peer of an echo.

* `Standing.Moves`: what a task may do to a standing.
* `Exchange.moves_attach`, `Exchange.moves_askProducer`, `Exchange.moves_openGate`,
  `Exchange.moves_drainNext`: what the sections of a producer do to it.
* `Exchange.standing?_perform`: each task does that, and nothing else, to the standing of a
  producer.
* `Exchange.exists_of_heard`: a task that leaves a signal to be told to a receiver is the demand of
  that receiver, or the delivery of an item of an echo for which there is demand.
-/

namespace StreamConformance

variable {σ τ : Type}

/-- The kinds of producers. -/
inductive Producer.Kind where
  | absent
  | scripted
  | echo
  | manual
  deriving DecidableEq

/-- What of a producer bears on the handshake with its peer. -/
structure Standing where
  kind : Producer.Kind
  /-- The receiver with which the peer has subscribed. -/
  remote : Option Handle := none
  /-- What the gate of a script was fired with. -/
  gate : Option Handle := none
  /-- The demand of the peer of an echo. -/
  demand : Nat := 0

/-- The standing of a producer. -/
def Producer.standing : Producer → Standing
  | .absent => { kind := .absent }
  | .scripted p => { kind := .scripted, remote := p.remote, gate := p.gate.slot }
  | .echo p => { kind := .echo, remote := p.remote, demand := p.echo.demand }
  | .manual p => { kind := .manual, remote := p.remote }

theorem Producer.remote_standing (p : Producer) : p.standing.remote = p.remote := by
  cases p <;> rfl

namespace Echo

theorem demand_push (item : Payload) (e : Echo) : (e.push item).1.demand = e.demand := by
  unfold push
  split <;> rfl

theorem demand_beginDrain (e : Echo) : e.beginDrain.1.demand = e.demand := by
  unfold beginDrain
  split <;> rfl

/-- An item that an echo delivers uses one unit of its demand. -/
theorem length_takeNext_le (e : Echo) :
    e.takeNext.2.toList.length + e.takeNext.1.demand ≤ e.demand := by
  unfold takeNext
  dsimp only
  generalize he : (if e.canceled then { e with queue := .empty } else e : Echo) = e'
  have hdemand : e'.demand = e.demand := by
    subst he
    split <;> rfl
  rw [← hdemand]
  split
  · exact Nat.le_of_eq (Nat.zero_add _)
  · rename_i hpos
    have hpos : e'.demand ≠ 0 := by simpa using hpos
    split
    · simp only [Option.toList_some, List.length_singleton]
      omega
    · exact Nat.le_of_eq (Nat.zero_add _)

theorem demand_takeNext_le (e : Echo) : e.takeNext.1.demand ≤ e.demand :=
  Nat.le_trans (Nat.le_add_left ..) e.length_takeNext_le

/-- Without demand no item is delivered. -/
theorem takeNext_of_demand {e : Echo} (h : e.demand = 0) : e.takeNext.2 = none := by
  have hle := e.length_takeNext_le
  cases hitem : e.takeNext.2 with
  | none => rfl
  | some item =>
    rw [hitem, Option.toList_some, List.length_singleton] at hle
    omega

end Echo

namespace Standing

/-- Nothing has happened between the producer and a peer. -/
structure IsFresh (s : Standing) : Prop where
  remote : s.remote = none
  gate : s.gate = none
  demand : s.demand = 0
  kind : s.kind ≠ .manual

theorem isFresh_absent : Producer.absent.standing.IsFresh :=
  ⟨rfl, rfl, rfl, by decide⟩

theorem isFresh_scripted (initial : InitialPayload) :
    (Producer.scripted { initial := initial }).standing.IsFresh :=
  ⟨rfl, rfl, rfl, by simp [Producer.standing]⟩

theorem isFresh_echo (initial : Payload) :
    (Producer.echo { initial := initial }).standing.IsFresh :=
  ⟨rfl, rfl, rfl, by simp [Producer.standing]⟩

/-- What a task may do to the standing of the producer of the interaction `i`. -/
inductive Moves (i : Nat) : Task τ → Standing → Standing → Prop where
  | refl {t : Task τ} (s : Standing) : Moves i t s s
  | attach {s : Standing} (r : Handle) (h : s.remote = none) :
      Moves i (.call (.attach i r)) s { s with remote := some r }
  | ask (a : Ask) (s : Standing) (n : Nat) : Moves i (.call (.ask i a)) s { s with demand := n }
  | spend {s : Standing} (n : Nat) (h : n ≤ s.demand) : Moves i (.drainNext i) s { s with demand := n }
  | fire {s : Standing} (r : Handle) (h : s.kind = .scripted) :
      Moves i (.openGate i r) s { s with gate := some (s.gate.getD r) }

variable {i : Nat} {t : Task τ} {s s' : Standing}

theorem Moves.kind_eq (h : Moves i t s s') : s'.kind = s.kind := by
  cases h <;> rfl

/-- A peer stays. -/
theorem Moves.remote_eq (h : Moves i t s s') {r : Handle} (hr : s.remote = some r) :
    s'.remote = some r := by
  cases h with
  | attach r' hnone =>
    rw [hr] at hnone
    cases hnone
  | refl | ask | spend | fire => exact hr

/-- Only the demand of the peer brings demand. -/
theorem Moves.demand_eq (h : Moves i t s s') (ht : ∀ a, t ≠ .call (.ask i a)) (hs : s.demand = 0) :
    s'.demand = 0 := by
  cases h with
  | ask a => exact absurd rfl (ht a)
  | spend n hn => exact Nat.le_zero.mp (hs ▸ hn)
  | refl | attach | fire => exact hs

/-- Only the end of the greeting fires a gate. -/
theorem Moves.gate_eq_of_ne (h : Moves i t s s') (ht : ∀ r, t ≠ .openGate i r) :
    s'.gate = s.gate := by
  cases h with
  | fire r => exact absurd rfl (ht r)
  | refl | attach | ask | spend => rfl

/-- What is fresh stays so, unless a peer subscribes or asks for something, or the gate is fired. -/
theorem Moves.isFresh (h : Moves i t s s') (hs : s.IsFresh) (hattach : ∀ r, t ≠ .call (.attach i r))
    (hask : ∀ a, t ≠ .call (.ask i a)) (hgate : ∀ r, t ≠ .openGate i r) : s'.IsFresh where
  remote := by
    cases h with
    | attach r => exact absurd rfl (hattach r)
    | refl | ask | spend | fire => exact hs.remote
  gate := (h.gate_eq_of_ne hgate).trans hs.gate
  demand := h.demand_eq hask hs.demand
  kind := by
    rw [h.kind_eq]
    exact hs.kind

/-- What a gate was fired with stays. -/
theorem Moves.gate_eq (h : Moves i t s s') {r : Handle} (hr : s.gate = some r) :
    s'.gate = some r := by
  cases h with
  | fire r' =>
    show some (s.gate.getD r') = some r
    rw [hr]
    rfl
  | refl | attach | ask | spend => exact hr

end Standing

/-- A task of an echo that comes before its peer has the subscription. -/
def Task.IsLull (i : Nat) (t : Task τ) : Prop :=
  (∃ item, t = .push i item) ∨ t = .drain i ∨ t = .drainNext i

namespace Exchange

/-- The standing of the producer of an interaction. -/
def standing? (i : Nat) (e : Exchange σ) : Option Standing :=
  (e.producer? i).map Producer.standing

theorem remote?_eq_standing? (i : Nat) (e : Exchange σ) :
    e.remote? i = (e.standing? i).bind (·.remote) := by
  rw [remote?, standing?]
  cases e.producer? i with
  | none => rfl
  | some p => exact p.remote_standing.symm

theorem standing?_eq_some_of_scripted? {i : Nat} {e : Exchange σ} {p : ScriptedProducer}
    (h : e.scripted? i = some p) :
    e.standing? i = some { kind := .scripted, remote := p.remote, gate := p.gate.slot } := by
  rw [standing?, scripted?_eq_some.mp h]
  rfl

theorem exists_scripted_of_standing? {i : Nat} {e : Exchange σ} {s : Standing}
    (h : e.standing? i = some s) (hs : s.kind = .scripted) :
    ∃ p, e.scripted? i = some p ∧ p.remote = s.remote ∧ p.gate.slot = s.gate := by
  obtain ⟨p, hp, rfl⟩ := Option.map_eq_some_iff.mp h
  cases p with
  | scripted p => exact ⟨p, scripted?_eq_some.mpr hp, rfl, rfl⟩
  | absent | echo | manual => cases hs

theorem standing?_congr {i : Nat} {e e' : Exchange σ} (h : e'.producer? i = e.producer? i) :
    e'.standing? i = e.standing? i := by
  rw [standing?, h, standing?]

theorem standing?_eq_some {i : Nat} {e : Exchange σ} {x : Interaction}
    (h : e.interactions[i]? = some x) : e.standing? i = some x.producer.standing := by
  rw [standing?, producer?, h]
  rfl

theorem exists_of_standing? {i : Nat} {e : Exchange σ} {s : Standing} (h : e.standing? i = some s) :
    ∃ x, e.interactions[i]? = some x ∧ x.producer.standing = s := by
  obtain ⟨p, hp, rfl⟩ := Option.map_eq_some_iff.mp h
  obtain ⟨x, hx, rfl⟩ := Option.map_eq_some_iff.mp hp
  exact ⟨x, hx, rfl⟩

theorem lt_size_of_standing? {i : Nat} {e : Exchange σ} {s : Standing}
    (h : e.standing? i = some s) : i < e.interactions.size := by
  obtain ⟨x, hx, -⟩ := exists_of_standing? h
  obtain ⟨hi, -⟩ := Array.getElem?_eq_some_iff.mp hx
  exact hi

/-- An interaction that is opened has the standing of its producer, and the others have theirs. -/
theorem standing?_enter (x : Interaction) (e : Exchange σ) (i : Nat) :
    (e.enter x).standing? i =
      if i = e.interactions.size then some x.producer.standing else e.standing? i := by
  rw [standing?, producer?, enter, Array.getElem?_push, standing?, producer?]
  split <;> rfl

/-! ## Sections -/

section Sections

variable {i : Nat} {x : Interaction} {e : Exchange σ} (hx : e.interactions[i]? = some x)
include hx

theorem standing?_atInteraction (f : Interaction → Interaction × List (Task τ)) :
    (e.atInteraction i f).1.standing? i = some (f x).1.producer.standing := by
  rw [atInteraction_eq hx, standing?_eq_some (getElem?_put_self hx)]

theorem standing?_atScripted {f : ScriptedProducer → ScriptedProducer × List (Task τ)}
    (hf : ∀ p, (Producer.scripted (f p).1).standing = (Producer.scripted p).standing) :
    (e.atScripted i f).1.standing? i = some x.producer.standing := by
  rw [atScripted, standing?_atInteraction hx]
  rcases x with ⟨c, _ | p | p | p⟩
  · rfl
  · exact congrArg some (hf p)
  · rfl
  · rfl

theorem standing?_atEcho {f : EchoProducer → EchoProducer × List (Task τ)}
    (hf : ∀ p, (Producer.echo (f p).1).standing = (Producer.echo p).standing) :
    (e.atEcho i f).1.standing? i = some x.producer.standing := by
  rw [atEcho, standing?_atInteraction hx]
  rcases x with ⟨c, _ | p | p | p⟩
  · rfl
  · rfl
  · exact congrArg some (hf p)
  · rfl

end Sections

theorem echo_drainNext (i : Nat) (p : EchoProducer) :
    (drainNext (τ := τ) i p).1.echo = p.echo.takeNext.1 := by
  unfold drainNext
  split
  · rename_i echo h
    rw [h]
  · rename_i echo item h
    split <;> rw [h]

/-! ## What a section of a producer does to its standing -/

/-- A producer without a peer takes the one that subscribes. -/
theorem moves_attach (i : Nat) (r : Handle) (x : Interaction) :
    Standing.Moves (τ := τ) i (.call (.attach i r)) x.producer.standing
      (attach (τ := τ) i r x).1.producer.standing := by
  cases hr : x.producer.remote with
  | some r' =>
    rw [(remote_attach (τ := τ) i r hr).1]
    exact .refl _
  | none =>
    rcases x with ⟨c, _ | p | p | p⟩
    · exact .refl _
    all_goals
      have hp : p.remote = none := hr
      simp only [attach, hp, Option.isSome_none, Bool.false_eq_true, if_false]
      exact .attach r hr

theorem standing_askScripted (i : Nat) (a : Ask) (p : ScriptedProducer) :
    (Producer.scripted (askScripted (τ := τ) i a p).1).standing =
      (Producer.scripted p).standing := by
  cases a with
  | cancel => rfl
  | request n =>
    rw [askScripted_request]
    rfl

/-- Only an echo keeps the demand of its peer where it bears on the handshake. -/
theorem moves_askProducer (i : Nat) (a : Ask) (x : Interaction) :
    Standing.Moves (τ := τ) i (.call (.ask i a)) x.producer.standing
      (askProducer (τ := τ) i a x).1.producer.standing := by
  rcases x with ⟨c, _ | p | p | p⟩
  · exact .refl _
  · show Standing.Moves i _ _ (Producer.scripted (askScripted (τ := τ) i a p).1).standing
    rw [standing_askScripted]
    exact .refl _
  · cases a with
    | cancel => exact .refl _
    | request n => exact .ask _ _ _
  · exact .refl _

section Producer

variable {i : Nat} {x : Interaction} {e : Exchange σ} (hx : e.interactions[i]? = some x)
include hx

/-- Only a script has a gate. -/
theorem moves_openGate (env : Environment σ τ) (r : Handle) :
    ∃ s', (e.perform env (.openGate i r)).1.standing? i = some s' ∧
      Standing.Moves (τ := τ) i (.openGate i r) x.producer.standing s' := by
  refine ⟨_, standing?_atInteraction hx _, ?_⟩
  rcases x with ⟨c, _ | p | p | p⟩
  · exact .refl _
  · have hfire : (Producer.scripted { p with gate := (p.gate.fire r).1 }).standing =
        { (Producer.scripted p).standing with
          gate := some ((Producer.scripted p).standing.gate.getD r) } := by
      simp [Producer.standing]
    show Standing.Moves i _ _ (Producer.scripted { p with gate := (p.gate.fire r).1 }).standing
    rw [hfire]
    exact .fire r rfl
  · exact .refl _
  · exact .refl _

/-- What an echo takes from its queue spends demand, and nothing else. -/
theorem moves_drainNext (env : Environment σ τ) :
    ∃ s', (e.perform env (.drainNext i)).1.standing? i = some s' ∧
      Standing.Moves (τ := τ) i (.drainNext i) x.producer.standing s' := by
  refine ⟨_, standing?_atInteraction hx _, ?_⟩
  rcases x with ⟨c, _ | p | p | p⟩
  · exact .refl _
  · exact .refl _
  · have hspend : (Producer.echo (drainNext (τ := τ) i p).1).standing =
        { (Producer.echo p).standing with demand := p.echo.takeNext.1.demand } := by
      simp only [Producer.standing, remote_drainNext, echo_drainNext]
    show Standing.Moves i _ _ (Producer.echo (drainNext (τ := τ) i p).1).standing
    rw [hspend]
    exact .spend _ p.echo.demand_takeNext_le
  · exact .refl _

end Producer

/-- **What a task does to the standing of a producer.** -/
theorem standing?_perform (env : Environment σ τ) (t : Task τ) {i : Nat} {e : Exchange σ}
    {s : Standing} (h : e.standing? i = some s) :
    ∃ s', (e.perform env t).1.standing? i = some s' ∧ Standing.Moves i t s s' := by
  by_cases ht : t.producer? = some i
  · obtain ⟨x, hx, rfl⟩ := exists_of_standing? h
    cases t with
    | call c =>
      cases c with
      | attach j r =>
        obtain rfl := Option.some.inj ht
        exact ⟨_, standing?_atInteraction hx (attach j r), moves_attach j r x⟩
      | ask j a =>
        obtain rfl := Option.some.inj ht
        exact ⟨_, standing?_atInteraction hx (askProducer j a), moves_askProducer j a x⟩
      | subscribed | signal | resume | raise => cases ht
    | settle j n =>
      obtain rfl := Option.some.inj ht
      exact ⟨_, standing?_atScripted hx fun _ => rfl, .refl _⟩
    | passOn j a =>
      obtain rfl := Option.some.inj ht
      exact ⟨_, standing?_atScripted hx fun _ => rfl, .refl _⟩
    | openGate j r =>
      obtain rfl := Option.some.inj ht
      exact moves_openGate hx env r
    | push j item =>
      obtain rfl := Option.some.inj ht
      refine ⟨_, standing?_atEcho hx fun p => ?_, .refl _⟩
      simp only [Producer.standing, p.echo.demand_push]
    | drain j =>
      obtain rfl := Option.some.inj ht
      refine ⟨_, standing?_atEcho hx fun p => ?_, .refl _⟩
      simp only [Producer.standing, p.echo.demand_beginDrain]
    | drainNext j =>
      obtain rfl := Option.some.inj ht
      exact moves_drainNext hx env
    | tell event => cases ht
    | own j a => cases ht
  · exact ⟨s, (standing?_congr (producer?_perform env ht e)).trans h, .refl s⟩

/-- No task opens an interaction. -/
theorem standing?_perform_eq_none (env : Environment σ τ) (t : Task τ) {i : Nat} {e : Exchange σ}
    (h : e.standing? i = none) : (e.perform env t).1.standing? i = none := by
  cases hx : (e.perform env t).1.interactions[i]? with
  | none => rw [standing?, producer?, hx]; rfl
  | some x =>
    obtain ⟨hi, -⟩ := Array.getElem?_eq_some_iff.mp hx
    rw [size_perform] at hi
    rw [standing?_eq_some (Array.getElem?_eq_getElem hi)] at h
    cases h

/-- Sending a signal changes no standing. -/
theorem standing?_send (i j : Nat) (p : ScriptedProducer) (emitter : Emitter) (s : Signal Payload)
    (e : Exchange σ) : (e.send (τ := τ) i p emitter s).1.standing? j = e.standing? j := by
  by_cases hij : i = j
  · subst hij
    cases hx : e.interactions[i]? with
    | none =>
      rw [send, atScripted, atInteraction, hx]
    | some x =>
      rw [standing?_eq_some hx]
      exact standing?_atScripted (τ := τ) (f := fun p => ({ p with emitter := emitter }, [])) hx
        fun _ => rfl
  · exact standing?_congr (producer?_send_of_ne hij p emitter s e)

/-! ## Signals to a receiver -/

/-- Where an echo delivers an item there is demand. -/
theorem demand_ne_of_mem_drainNext {t : Task τ} {i : Nat} {p : EchoProducer}
    (h : t ∈ (drainNext i p).2) : p.echo.demand ≠ 0 := by
  intro hzero
  have hnone := Echo.takeNext_of_demand hzero
  unfold drainNext at h
  split at h
  · cases h
  · rename_i echo item htake
    rw [htake] at hnone
    cases hnone

/-- A task that leaves a signal to be told to a receiver is the demand of that receiver, or it
delivers an item of an echo, for which there is demand. -/
theorem exists_of_heard {env : Environment σ τ} {t : Task τ} {e : Exchange σ} {r : Handle}
    {s : Signal Payload} (h : .tell (.heard r s) ∈ (e.perform env t).2) :
    ∃ i, e.remote? i = some r ∧ ((∃ a, t = .call (.ask i a)) ∨
      t = .drainNext i ∧ ∃ s, e.standing? i = some s ∧ s.demand ≠ 0) := by
  -- The task is a section of a producer whose peer has this receiver.
  obtain ⟨i, ht, hremote⟩ : ∃ i, t.producer? = some i ∧ e.remote? i = some r := by
    cases Origin.of_mem h with
    | heard s ht hremote => exact ⟨_, ht, hremote⟩
  refine ⟨i, hremote, ?_⟩
  cases t with
  | call c =>
    cases c with
    | ask j a =>
      obtain rfl := Option.some.inj ht
      exact Or.inl ⟨a, rfl⟩
    | attach j r' =>
      obtain ⟨x, hx, hmem⟩ := mem_atInteraction h
      obtain ⟨-, heq | heq | ⟨item, heq⟩⟩ := mem_attach hmem <;> cases heq
    | subscribed | signal | resume | raise => cases ht
  | drainNext j =>
    obtain rfl := Option.some.inj ht
    obtain ⟨p, hp, hmem⟩ := mem_atEcho h
    refine Or.inr ⟨rfl, (Producer.echo p).standing, ?_, demand_ne_of_mem_drainNext hmem⟩
    rw [standing?, hp]
    rfl
  | settle j n =>
    obtain ⟨m, heq⟩ := mem_perform_settle h
    cases heq
  | passOn j a => exact absurd h notMem_perform_passOn
  | openGate j r' => exact absurd h notMem_perform_openGate
  | push j item => cases mem_perform_push h
  | drain j => cases mem_perform_drain h
  | tell | own => cases ht

/-! ## Greetings -/

/-- The peer subscribes: it is to be given the subscription, behind the first item of an echo, and
then the gate of a script is to be fired. -/
theorem perform_attach_of_isFresh (env : Environment σ τ) {i : Nat} {e : Exchange σ} {s : Standing}
    (h : e.standing? i = some s) (hs : s.IsFresh) (r : Handle) :
    ((e.perform env (.call (.attach i r))).1.standing? i = some s ∧
        (e.perform env (.call (.attach i r))).2 = []) ∨
      ((e.perform env (.call (.attach i r))).1.standing? i = some { s with remote := some r } ∧
        ∃ front : List (Task τ), (e.perform env (.call (.attach i r))).2 =
            front ++ .tell (.attached r i) :: (if s.kind = .scripted then [.openGate i r] else []) ∧
          ∀ t ∈ front, ∃ item, t = .push i item) := by
  obtain ⟨x, hx, rfl⟩ := exists_of_standing? h
  have hafter := standing?_atInteraction hx (attach (τ := τ) i r)
  have htasks : (e.perform env (.call (.attach i r))).2 = (attach (τ := τ) i r x).2 := by
    show (e.atInteraction i (attach i r)).2 = _
    rw [atInteraction_eq hx]
  rcases x with ⟨c, _ | p | p | p⟩
  · exact Or.inl ⟨hafter, htasks⟩
  · have hp : p.remote = none := hs.remote
    simp only [attach, hp, Option.isSome_none, Bool.false_eq_true, if_false] at hafter htasks
    exact Or.inr ⟨hafter, [], htasks, by simp⟩
  · have hp : p.remote = none := hs.remote
    simp only [attach, hp, Option.isSome_none, Bool.false_eq_true, if_false] at hafter htasks
    exact Or.inr ⟨hafter, [.push i p.initial], htasks, by simp⟩
  · exact absurd rfl hs.kind

/-- A task that is to give a subscription to a receiver comes from that receiver's own call, and so
does the task that is to fire a gate. -/
theorem exists_attach_of_mem {env : Environment σ τ} {t t' : Task τ} {i : Nat} {r : Handle}
    {e : Exchange σ} (h : t' ∈ (e.perform env t).2)
    (ht' : t' = .tell (.attached r i) ∨ t' = .openGate i r) :
    e.remote? i = none ∧ t = .call (.attach i r) := by
  rcases ht' with rfl | rfl
  · cases Origin.of_mem h with
    | attached r hr => exact ⟨hr, rfl⟩
  · cases Origin.of_mem h with
    | openGate r hr => exact ⟨hr, rfl⟩

/-- The gate of a script is fired. -/
theorem standing?_openGate (env : Environment σ τ) {i : Nat} {e : Exchange σ} {s : Standing}
    (h : e.standing? i = some s) (hs : s.kind = .scripted) (r : Handle) :
    (e.perform env (.openGate i r)).1.standing? i =
      some { s with gate := some (s.gate.getD r) } := by
  obtain ⟨p, hp, -⟩ := exists_scripted_of_standing? h hs
  obtain rfl := Option.some.inj (h.symm.trans (standing?_eq_some_of_scripted? hp))
  rw [standing?_eq_some_of_scripted? (perform_openGate env hp r).1, Gate.slot_fire]

/-- Without demand such tasks lead to such tasks only. -/
theorem isLull_of_mem {env : Environment σ τ} {t t' : Task τ} {i : Nat} {e : Exchange σ}
    {s : Standing} (hs : e.standing? i = some s) (hdemand : s.demand = 0) (ht : t.IsLull i)
    (h : t' ∈ (e.perform env t).2) : t'.IsLull i := by
  rcases ht with ⟨item, rfl⟩ | rfl | rfl
  · exact Or.inr (Or.inl (mem_perform_push h))
  · exact Or.inr (Or.inr (mem_perform_drain h))
  · obtain ⟨p, -, ht⟩ := mem_atEcho h
    obtain ⟨r, s', hr, rfl⟩ | rfl := mem_drainNext ht
    · obtain ⟨j, -, ⟨a, hask⟩ | ⟨hj, s'', hs'', hne⟩⟩ := exists_of_heard h
      · cases hask
      · cases hj
        rw [hs] at hs''
        cases hs''
        exact absurd hdemand hne
    · exact Or.inr (Or.inr rfl)

end Exchange
end StreamConformance
