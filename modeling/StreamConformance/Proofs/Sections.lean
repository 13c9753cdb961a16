import StreamConformance.Exchange.Basic

/-!
# What a task changes

A task is a section of one object: of the receiver of an interaction, of its producer, or of the
far side.  This file says so once for all tasks, so that a statement about one object has to look
at the tasks of that object only.

* `Task.producer?`: the interaction of whose producer a task is a section.
* `producer?_perform`: no other task changes a producer.
* `remote?_perform`: a producer that has a peer keeps it.
* `remote?_perform_cases`: a producer gets its peer when the peer subscribes.
* `far_perform`: what changes the far side.
* `Origin`, `Origin.of_mem`: of which sections a task may be left.
* `perform_ask`, `perform_settle`, `perform_passOn`, `perform_openGate`: what the sections of a
  scripted producer do.
-/

namespace StreamConformance

variable {σ τ : Type}

/-- The interaction of whose producer a task is a section. -/
def Task.producer? : Task τ → Option Nat
  | .call (.attach i _) => some i
  | .call (.ask i _) => some i
  | .settle i _ => some i
  | .passOn i _ => some i
  | .openGate i _ => some i
  | .push i _ => some i
  | .drain i => some i
  | .drainNext i => some i
  | _ => none

/-- A task that a thread may begin with: it is not the inner part of any other. -/
def Task.isOuter : Task τ → Bool
  | .call _ => true
  | .own _ _ => true
  | .tell (.opened ..) => true
  | .tell (.openedChannel ..) => true
  | .tell (.released _) => true
  | _ => false

namespace Exchange

/-- The producer of an interaction. -/
def producer? (i : Nat) (e : Exchange σ) : Option Producer :=
  (e.interactions[i]?).map (·.producer)

/-- The peer's receiver at the producer of an interaction. -/
def remote? (i : Nat) (e : Exchange σ) : Option Handle :=
  (e.producer? i).bind (·.remote)

/-- A receiver is subscribed to no producer but one. -/
def SoleReceiver (r : Handle) (i : Nat) (e : Exchange σ) : Prop :=
  ∀ j, e.remote? j = some r → j = i

/-- Where there is one interaction only, its producer is the only one. -/
theorem soleReceiver_of_size {e : Exchange σ} (h : e.interactions.size = 1) (r : Handle) :
    e.SoleReceiver r 0 := by
  intro j hj
  rw [remote?, Option.bind_eq_some_iff] at hj
  obtain ⟨p, hp, -⟩ := hj
  obtain ⟨x, hx, -⟩ := Option.map_eq_some_iff.mp hp
  obtain ⟨hlt, -⟩ := Array.getElem?_eq_some_iff.mp hx
  omega

theorem scripted?_eq_some {i : Nat} {e : Exchange σ} {p : ScriptedProducer} :
    e.scripted? i = some p ↔ e.producer? i = some (.scripted p) := by
  unfold scripted? producer?
  rcases e.interactions[i]? with _ | ⟨r, _ | q | q | q⟩ <;> simp

theorem remote?_of_scripted? {i : Nat} {e : Exchange σ} {p : ScriptedProducer}
    (h : e.scripted? i = some p) : e.remote? i = p.remote := by
  rw [remote?, scripted?_eq_some.mp h]
  rfl

/-- Two exchanges with the same producer have the same scripted producer. -/
theorem scripted?_congr {i : Nat} {e e' : Exchange σ} (h : e'.producer? i = e.producer? i) :
    e'.scripted? i = e.scripted? i := by
  apply Option.ext
  intro p
  rw [scripted?_eq_some, scripted?_eq_some, h]

/-! ## Putting interactions in their places -/

theorem getElem?_put (i j : Nat) (x : Interaction) (e : Exchange σ) :
    (e.put i x).interactions[j]? =
      if i = j then (if i < e.interactions.size then some x else none)
      else e.interactions[j]? := by
  rw [put, Array.getElem?_setIfInBounds]

theorem getElem?_put_of_ne {i j : Nat} (h : i ≠ j) (x : Interaction) (e : Exchange σ) :
    (e.put i x).interactions[j]? = e.interactions[j]? := by
  rw [getElem?_put, if_neg h]

theorem getElem?_put_self {i : Nat} {x y : Interaction} {e : Exchange σ}
    (h : e.interactions[i]? = some y) : (e.put i x).interactions[i]? = some x := by
  obtain ⟨hi, -⟩ := Array.getElem?_eq_some_iff.mp h
  rw [getElem?_put, if_pos rfl, if_pos hi]

/-- A section of a receiver changes no producer. -/
theorem producer?_atReceiver (i j : Nat) (f : Receiver → Receiver × Receiver.Effect)
    (e : Exchange σ) : (e.atReceiver (τ := τ) i f).1.producer? j = e.producer? j := by
  unfold atReceiver
  cases h : e.interactions[i]? with
  | none => rfl
  | some x =>
    by_cases hij : i = j
    · subst hij
      simp only [producer?, getElem?_put_self h, h, Option.map_some]
    · simp only [producer?, getElem?_put_of_ne hij]

theorem getElem?_atInteraction_of_ne {i j : Nat} (h : i ≠ j)
    (f : Interaction → Interaction × List (Task τ)) (e : Exchange σ) :
    (e.atInteraction i f).1.interactions[j]? = e.interactions[j]? := by
  unfold atInteraction
  cases e.interactions[i]? with
  | none => rfl
  | some x => exact getElem?_put_of_ne h _ _

theorem producer?_atInteraction_of_ne {i j : Nat} (h : i ≠ j)
    (f : Interaction → Interaction × List (Task τ)) (e : Exchange σ) :
    (e.atInteraction i f).1.producer? j = e.producer? j := by
  rw [producer?, getElem?_atInteraction_of_ne h, producer?]

/-- A section of an interaction that is there. -/
theorem atInteraction_eq {i : Nat} {x : Interaction} {e : Exchange σ}
    (h : e.interactions[i]? = some x) (f : Interaction → Interaction × List (Task τ)) :
    e.atInteraction i f = (e.put i (f x).1, (f x).2) := by
  rw [atInteraction, h]

/-- A section of a scripted producer, by what it does to it. -/
theorem atScripted_eq {i : Nat} {p : ScriptedProducer} {e : Exchange σ}
    (h : e.scripted? i = some p) (f : ScriptedProducer → ScriptedProducer × List (Task τ)) :
    (e.atScripted i f).1.scripted? i = some (f p).1 ∧ (e.atScripted i f).2 = (f p).2 := by
  unfold scripted? at h
  split at h
  · rename_i r q hx
    cases h
    rw [atScripted, atInteraction_eq hx]
    refine ⟨?_, rfl⟩
    rw [scripted?, getElem?_put_self hx]
  · cases h

/-! ## The far side -/

theorem far_atReceiver (i : Nat) (f : Receiver → Receiver × Receiver.Effect) (e : Exchange σ) :
    (e.atReceiver (τ := τ) i f).1.far = e.far := by
  unfold atReceiver
  split <;> rfl

theorem far_atInteraction (i : Nat) (f : Interaction → Interaction × List (Task τ))
    (e : Exchange σ) : (e.atInteraction i f).1.far = e.far := by
  unfold atInteraction
  split <;> rfl

/-- The far side changes if it is told something, and not otherwise. -/
theorem far_perform (env : Environment σ τ) (t : Task τ) (e : Exchange σ) :
    (e.perform env t).1.far = match t with
      | .tell event => (env.react event e.far).1
      | _ => e.far := by
  cases t with
  | call c =>
    cases c with
    | subscribed i h => exact far_atReceiver ..
    | signal i s => exact far_atReceiver ..
    | attach i r => exact far_atInteraction ..
    | ask i a => exact far_atInteraction ..
    | resume step => rfl
    | raise p => rfl
  | tell event => rfl
  | own i a => exact far_atReceiver ..
  | settle i n => exact far_atInteraction ..
  | passOn i a => exact far_atInteraction ..
  | openGate i r => exact far_atInteraction ..
  | push i item => exact far_atInteraction ..
  | drain i => exact far_atInteraction ..
  | drainNext i => exact far_atInteraction ..

theorem far_perform_of_ne (env : Environment σ τ) {t : Task τ} (ht : ∀ event, t ≠ .tell event)
    (e : Exchange σ) : (e.perform env t).1.far = e.far := by
  rw [far_perform]
  cases t with
  | tell event => exact absurd rfl (ht event)
  | _ => rfl

/-! ## Sections of a producer -/

/-- **A producer is changed by its own sections only.** -/
theorem producer?_perform (env : Environment σ τ) {t : Task τ} {i : Nat}
    (h : t.producer? ≠ some i) (e : Exchange σ) :
    (e.perform env t).1.producer? i = e.producer? i := by
  have hne : ∀ {j : Nat}, some j ≠ some i → j ≠ i := fun h hj => h (congrArg some hj)
  cases t with
  | call c =>
    cases c with
    | subscribed j s => exact producer?_atReceiver ..
    | signal j s => exact producer?_atReceiver ..
    | attach j r => exact producer?_atInteraction_of_ne (hne h) ..
    | ask j a => exact producer?_atInteraction_of_ne (hne h) ..
    | resume step => rfl
    | raise p => rfl
  | tell event => rfl
  | own j a => exact producer?_atReceiver ..
  | settle j n => exact producer?_atInteraction_of_ne (hne h) ..
  | passOn j a => exact producer?_atInteraction_of_ne (hne h) ..
  | openGate j r => exact producer?_atInteraction_of_ne (hne h) ..
  | push j item => exact producer?_atInteraction_of_ne (hne h) ..
  | drain j => exact producer?_atInteraction_of_ne (hne h) ..
  | drainNext j => exact producer?_atInteraction_of_ne (hne h) ..

theorem remote?_atInteraction {f : Interaction → Interaction × List (Task τ)}
    (hf : ∀ x : Interaction, (f x).1.producer.remote = x.producer.remote) (i j : Nat)
    (e : Exchange σ) : (e.atInteraction i f).1.remote? j = e.remote? j := by
  by_cases hij : i = j
  · subst hij
    cases hx : e.interactions[i]? with
    | none => rw [atInteraction, hx]
    | some x =>
      rw [atInteraction_eq hx, remote?, producer?, getElem?_put_self hx, remote?, producer?, hx]
      exact hf x
  · rw [remote?, producer?_atInteraction_of_ne hij, remote?]

theorem remote?_atScripted {f : ScriptedProducer → ScriptedProducer × List (Task τ)}
    (hf : ∀ p, (f p).1.remote = p.remote) (i j : Nat) (e : Exchange σ) :
    (e.atScripted i f).1.remote? j = e.remote? j := by
  refine remote?_atInteraction (fun x => ?_) i j e
  rcases x with ⟨c, _ | p | p | p⟩
  · rfl
  · exact hf p
  · rfl
  · rfl

theorem remote?_atEcho {f : EchoProducer → EchoProducer × List (Task τ)}
    (hf : ∀ p, (f p).1.remote = p.remote) (i j : Nat) (e : Exchange σ) :
    (e.atEcho i f).1.remote? j = e.remote? j := by
  refine remote?_atInteraction (fun x => ?_) i j e
  rcases x with ⟨c, _ | p | p | p⟩
  · rfl
  · rfl
  · exact hf p
  · rfl

/-- What the peer's demand does to a scripted producer. -/
theorem askScripted_request (i n : Nat) (p : ScriptedProducer) :
    askScripted (τ := τ) i (.request n) p =
      ({ p with initial := (p.initial.request n).1 },
        match (p.initial.request n).2 with
        | .nothing => []
        | .pass n => [.passOn i (.request n)]
        | .deliver payload =>
          (p.remote.map fun r => .tell (.heard r (.next payload))).toList ++ [.settle i n]) := by
  rcases h : p.initial.request n with ⟨initial, _ | payload | m⟩
  · simp [askScripted, h]
  · cases hr : p.remote <;> simp [askScripted, h, hr]
  · simp [askScripted, h]

@[simp] theorem remote_askScripted (i : Nat) (a : Ask) (p : ScriptedProducer) :
    (askScripted (τ := τ) i a p).1.remote = p.remote := by
  cases a with
  | cancel => rfl
  | request n => rw [askScripted_request]

@[simp] theorem remote_askEcho (i : Nat) (a : Ask) (p : EchoProducer) :
    (askEcho (τ := τ) i a p).1.remote = p.remote := by
  cases a <;> rfl

@[simp] theorem remote_drainNext (i : Nat) (p : EchoProducer) :
    (drainNext (τ := τ) i p).1.remote = p.remote := by
  unfold drainNext
  split
  · rfl
  · split <;> rfl

theorem remote_attach {r : Handle} {x : Interaction} (i : Nat) (r' : Handle)
    (h : x.producer.remote = some r) :
    (attach (τ := τ) i r' x).1 = x ∧ (attach (τ := τ) i r' x).2 = [] := by
  rcases x with ⟨c, _ | p | p | p⟩ <;> simp_all [attach, Producer.remote]

/-- **A producer gets its peer when the peer subscribes**, and at no other time. -/
theorem remote?_perform_of_ne (env : Environment σ τ) {t : Task τ} {i : Nat}
    (ht : ∀ r, t ≠ .call (.attach i r)) (e : Exchange σ) :
    (e.perform env t).1.remote? i = e.remote? i := by
  cases t with
  | call c =>
    cases c with
    | attach j r =>
      have hne : j ≠ i := fun hj => ht r (by rw [hj])
      rw [remote?, remote?]
      exact congrArg (Option.bind · _) (producer?_atInteraction_of_ne hne ..)
    | ask j a =>
      refine remote?_atInteraction (fun x => ?_) j i e
      rcases x with ⟨c, _ | p | p | p⟩
      · rfl
      · exact remote_askScripted j a p
      · exact remote_askEcho j a p
      · rfl
    | subscribed j s => exact congrArg (Option.bind · _) (producer?_atReceiver ..)
    | signal j s => exact congrArg (Option.bind · _) (producer?_atReceiver ..)
    | resume step => rfl
    | raise p => rfl
  | tell event => rfl
  | own j a => exact congrArg (Option.bind · _) (producer?_atReceiver ..)
  | settle j n => exact remote?_atScripted (fun _ => rfl) j i e
  | passOn j a => exact remote?_atScripted (fun _ => rfl) j i e
  | openGate j r => exact remote?_atScripted (fun _ => rfl) j i e
  | push j item => exact remote?_atEcho (fun _ => rfl) j i e
  | drain j => exact remote?_atEcho (fun _ => rfl) j i e
  | drainNext j => exact remote?_atEcho (remote_drainNext j) j i e

theorem remote_attach_of_none {r : Handle} {x : Interaction} (i : Nat)
    (h : x.producer.remote = none) (r' : Handle)
    (hr : (attach (τ := τ) i r' x).1.producer.remote = some r) : r' = r := by
  rcases x with ⟨c, _ | p | p | p⟩ <;> simp_all [attach, Producer.remote]

/-- What becomes of the peer of a producer when a task is performed. -/
theorem remote?_perform_cases (env : Environment σ τ) (t : Task τ) (i : Nat) (e : Exchange σ) :
    (e.perform env t).1.remote? i = e.remote? i ∨
      ∃ r, t = .call (.attach i r) ∧ e.remote? i = none ∧
        (e.perform env t).1.remote? i = some r := by
  by_cases ht : ∃ r, t = .call (.attach i r)
  · obtain ⟨r, rfl⟩ := ht
    show (e.atInteraction i (attach i r)).1.remote? i = _ ∨ ∃ r', _ ∧ _ ∧
      (e.atInteraction i (attach i r)).1.remote? i = _
    cases hx : e.interactions[i]? with
    | none =>
      rw [atInteraction, hx]
      exact Or.inl rfl
    | some x =>
      have hafter : (e.atInteraction i (attach (τ := τ) i r)).1.remote? i =
          (attach (τ := τ) i r x).1.producer.remote := by
        rw [atInteraction_eq hx, remote?, producer?, getElem?_put_self hx]
        rfl
      have hbefore : e.remote? i = x.producer.remote := by
        rw [remote?, producer?, hx]
        rfl
      rw [hafter, hbefore]
      cases hr : x.producer.remote with
      | some r' =>
        rw [(remote_attach (τ := τ) i r hr).1]
        exact Or.inl hr
      | none =>
        cases hr' : (attach (τ := τ) i r x).1.producer.remote with
        | none => exact Or.inl rfl
        | some r' =>
          obtain rfl := remote_attach_of_none i hr r hr'
          exact Or.inr ⟨r, rfl, rfl, rfl⟩
  · exact Or.inl (remote?_perform_of_ne env (fun r hr => ht ⟨r, hr⟩) e)

/-- **A producer that has a peer keeps it.** -/
theorem remote?_perform (env : Environment σ τ) (t : Task τ) {i : Nat} {r : Handle}
    {e : Exchange σ} (h : e.remote? i = some r) : (e.perform env t).1.remote? i = some r := by
  obtain heq | ⟨-, -, hnone, -⟩ := remote?_perform_cases env t i e
  · rw [heq, h]
  · rw [h] at hnone
    cases hnone

/-- Sending a signal changes no producer but the one that sends it. -/
theorem producer?_send_of_ne {i j : Nat} (h : i ≠ j) (p : ScriptedProducer) (emitter : Emitter)
    (s : Signal Payload) (e : Exchange σ) :
    (e.send (τ := τ) i p emitter s).1.producer? j = e.producer? j :=
  producer?_atInteraction_of_ne (τ := τ) h _ e

theorem remote?_send (i j : Nat) (p : ScriptedProducer) (emitter : Emitter) (s : Signal Payload)
    (e : Exchange σ) : (e.send (τ := τ) i p emitter s).1.remote? j = e.remote? j :=
  remote?_atScripted (τ := τ) (f := fun p => ({ p with emitter := emitter }, []))
    (fun _ => rfl) i j e

/-! ## Where tasks come from -/

theorem mem_effectTasks {t : Task τ} {i : Nat} {effect : Receiver.Effect}
    (h : t ∈ effectTasks i effect) :
    (∃ s a, t = .tell (.asked s a)) ∨ (∃ tag item, t = .tell (.copied tag item)) ∨
      ∃ item, t = .push i item := by
  rw [effectTasks, List.mem_append] at h
  rcases h with h | h
  · split at h
    · exact Or.inl ⟨_, _, List.mem_singleton.mp h⟩
    · cases h
  · split at h
    · exact Or.inr (Or.inr ⟨_, List.mem_singleton.mp h⟩)
    · cases h
    · exact Or.inr (Or.inl ⟨_, _, List.mem_singleton.mp h⟩)
    · cases h

theorem mem_atReceiver {t : Task τ} {i : Nat} {f : Receiver → Receiver × Receiver.Effect}
    {e : Exchange σ} (h : t ∈ (e.atReceiver i f).2) :
    (∃ s a, t = .tell (.asked s a)) ∨ (∃ tag item, t = .tell (.copied tag item)) ∨
      ∃ item, t = .push i item := by
  unfold atReceiver at h
  split at h
  · cases h
  · exact mem_effectTasks h

theorem mem_atInteraction {t : Task τ} {i : Nat} {e : Exchange σ}
    {f : Interaction → Interaction × List (Task τ)} (h : t ∈ (e.atInteraction i f).2) :
    ∃ x, e.interactions[i]? = some x ∧ t ∈ (f x).2 := by
  unfold atInteraction at h
  split at h
  · cases h
  · exact ⟨_, ‹_›, h⟩

theorem mem_atScripted {t : Task τ} {i : Nat} {e : Exchange σ}
    {f : ScriptedProducer → ScriptedProducer × List (Task τ)} (h : t ∈ (e.atScripted i f).2) :
    ∃ p, e.scripted? i = some p ∧ t ∈ (f p).2 := by
  obtain ⟨⟨c, _ | p | p | p⟩, hx, ht⟩ := mem_atInteraction h
  · cases ht
  · exact ⟨p, by rw [scripted?, hx], ht⟩
  · cases ht
  · cases ht

theorem mem_atEcho {t : Task τ} {i : Nat} {e : Exchange σ}
    {f : EchoProducer → EchoProducer × List (Task τ)} (h : t ∈ (e.atEcho i f).2) :
    ∃ p, e.producer? i = some (.echo p) ∧ t ∈ (f p).2 := by
  obtain ⟨⟨c, _ | p | p | p⟩, hx, ht⟩ := mem_atInteraction h
  · cases ht
  · cases ht
  · exact ⟨p, by rw [producer?, hx]; rfl, ht⟩
  · cases ht

theorem mem_askProducer {t : Task τ} {i : Nat} {a : Ask} {x : Interaction}
    (h : t ∈ (askProducer i a x).2) :
    (∃ r item, x.producer.remote = some r ∧ t = .tell (.heard r (.next item))) ∨
      (∃ n, t = .settle i n) ∨ (∃ b, t = .passOn i b) ∨ t = .drain i := by
  rcases x with ⟨c, _ | p | p | p⟩
  · cases h
  · cases a with
    | cancel => exact Or.inr (Or.inr (Or.inl ⟨_, List.mem_singleton.mp h⟩))
    | request n =>
      have h' : t ∈ (askScripted i (.request n) p).2 := h
      rw [askScripted_request] at h'
      split at h'
      · cases h'
      · exact Or.inr (Or.inr (Or.inl ⟨_, List.mem_singleton.mp h'⟩))
      · rcases List.mem_append.mp h' with h' | h'
        · rw [Option.mem_toList, Option.map_eq_some_iff] at h'
          obtain ⟨r, hr, rfl⟩ := h'
          exact Or.inl ⟨r, _, hr, rfl⟩
        · exact Or.inr (Or.inl ⟨_, List.mem_singleton.mp h'⟩)
  · cases a with
    | cancel => cases h
    | request n => exact Or.inr (Or.inr (Or.inr (List.mem_singleton.mp h)))
  · cases h

theorem mem_drainNext {t : Task τ} {i : Nat} {p : EchoProducer}
    (h : t ∈ (drainNext i p).2) :
    (∃ r item, p.remote = some r ∧ t = .tell (.heard r (.next item))) ∨ t = .drainNext i := by
  unfold drainNext at h
  split at h
  · cases h
  · split at h
    · rename_i r hr
      rcases List.mem_cons.mp h with rfl | h
      · exact Or.inl ⟨r, _, hr, rfl⟩
      · exact Or.inr (List.mem_singleton.mp h)
    · exact Or.inr (List.mem_singleton.mp h)

theorem mem_attach {t : Task τ} {i : Nat} {r : Handle} {x : Interaction}
    (h : t ∈ (attach i r x).2) :
    x.producer.remote = none ∧
      (t = .tell (.attached r i) ∨ t = .openGate i r ∨ ∃ item, t = .push i item) := by
  rcases x with ⟨c, _ | p | p | p⟩
  · cases h
  · simp only [attach] at h
    split at h
    · cases h
    · refine ⟨by simpa [Producer.remote] using ‹¬p.remote.isSome = true›, ?_⟩
      simp only [List.mem_cons, List.not_mem_nil, or_false] at h
      rcases h with rfl | rfl
      · exact Or.inl rfl
      · exact Or.inr (Or.inl rfl)
  · simp only [attach] at h
    split at h
    · cases h
    · refine ⟨by simpa [Producer.remote] using ‹¬p.remote.isSome = true›, ?_⟩
      simp only [List.mem_cons, List.not_mem_nil, or_false] at h
      rcases h with rfl | rfl
      · exact Or.inr (Or.inr ⟨_, rfl⟩)
      · exact Or.inl rfl
  · simp only [attach] at h
    split at h
    · cases h
    · refine ⟨by simpa [Producer.remote] using ‹¬p.remote.isSome = true›, ?_⟩
      split at h
      · exact Or.inl (List.mem_singleton.mp h)
      · cases h

section Left

variable {env : Environment σ τ} {e : Exchange σ} {t : Task τ} {i : Nat}

/-- What was asked for while the initial payload was delivered is passed on. -/
theorem mem_perform_settle {n : Nat} (h : t ∈ (e.perform env (.settle i n)).2) :
    ∃ m, t = .passOn i (.request m) := by
  obtain ⟨p, -, ht⟩ := mem_atScripted h
  dsimp only at ht
  split at ht
  · exact ⟨_, List.mem_singleton.mp ht⟩
  · cases ht

theorem notMem_perform_passOn {a : Ask} : t ∉ (e.perform env (.passOn i a)).2 := by
  intro h
  obtain ⟨p, -, ht⟩ := mem_atScripted h
  cases ht

theorem notMem_perform_openGate {r : Handle} : t ∉ (e.perform env (.openGate i r)).2 := by
  intro h
  obtain ⟨p, -, ht⟩ := mem_atScripted h
  cases ht

/-- An item that is put into a queue has it emptied. -/
theorem mem_perform_push {item : Payload} (h : t ∈ (e.perform env (.push i item)).2) :
    t = .drain i := by
  obtain ⟨p, -, ht⟩ := mem_atEcho h
  dsimp only at ht
  split at ht
  · exact List.mem_singleton.mp ht
  · cases ht

/-- A queue is emptied item by item. -/
theorem mem_perform_drain (h : t ∈ (e.perform env (.drain i)).2) : t = .drainNext i := by
  obtain ⟨p, -, ht⟩ := mem_atEcho h
  dsimp only at ht
  split at ht
  · exact List.mem_singleton.mp ht
  · cases ht

end Left

/-- What a task may lead to when it is performed: `Origin env e t t'` says of which sections `t`
can be one if it leaves `t'` to be done. -/
inductive Origin (env : Environment σ τ) (e : Exchange σ) : Task τ → Task τ → Prop where
  | call {event : Event τ} {c : Call τ} (h : c ∈ (env.react event e.far).2) :
      Origin env e (.tell event) (.call c)
  | resumed (step : τ) : Origin env e (.call (.resume step)) (.tell (.resumed step))
  | asked {t : Task τ} (h : Handle) (a : Ask) (ht : t.producer? = none) :
      Origin env e t (.tell (.asked h a))
  | copied {t : Task τ} (tag : String) (item : Option Payload) (ht : t.producer? = none) :
      Origin env e t (.tell (.copied tag item))
  | attached {i : Nat} (r : Handle) (h : e.remote? i = none) :
      Origin env e (.call (.attach i r)) (.tell (.attached r i))
  | openGate {i : Nat} (r : Handle) (h : e.remote? i = none) :
      Origin env e (.call (.attach i r)) (.openGate i r)
  | heard {t : Task τ} {i : Nat} {r : Handle} (s : Signal Payload) (ht : t.producer? = some i)
      (h : e.remote? i = some r) : Origin env e t (.tell (.heard r s))
  | settle {t : Task τ} {i : Nat} (n : Nat) (ht : t.producer? = some i) :
      Origin env e t (.settle i n)
  | passOn {t : Task τ} {i : Nat} (a : Ask) (ht : t.producer? = some i) :
      Origin env e t (.passOn i a)
  | push {t : Task τ} (i : Nat) (item : Payload) : Origin env e t (.push i item)
  | drain {t : Task τ} (i : Nat) : Origin env e t (.drain i)
  | drainNext {t : Task τ} (i : Nat) : Origin env e t (.drainNext i)

theorem Origin.of_receiver {env : Environment σ τ} {e : Exchange σ} {t t' : Task τ}
    (ht : t.producer? = none)
    (h : (∃ s a, t' = .tell (.asked s a)) ∨ (∃ tag item, t' = .tell (.copied tag item)) ∨
      ∃ item, t' = .push i item) : Origin env e t t' := by
  rcases h with ⟨s, a, rfl⟩ | ⟨tag, item, rfl⟩ | ⟨item, rfl⟩
  · exact .asked s a ht
  · exact .copied tag item ht
  · exact .push _ item

theorem remote?_eq_of_getElem? {i : Nat} {e : Exchange σ} {x : Interaction}
    (h : e.interactions[i]? = some x) : e.remote? i = x.producer.remote := by
  rw [remote?, producer?, h]
  rfl

/-- **Where tasks come from.** -/
theorem Origin.of_mem {env : Environment σ τ} {e : Exchange σ} {t t' : Task τ}
    (h : t' ∈ (e.perform env t).2) : Origin env e t t' := by
  cases t with
  | call c =>
    cases c with
    | subscribed i s => exact .of_receiver rfl (mem_atReceiver h)
    | signal i s => exact .of_receiver rfl (mem_atReceiver h)
    | attach i r =>
      obtain ⟨x, hx, ht⟩ := mem_atInteraction h
      obtain ⟨hr, rfl | rfl | ⟨item, rfl⟩⟩ := mem_attach ht
      · exact .attached r ((remote?_eq_of_getElem? hx).trans hr)
      · exact .openGate r ((remote?_eq_of_getElem? hx).trans hr)
      · exact .push i item
    | ask i a =>
      obtain ⟨x, hx, ht⟩ := mem_atInteraction h
      obtain ⟨r, item, hr, rfl⟩ | ⟨n, rfl⟩ | ⟨b, rfl⟩ | rfl := mem_askProducer ht
      · exact .heard _ rfl ((remote?_eq_of_getElem? hx).trans hr)
      · exact .settle n rfl
      · exact .passOn b rfl
      · exact .drain i
    | resume step =>
      obtain rfl := List.mem_singleton.mp h
      exact .resumed step
    | raise p => cases h
  | tell event =>
    obtain ⟨c, hc, rfl⟩ := List.mem_map.mp h
    exact .call hc
  | own i a => exact .of_receiver rfl (mem_atReceiver h)
  | settle i n =>
    obtain ⟨m, rfl⟩ := mem_perform_settle h
    exact .passOn _ rfl
  | passOn i a => exact absurd h notMem_perform_passOn
  | openGate i r => exact absurd h notMem_perform_openGate
  | push i item =>
    obtain rfl := mem_perform_push h
    exact .drain i
  | drain i =>
    obtain rfl := mem_perform_drain h
    exact .drainNext i
  | drainNext i =>
    obtain ⟨p, hp, ht⟩ := mem_atEcho h
    obtain ⟨r, item, hr, rfl⟩ | rfl := mem_drainNext ht
    · refine .heard _ rfl ?_
      rw [remote?, hp]
      exact hr
    · exact .drainNext i

/-! ## The sections of a scripted producer -/

section Scripted

variable (env : Environment σ τ) {i : Nat} {p : ScriptedProducer} {e : Exchange σ}
  (h : e.scripted? i = some p)
include h

theorem perform_ask (a : Ask) :
    (e.perform env (.call (.ask i a))).1.scripted? i = some (askScripted (τ := τ) i a p).1 ∧
      (e.perform env (.call (.ask i a))).2 = (askScripted i a p).2 := by
  unfold scripted? at h
  split at h
  · rename_i r q hx
    cases h
    show (e.atInteraction i (askProducer i a)).1.scripted? i = _ ∧
      (e.atInteraction i (askProducer i a)).2 = _
    rw [atInteraction_eq hx]
    exact ⟨by rw [scripted?, getElem?_put_self hx]; rfl, rfl⟩
  · cases h

theorem perform_settle (n : Nat) :
    (e.perform env (.settle i n)).1.scripted? i =
        some { p with initial := (p.initial.settle n).1 } ∧
      (e.perform env (.settle i n)).2 =
        if 0 < (p.initial.settle n).2 then [.passOn i (.request (p.initial.settle n).2)]
        else [] :=
  atScripted_eq h _

theorem perform_passOn (a : Ask) :
    (e.perform env (.passOn i a)).1.scripted? i = some { p with emitter := p.emitter.ask a } ∧
      (e.perform env (.passOn i a)).2 = [] :=
  atScripted_eq h _

theorem perform_openGate (r : Handle) :
    (e.perform env (.openGate i r)).1.scripted? i = some { p with gate := (p.gate.fire r).1 } ∧
      (e.perform env (.openGate i r)).2 = [] :=
  atScripted_eq h _

/-- A section of an echo leaves a scripted producer as it is. -/
theorem atEcho_of_scripted? (f : EchoProducer → EchoProducer × List (Task τ)) :
    (e.atEcho i f).1.scripted? i = some p ∧ (e.atEcho i f).2 = [] := by
  unfold scripted? at h
  split at h
  · rename_i r q hx
    cases h
    rw [atEcho, atInteraction_eq hx]
    exact ⟨by rw [scripted?, getElem?_put_self hx], rfl⟩
  · cases h

/-- A producer without a peer takes the first that comes. -/
theorem perform_attach_of_fresh (hr : p.remote = none) (r : Handle) :
    (e.perform env (.call (.attach i r))).1.scripted? i = some { p with remote := some r } ∧
      (e.perform env (.call (.attach i r))).2 = [.tell (.attached r i), .openGate i r] := by
  unfold scripted? at h
  split at h
  · rename_i c q hx
    cases h
    show (e.atInteraction i (attach i r)).1.scripted? i = _ ∧
      (e.atInteraction i (attach i r)).2 = _
    rw [atInteraction_eq hx]
    exact ⟨by rw [scripted?, getElem?_put_self hx]; simp [attach, hr], by simp [attach, hr]⟩
  · cases h

/-- A producer with a peer does not take another. -/
theorem perform_attach {r : Handle} (hr : p.remote = some r) (r' : Handle) :
    (e.perform env (.call (.attach i r'))).1.scripted? i = some p ∧
      (e.perform env (.call (.attach i r'))).2 = [] := by
  unfold scripted? at h
  split at h
  · rename_i c q hx
    cases h
    have hq := remote_attach (τ := τ) (x := ⟨c, .scripted p⟩) i r' hr
    show (e.atInteraction i (attach i r')).1.scripted? i = _ ∧
      (e.atInteraction i (attach i r')).2 = _
    rw [atInteraction_eq hx]
    exact ⟨by rw [scripted?, getElem?_put_self hx, hq.1], hq.2⟩
  · cases h

/-- Sending a signal spends what the emitter has decided to spend, and nothing else. -/
theorem send_of_scripted? (emitter : Emitter) (s : Signal Payload) :
    (e.send (τ := τ) i p emitter s).1.scripted? i = some { p with emitter := emitter } ∧
      (e.send (τ := τ) i p emitter s).2 =
        (p.remote.map fun r => .tell (.heard r s)).toList :=
  ⟨(atScripted_eq h fun p => ({ p with emitter := emitter }, [])).1, rfl⟩

end Scripted

/-! ## How many interactions there are -/

theorem size_put (i : Nat) (x : Interaction) (e : Exchange σ) :
    (e.put i x).interactions.size = e.interactions.size :=
  Array.size_setIfInBounds ..

theorem size_enter (x : Interaction) (e : Exchange σ) :
    (e.enter x).interactions.size = e.interactions.size + 1 :=
  Array.size_push ..

theorem size_atReceiver (i : Nat) (f : Receiver → Receiver × Receiver.Effect) (e : Exchange σ) :
    (e.atReceiver (τ := τ) i f).1.interactions.size = e.interactions.size := by
  unfold atReceiver
  split
  · rfl
  · exact size_put ..

theorem size_atInteraction (i : Nat) (f : Interaction → Interaction × List (Task τ))
    (e : Exchange σ) : (e.atInteraction i f).1.interactions.size = e.interactions.size := by
  unfold atInteraction
  split
  · rfl
  · exact size_put ..

/-- No task opens an interaction. -/
theorem size_perform (env : Environment σ τ) (t : Task τ) (e : Exchange σ) :
    (e.perform env t).1.interactions.size = e.interactions.size := by
  cases t with
  | call c =>
    cases c with
    | subscribed i h => exact size_atReceiver ..
    | signal i s => exact size_atReceiver ..
    | attach i r => exact size_atInteraction ..
    | ask i a => exact size_atInteraction ..
    | resume step => rfl
    | raise p => rfl
  | tell event => rfl
  | own i a => exact size_atReceiver ..
  | settle i n => exact size_atInteraction ..
  | passOn i a => exact size_atInteraction ..
  | openGate i r => exact size_atInteraction ..
  | push i item => exact size_atInteraction ..
  | drain i => exact size_atInteraction ..
  | drainNext i => exact size_atInteraction ..

end Exchange
end StreamConformance
