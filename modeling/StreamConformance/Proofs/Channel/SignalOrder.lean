import StreamConformance.Proofs.Channel.Account

/-!
# The order of a channel's signals

This file says in what order the peer of a scripted producer hears the initial payload and the
signals of the script, for every interleaving of the peer's calls with the script and for every
nesting of calls that the far side makes while it is being called.

Without the initial payload the signals are what the emitter sent: items, and after them at most
one completion or error (`EndsOnce`).  The initial payload is among them at most once.  Where it
stands is another matter, as the emitter does not look at it: a completion needs no demand and
may be sent while the initial payload is still waiting for some.  For a peer that asks for
nothing once it has canceled (`Patient`), `InitialFirst` fails exactly then.

* `Accounted.step`: every step keeps some account right.
* `signals_endsOnce_and_initialFirst_iff`: the order of the signals.
* `not_initialFirst_of_complete_request`: a completion may be heard ahead of the initial payload.
-/

namespace StreamConformance

/-- A peer is patient if it asks for nothing once it has canceled. -/
def Patient {τ : Type} (i : Nat) (l : List (Task τ)) : Prop :=
  l.Pairwise fun t t' => t = .call (.ask i .cancel) → ∀ n, t' ≠ .call (.ask i (.request n))

variable {ι σ τ : Type} [DecidableEq ι] {env : Environment σ τ} {rules : Crew.Rules ι σ τ}
  {script : ι} {i : Nat} {r : Handle} {p0 : Payload} {a : Account ι} {p p' : ScriptedProducer}
  {c d : Crew ι σ τ}

/-! ## One step -/

/-- Both invariants of a producer and its peer, for some account. -/
def Accounted (script : ι) (i : Nat) (r : Handle) (p0 : Payload) (c : Crew ι σ τ) : Prop :=
  ∃ a p, Tallies script i r p0 a p c ∧ (Patient i c.done → OnDemand i a p c)

/-- A peer that never cancels is patient. -/
theorem Patient.of_not_mem {l : List (Task τ)} (h : .call (.ask i .cancel) ∉ l) : Patient i l :=
  List.Pairwise.imp_of_mem (fun hmem _ _ ht => absurd (ht ▸ hmem) h)
    (List.pairwise_of_forall fun _ _ => trivial)

theorem Patient.of_isPrefix {l l' : List (Task τ)} (h : Patient i l') (hl : l <+: l') :
    Patient i l :=
  List.Pairwise.sublist hl.sublist h

/-- A patient peer that has canceled asks for nothing. -/
theorem Patient.not_mem_of_request {l : List (Task τ)} {n : Nat}
    (h : Patient i (l ++ [.call (.ask i (.request n))])) : .call (.ask i .cancel) ∉ l :=
  fun hl => (List.pairwise_append.mp h).2.2 _ hl _ (List.mem_singleton_self _) rfl n rfl

namespace Tallies

/-- A thread delivers a signal to the peer. -/
theorem accounted_work_heard (h : Tallies script i r p0 a p c)
    (hdemand : Patient i c.done → OnDemand i a p c) {k : ι} {s : Signal Payload}
    {rest : List (Task τ)} (hk : c.stack k = .tell (.heard r s) :: rest)
    (hd : d = c.work env k (.tell (.heard r s)) rest) : Accounted script i r p0 d := by
  have hdone : c.done <+: d.done := hd ▸ List.prefix_append ..
  have hsig : d.signals r = c.signals r ++ [s] := by
    rw [hd, Crew.signals_work, Crew.signal?_heard]
    rfl
  have hp : d.exchange.scripted? i = some p := hd ▸ h.producer
  -- The peer answers with calls, and nothing else is new.
  obtain ⟨calls, hstack⟩ : ∃ calls : List (Call τ),
      d.stack = Function.update c.stack k (calls.map .call ++ rest) :=
    ⟨(env.react (.heard r s) c.exchange.far).2, by rw [hd]; rfl⟩
  have hcalls : ∀ t ∈ calls.map Task.call, ∃ cl, t = .call cl := by
    intro t ht
    obtain ⟨cl, -, rfl⟩ := List.mem_map.mp ht
    exact ⟨cl, rfl⟩
  obtain ⟨n, rest', ho, rfl, rfl, hidle⟩ | ⟨rfl, hhand, hnot, hidle⟩ := h.cases_of_heard hk
  · refine ⟨_, p, h.hear_initial ho hstack ?_ hsig hp, fun hpat => ?_⟩
    · intro t ht s
      rcases List.mem_append.mp ht with ht | ht
      · obtain ⟨cl, rfl⟩ := hcalls t ht
        exact (Account.idle_call (a := a) (i := i) (r := r) cl).1 s
      · rcases List.mem_cons.mp ht with rfl | ht
        · exact fun hs => by cases hs
        · exact (hidle t ht).1 s
    · exact (hdemand (hpat.of_isPrefix hdone)).keep hstack hdone (fun _ => rfl) rfl rfl
        (fun _ => Or.inr (Or.inl rfl)) (fun ho => absurd rfl ho) (fun ho => absurd rfl ho)
  · refine ⟨_, p, h.hear_hand hhand hnot hstack ?_ hsig hp, fun hpat => ?_⟩
    · intro t ht
      rcases List.mem_append.mp ht with ht | ht
      · obtain ⟨cl, rfl⟩ := hcalls t ht
        exact Account.idle_call cl
      · exact hidle t ht
    · have hold := hdemand (hpat.of_isPrefix hdone)
      refine hold.hear_hand hhand hstack hdone fun ho n hn => ?_
      rcases List.mem_append.mp hn with hn | hn
      · obtain ⟨cl, hcl⟩ := hcalls _ hn
        cases hcl
      · exact hold.passOn ho k n (hk ▸ List.mem_cons_of_mem _ hn)

/-- A thread performs a task that delivers nothing and changes the producer in no way that
shows. -/
theorem accounted_of_same (h : Tallies script i r p0 a p c)
    (hdemand : Patient i c.done → OnDemand i a p c) {k : ι} {t : Task τ} {rest : List (Task τ)}
    (hk : c.stack k = t :: rest) (ht : ∀ s, t ≠ .tell (.heard r s))
    (hd : d = c.work env k t rest)
    (hp : (c.exchange.perform env t).1.scripted? i = some p') (hr : p'.remote = p.remote)
    (hi : ∀ q, p'.initial = .pending q ↔ p.initial = .pending q)
    (he : p'.emitter.finished = p.emitter.finished)
    (hnew : ∀ t' ∈ (c.exchange.perform env t).2, a.Idle i r t')
    (hinit : p'.initial = .sent → p.initial = .sent ∨ a.opening = .heard)
    (hdem : Patient i d.done → OnDemand i a p c → a.opening ≠ .heard →
      p'.emitter.demand = p.emitter.demand ∧
        ∀ n, .passOn i (.request n) ∉ (c.exchange.perform env t).2) :
    Accounted script i r p0 d := by
  have hdone : c.done <+: d.done := hd ▸ List.prefix_append ..
  have hstack : d.stack = Function.update c.stack k ((c.exchange.perform env t).2 ++ rest) := by
    rw [hd]
    rfl
  have hsig : d.signals r = c.signals r := by
    rw [hd, Crew.signals_work, Crew.signal?_eq_none ht]
    exact List.append_nil _
  obtain ⟨hf, hidle⟩ := h.idle_of_stack hk ht
  refine ⟨a, p', h.keep hstack hf ?_ hsig (hd ▸ hp) hr hi he, fun hpat => ?_⟩
  · intro t' ht'
    rcases List.mem_append.mp ht' with ht' | ht'
    · exact hnew t' ht'
    · exact hidle t' (List.mem_cons_of_mem _ ht')
  · have hold := hdemand (hpat.of_isPrefix hdone)
    refine hold.keep hstack hdone id rfl rfl (fun h' => (hinit h').imp_right Or.inl)
      (fun ho => (hdem hpat hold ho).1) fun ho n hn => ?_
    rcases List.mem_append.mp hn with hn | hn
    · exact (hdem hpat hold ho).2 n hn
    · exact hold.passOn ho k n (hk ▸ List.mem_cons_of_mem _ hn)

/-- The peer asks for more. -/
theorem accounted_work_request (h : Tallies script i r p0 a p c)
    (hdemand : Patient i c.done → OnDemand i a p c) {k : ι} {n : Nat} {rest : List (Task τ)}
    (hk : c.stack k = .call (.ask i (.request n)) :: rest)
    (hd : d = c.work env k (.call (.ask i (.request n))) rest) : Accounted script i r p0 d := by
  have ht : ∀ s, Task.call (τ := τ) (.ask i (.request n)) ≠ .tell (.heard r s) :=
    fun _ hs => by cases hs
  obtain ⟨hp, hnew⟩ := Exchange.perform_ask env h.producer (.request n)
  rw [Exchange.askScripted_request] at hp hnew
  by_cases hn : n = 0
  · have hreq : p.initial.request n = (p.initial, .nothing) := if_pos (by simpa using hn)
    rw [hreq] at hp hnew
    refine h.accounted_of_same hdemand hk ht hd hp rfl (fun _ => Iff.rfl) rfl ?_ Or.inl ?_
    · simp [hnew]
    · simp [hnew]
  · cases hinit : p.initial with
    | pending q =>
      have ho : a.opening = .waiting := by
        by_contra ho
        exact h.opened ho q hinit
      obtain rfl : q = p0 := by simpa [hinit] using h.waiting ho
      simp only [hinit, InitialPayload.request_pending hn, h.remote] at hp hnew
      have hdone : c.done <+: d.done := hd ▸ List.prefix_append ..
      have hstack : d.stack = Function.update c.stack k
          (.tell (.heard r (.next q)) :: .settle i n :: rest) := by
        rw [hd, Crew.work, hnew]
        rfl
      have hsig : d.signals r = c.signals r := by
        rw [hd, Crew.signals_work, Crew.signal?_eq_none ht]
        exact List.append_nil _
      obtain ⟨hf, hidle⟩ := h.idle_of_stack hk ht
      have hp' := (congrArg (·.exchange.scripted? i) hd).trans hp
      refine ⟨_, _, h.release ho hstack hf (fun t ht => hidle t (List.mem_cons_of_mem _ ht)) hsig
        hp' h.remote.symm (fun _ hq => by cases hq) rfl, fun hpat => ?_⟩
      have hold := hdemand (hpat.of_isPrefix hdone)
      refine hold.keep hstack hdone (fun ho' => by simp [ho] at ho') rfl rfl
        (fun h' => by cases h') (fun _ => rfl) fun _ m hm => ?_
      refine hold.passOn (by simp [ho]) k m (hk ▸ List.mem_cons_of_mem _ ?_)
      simpa using hm
    | emitting deferred =>
      simp only [hinit, InitialPayload.request_emitting hn] at hp hnew
      refine h.accounted_of_same hdemand hk ht hd hp rfl ?_ rfl ?_ ?_ ?_
      · simp [hinit]
      · simp [hnew]
      · simp
      · simp [hnew]
    | sent =>
      simp only [hinit, InitialPayload.request_sent hn] at hp hnew
      refine h.accounted_of_same hdemand hk ht hd hp rfl ?_ rfl ?_ ?_ ?_
      · simp [hinit]
      · simp [hnew, Account.Idle]
      · simp [hinit]
      · -- A patient peer has not canceled, so the initial payload has been heard.
        intro hpat hold ho
        rcases hold.initial hinit with ho' | hcancel
        · exact absurd ho' ho
        · rw [hd, Crew.done_work] at hpat
          exact absurd hcancel hpat.not_mem_of_request

/-- The peer cancels. -/
theorem accounted_work_cancel (h : Tallies script i r p0 a p c)
    (hdemand : Patient i c.done → OnDemand i a p c) {k : ι} {rest : List (Task τ)}
    (hk : c.stack k = .call (.ask i .cancel) :: rest)
    (hd : d = c.work env k (.call (.ask i .cancel)) rest) : Accounted script i r p0 d := by
  have ht : ∀ s, Task.call (τ := τ) (.ask i .cancel) ≠ .tell (.heard r s) :=
    fun _ hs => by cases hs
  obtain ⟨hp, hnew⟩ := Exchange.perform_ask env h.producer .cancel
  have hdone : c.done <+: d.done := hd ▸ List.prefix_append ..
  have hstack : d.stack = Function.update c.stack k (.passOn i .cancel :: rest) := by
    rw [hd, Crew.work, hnew]
    rfl
  have hsig : d.signals r = c.signals r := by
    rw [hd, Crew.signals_work, Crew.signal?_eq_none ht]
    exact List.append_nil _
  obtain ⟨hf, hidle⟩ := h.idle_of_stack hk ht
  obtain ⟨-, hheard, -⟩ := a.opening_cancel
  obtain ⟨hbefore, -, hhand, -⟩ := a.signals_cancel p0
  refine ⟨a.cancel, _, h.cancel hstack hf ?_ hsig (hd ▸ hp), fun hpat => ?_⟩
  · intro t ht
    rcases List.mem_cons.mp ht with rfl | ht
    · exact ⟨fun _ hs => (by cases hs), fun _ _ hn => (by cases hn)⟩
    · exact hidle t (List.mem_cons_of_mem _ ht)
  · have hold := hdemand (hpat.of_isPrefix hdone)
    have hmem : .call (.ask i .cancel) ∈ d.done := by
      rw [hd, Crew.done_work]
      exact List.mem_append_right _ (List.mem_singleton_self _)
    refine hold.keep hstack hdone hheard.mpr hbefore hhand (fun _ => Or.inr (Or.inr hmem))
      (fun _ => rfl) fun ho n hn => ?_
    refine hold.passOn (mt hheard.mpr ho) k n (hk ▸ List.mem_cons_of_mem _ ?_)
    simpa using hn

/-- A thread performs a section of the producer. -/
theorem accounted_work_section (h : Tallies script i r p0 a p c)
    (hdemand : Patient i c.done → OnDemand i a p c) {k : ι} {t : Task τ} {rest : List (Task τ)}
    (hk : c.stack k = t :: rest) (hi : t.producer? = some i) (hd : d = c.work env k t rest) :
    Accounted script i r p0 d := by
  have ht : ∀ s, t ≠ .tell (.heard r s) := by
    rintro s rfl
    cases hi
  have hidle := (h.idle_of_stack hk ht).2 t List.mem_cons_self
  have hecho : ∀ f : EchoProducer → EchoProducer × List (Task τ),
      c.exchange.perform env t = c.exchange.atEcho i f → Accounted script i r p0 d := by
    intro f hf
    obtain ⟨hp, hnew⟩ := Exchange.atEcho_of_scripted? h.producer f
    rw [← hf] at hp hnew
    refine h.accounted_of_same hdemand hk ht hd hp rfl (fun _ => Iff.rfl) rfl ?_ Or.inl ?_
    · simp [hnew]
    · simp [hnew]
  cases t with
  | call cl =>
    cases cl with
    | ask j b =>
      obtain rfl := Option.some.inj hi
      cases b with
      | request n => exact h.accounted_work_request hdemand hk hd
      | cancel => exact h.accounted_work_cancel hdemand hk hd
    | attach j r' =>
      obtain rfl := Option.some.inj hi
      obtain ⟨hp, hnew⟩ := Exchange.perform_attach env h.producer h.remote r'
      refine h.accounted_of_same hdemand hk ht hd hp rfl (fun _ => Iff.rfl) rfl ?_ Or.inl ?_
      · simp [hnew]
      · simp [hnew]
    | subscribed | signal | resume | raise => cases hi
  | settle j n =>
    obtain rfl := Option.some.inj hi
    -- Only a delivery that is over is settled.
    have ho : a.opening = .heard := by
      by_contra ho
      exact hidle.2 ho n rfl
    obtain ⟨hp, hnew⟩ := Exchange.perform_settle env h.producer n
    have hsettle : (p.initial.settle n).1 = .sent := by
      cases p.initial <;> rfl
    refine h.accounted_of_same hdemand hk ht hd hp rfl ?_ rfl ?_ (fun _ => Or.inr ho)
      (fun _ _ ho' => absurd ho ho')
    · intro q
      refine ⟨fun hq => ?_, fun hq => absurd hq (h.opened (by simp [ho]) q)⟩
      rw [hsettle] at hq
      cases hq
    · rw [hnew]
      split <;> simp [Account.Idle]
  | passOn j b =>
    obtain rfl := Option.some.inj hi
    obtain ⟨hp, hnew⟩ := Exchange.perform_passOn env h.producer b
    refine h.accounted_of_same hdemand hk ht hd hp rfl (fun _ => Iff.rfl) ?_ ?_ Or.inl ?_
    · cases b <;> rfl
    · simp [hnew]
    · intro _ hold ho
      cases b with
      | request n => exact absurd (hk ▸ List.mem_cons_self) (hold.passOn ho k n)
      | cancel => exact ⟨rfl, by simp [hnew]⟩
  | openGate j r' =>
    obtain rfl := Option.some.inj hi
    obtain ⟨hp, hnew⟩ := Exchange.perform_openGate env h.producer r'
    refine h.accounted_of_same hdemand hk ht hd hp rfl (fun _ => Iff.rfl) rfl ?_ Or.inl ?_
    · simp [hnew]
    · simp [hnew]
  | push j item => obtain rfl := Option.some.inj hi; exact hecho _ rfl
  | drain j => obtain rfl := Option.some.inj hi; exact hecho _ rfl
  | drainNext j => obtain rfl := Option.some.inj hi; exact hecho _ rfl
  | tell | own => cases hi

/-- **Every task that a thread performs keeps the account right.** -/
theorem accounted_work (h : Tallies script i r p0 a p c)
    (hdemand : Patient i c.done → OnDemand i a p c) (hsole : c.exchange.SoleReceiver r i) {k : ι}
    {t : Task τ} {rest : List (Task τ)} (hk : c.stack k = t :: rest)
    (hd : d = c.work env k t rest) : Accounted script i r p0 d := by
  by_cases ht : ∃ s, t = .tell (.heard r s)
  · obtain ⟨s, rfl⟩ := ht
    exact h.accounted_work_heard hdemand hk hd
  · have ht' : ∀ s, t ≠ .tell (.heard r s) := fun s hs => ht ⟨s, hs⟩
    by_cases hi : t.producer? = some i
    · exact h.accounted_work_section hdemand hk hi hd
    · have hp : (c.exchange.perform env t).1.scripted? i = some p := by
        rw [Exchange.scripted?_congr (Exchange.producer?_perform env hi c.exchange)]
        exact h.producer
      refine h.accounted_of_same hdemand hk ht' hd hp rfl (fun _ => Iff.rfl) rfl ?_ Or.inl ?_
      · intro t' hmem
        exact (Account.idle_of_mem_perform hsole hi hmem).1
      · intro _ _ _
        exact ⟨rfl, fun n hmem => (Account.idle_of_mem_perform (a := a) hsole hi hmem).2 _ rfl⟩

end Tallies

/-- **Every step keeps the account right.** -/
theorem Accounted.step (hemits : ∀ k s, rules.emits k i s → k = script)
    (h : Crew.Step env rules c d) (hsole : c.exchange.SoleReceiver r i)
    (hc : Accounted script i r p0 c) : Accounted script i r p0 d := by
  obtain ⟨a, p, htally, hdemand⟩ := hc
  cases h with
  | work hk ht => exact htally.accounted_work hdemand hsole hk rfl
  | panic hk =>
    -- A thread that is about to deliver something does not panic.
    have hf := (htally.idle_of_stack hk fun _ hs => by cases hs).1
    refine ⟨a, p, htally.keep rfl hf (by simp) rfl htally.producer rfl (fun _ => Iff.rfl) rfl,
      fun hpat => ?_⟩
    exact (hdemand hpat).keep rfl (List.prefix_refl _) id rfl rfl Or.inl (fun _ => rfl) (by simp)
  | @start k e ts hk hstart =>
    have hf := htally.front_of_stack_nil hk
    have hp : e.scripted? i = some p := by
      have hold := htally.producer
      unfold Exchange.scripted? at hold ⊢
      split at hold
      · rename_i hx
        cases hold
        rw [rules.keeps hstart hx]
      · cases hold
    have hts := fun t ht => Account.idle_of_isOuter (i := i) (r := r) (a := a)
      (rules.outer hstart t ht)
    refine ⟨a, p, htally.keep rfl hf (fun t ht => (hts t ht).1) rfl hp rfl (fun _ => Iff.rfl) rfl,
      fun hpat => ?_⟩
    exact (hdemand hpat).keep rfl (List.prefix_refl _) id rfl rfl Or.inl (fun _ => rfl)
      fun _ n hn => (hts _ hn).2 _ rfl
  | @emit k j q emitter s hk hemit hq hs =>
    by_cases hj : j = i
    · subst hj
      obtain rfl := hemits k s hemit
      obtain rfl : p = q := Option.some.inj (htally.producer.symm.trans hq)
      obtain ⟨hp, hnew⟩ := Exchange.send_of_scripted? (τ := τ) hq emitter s
      rw [htally.remote] at hnew
      refine ⟨_, _, htally.emit hk hs (by rw [hnew]; rfl) rfl hp, fun hpat => ?_⟩
      exact (hdemand hpat).emit hs rfl (List.prefix_refl _) (by simp [hnew])
    · have hp : (c.exchange.send (τ := τ) j q emitter s).1.scripted? i = some p := by
        rw [Exchange.scripted?_congr (Exchange.producer?_send_of_ne hj q emitter s _)]
        exact htally.producer
      have hnew : ∀ t ∈ (c.exchange.send (τ := τ) j q emitter s).2,
          a.Idle i r t ∧ ∀ b, t ≠ .passOn i b := by
        intro t ht
        simp only [Exchange.send, Option.mem_toList, Option.map_eq_some_iff] at ht
        obtain ⟨r', hr', rfl⟩ := ht
        refine ⟨⟨?_, fun _ _ hn => by cases hn⟩, fun _ hb => by cases hb⟩
        rintro s' hs'
        cases hs'
        exact hj (hsole j ((Exchange.remote?_of_scripted? hq).trans hr'))
      have hf := htally.front_of_stack_nil hk
      refine ⟨a, p, htally.keep rfl hf (fun t ht => (hnew t ht).1) rfl hp rfl
        (fun _ => Iff.rfl) rfl, fun hpat => ?_⟩
      exact (hdemand hpat).keep rfl (List.prefix_refl _) id rfl rfl Or.inl (fun _ => rfl)
        fun _ n hn => (hnew _ hn).2 _ rfl

/-! ## A whole run -/

/-- The peer `r` has subscribed to the producer of the interaction `i`, whose initial payload is
`p0`, and has neither asked it for anything nor been told anything. -/
structure JustSubscribed (i : Nat) (r : Handle) (p0 : Payload) (c : Crew ι σ τ) : Prop where
  producer : ∃ gate,
    c.exchange.scripted? i = some { initial := .pending p0, remote := some r, gate := gate }
  stack : ∀ k, ∀ t ∈ c.stack k, (∀ s, t ≠ .tell (.heard r s)) ∧ (∀ n, t ≠ .settle i n) ∧
    ∀ b, t ≠ .passOn i b
  done : ∀ t ∈ c.done, ∀ s, t ≠ .tell (.heard r s)

/-- Subscribing to a fresh producer leads there. -/
theorem JustSubscribed.of_attach {k : ι} {rest : List (Task τ)} {gate : Gate Handle}
    (hp : c.exchange.scripted? i = some { initial := .pending p0, gate := gate })
    (hk : c.stack k = .call (.attach i r) :: rest)
    (hstack : ∀ k, ∀ t ∈ c.stack k, (∀ s, t ≠ .tell (.heard r s)) ∧ (∀ n, t ≠ .settle i n) ∧
      ∀ b, t ≠ .passOn i b)
    (hdone : ∀ t ∈ c.done, ∀ s, t ≠ .tell (.heard r s)) :
    JustSubscribed i r p0 (c.work env k (.call (.attach i r)) rest) := by
  obtain ⟨hattached, hnew⟩ := Exchange.perform_attach_of_fresh env hp rfl r
  refine ⟨⟨gate, hattached⟩, fun k' t ht => ?_, fun t ht => ?_⟩
  · by_cases hk' : k' = k
    · subst hk'
      rw [Crew.stack_work_self, hnew] at ht
      rcases List.mem_append.mp ht with ht | ht
      · simp only [List.mem_cons, List.not_mem_nil, or_false] at ht
        rcases ht with rfl | rfl <;> simp
      · exact hstack k' t (hk ▸ List.mem_cons_of_mem _ ht)
    · rw [Crew.stack_work_of_ne _ _ _ _ hk'] at ht
      exact hstack k' t ht
  · rw [Crew.done_work, List.mem_append, List.mem_singleton] at ht
    rcases ht with ht | rfl
    · exact hdone t ht
    · exact fun s hs => by cases hs

theorem JustSubscribed.accounted (h : JustSubscribed i r p0 c) :
    Accounted script i r p0 c := by
  obtain ⟨gate, hp⟩ := h.producer
  have hwait : ∀ k n, ({} : Account ι).opening ≠ .held k n := fun _ _ h' => by cases h'
  have htally : Tallies script i r p0 {} _ c :=
    { producer := hp
      remote := rfl
      told := List.filterMap_eq_nil_iff.mpr fun t ht => Crew.signal?_eq_none (h.done t ht)
      after := fun _ => rfl
      waiting := fun _ => rfl
      opened := fun ho => absurd rfl ho
      apart := fun _ _ => rfl
      stack := by
        intro k
        rw [Account.front_of_not_held (hwait k)]
        refine ⟨c.stack k, by split <;> rfl, fun t ht => ?_⟩
        exact ⟨(h.stack k t ht).1, fun _ => (h.stack k t ht).2.1⟩
      ends := List.Pairwise.nil
      unfinished := fun _ s hs => by cases hs }
  refine ⟨{}, _, htally, fun _ => ?_⟩
  exact
    { initial := fun h' => by cases h'
      demand := fun _ => rfl
      passOn := fun _ k n hn => (h.stack k _ hn).2.2 _ rfl
      before := fun s hs => by cases hs
      hand := fun _ s hs => by cases hs }

theorem Accounted.reach (hemits : ∀ k s, rules.emits k i s → k = script)
    (hrun : Crew.Reach env rules c d) (hsole : d.exchange.SoleReceiver r i)
    (hc : Accounted script i r p0 c) : Accounted script i r p0 d := by
  induction hrun with
  | refl => exact hc
  | tail _ hstep ih =>
    -- A peer that has one producer at the end had no other before.
    have hsole' := fun j hj => hsole j (Crew.remote?_step hstep hj)
    exact (ih hsole').step hemits hstep hsole'

/-- **The order of the signals.**  Apart from the initial payload, which is heard once at most,
the peer hears items and after them at most one completion or error.  A patient peer hears the
initial payload first, unless a completion or error comes first. -/
theorem signals_endsOnce_and_initialFirst_iff (hemits : ∀ k s, rules.emits k i s → k = script)
    (hstart : JustSubscribed i r p0 c) (hrun : Crew.Reach env rules c d)
    (hsole : d.exchange.SoleReceiver r i) :
    (∃ before after, EndsOnce (before ++ after) ∧
      (d.signals r = before ++ after ∨ d.signals r = before ++ .next p0 :: after)) ∧
    (Patient i d.done →
      (InitialFirst p0 (d.signals r) ↔ ∀ s ∈ (d.signals r).head?, s.isTerminal = false)) := by
  have hacc : Accounted script i r p0 c := hstart.accounted
  obtain ⟨a, p, htally, hdemand⟩ := hacc.reach hemits hrun hsole
  have hends : EndsOnce (a.before ++ a.after) :=
    List.Pairwise.sublist (List.sublist_append_left ..) htally.ends
  refine ⟨⟨a.before, a.after, hends, ?_⟩, fun hpat => ?_⟩
  · rw [htally.told, Account.told]
    split
    · exact Or.inr rfl
    · exact Or.inl rfl
  · have hterm := (hdemand hpat).before
    rw [htally.told]
    cases hb : a.before with
    | nil =>
      -- The script was not heard before the initial payload.
      rw [hb] at hends
      by_cases ho : a.opening = .heard
      · have htold : a.told p0 = .next p0 :: a.after := by simp [Account.told, ho, hb]
        rw [htold]
        refine ⟨fun _ s hs => ?_, fun _ => Or.inr ⟨_, rfl, hends⟩⟩
        obtain rfl := Option.some.inj hs
        rfl
      · have htold : a.told p0 = [] := by
          rw [Account.told]
          split
          · exact absurd ‹_› ho
          · rw [hb, htally.after ho]
            rfl
        rw [htold]
        exact ⟨fun _ s hs => (by cases hs), fun _ => Or.inl rfl⟩
    | cons s l =>
      have hs : s.isTerminal = true := hterm s (hb ▸ List.mem_cons_self)
      obtain ⟨l', htold⟩ : ∃ l', a.told p0 = s :: l' := by
        rw [Account.told, hb]
        split <;> exact ⟨_, rfl⟩
      rw [htold]
      refine ⟨?_, fun h' => ?_⟩
      · rintro (h' | ⟨l'', h', -⟩)
        · cases h'
        · obtain ⟨rfl, -⟩ := List.cons.inj h'
          cases hs
      · rw [h' s rfl] at hs
        cases hs

/-! ### A handshake -/

namespace Handshake

/-- A far side that keeps what it is told. -/
def silent : Environment Unit Unit where
  dial _ := none
  react _ far := (far, [])
  idle _ := none

/-- The thread `true` is the peer's, which asks as it likes; the thread `false` runs the script. -/
def moves : Crew.Rules Bool Unit Unit where
  starts k e e' ts := k = true ∧ e' = e ∧ ∃ a, ts = [.call (.ask 0 a)]
  keeps := by
    rintro k e e' ts ⟨-, rfl, -⟩ i x hx
    exact hx
  outer := by
    rintro k e e' ts ⟨-, -, a, rfl⟩ t ht
    rw [List.mem_singleton.mp ht]
    rfl
  emits k i _ := k = false ∧ i = 0

/-- One channel with its producer, and nothing else. -/
def exchange (p : ScriptedProducer) : Exchange Unit where
  far := ()
  interactions := #[{
    receiver := .payloads { label := "", initialDemand := 0 }, producer := .scripted p }]

/-- What the two threads have still to do, and what has been done. -/
def state (p : ScriptedProducer) (peer script done : List (Task Unit)) : Crew Bool Unit Unit where
  exchange := exchange p
  stack k := if k then peer else script
  done := done

/-- The peer has subscribed to a channel whose initial payload is `p0`. -/
def subscribed (p0 : Payload) : Crew Bool Unit Unit :=
  state { initial := .pending p0, remote := some ⟨0, 1⟩ }
    [.tell (.attached ⟨0, 1⟩ 0), .openGate 0 ⟨0, 1⟩] [] [.call (.attach 0 ⟨0, 1⟩)]

section Steps

variable {env : Environment Unit Unit} {p p' : ScriptedProducer}
  {rest peer script done : List (Task Unit)}

theorem stack_peer (p p' : ScriptedProducer) (peer ts script done done' : List (Task Unit)) :
    (state p' ts script done').stack =
      Function.update (state p peer script done).stack true ts := by
  funext k
  cases k <;> rfl

theorem stack_script (p p' : ScriptedProducer) (peer script ts done done' : List (Task Unit)) :
    (state p' peer ts done').stack =
      Function.update (state p peer script done).stack false ts := by
  funext k
  cases k <;> rfl

theorem peer_works (t : Task Unit) (new : List (Task Unit))
    (h : (exchange p).perform env t = (exchange p', new)) (ht : ∀ q, t ≠ .call (.raise q)) :
    Crew.Leaves env moves 0 (state p (t :: rest) script done) []
      (state p' (new ++ rest) script (done ++ [t])) :=
  .of_perform h (stack_peer ..) rfl rfl ht

theorem script_works (t : Task Unit) (new : List (Task Unit))
    (h : (exchange p).perform env t = (exchange p', new)) (ht : ∀ q, t ≠ .call (.raise q)) :
    Crew.Leaves env moves 0 (state p peer (t :: rest) done) []
      (state p' peer (new ++ rest) (done ++ [t])) :=
  .of_perform h (stack_script ..) rfl rfl ht

theorem peer_asks (a : Ask) :
    Crew.Leaves env moves 0 (state p [] script done) []
      (state p [.call (.ask 0 a)] script done) := by
  have hstep : Crew.Leaves env moves 0 (state p [] script done) [] _ :=
    .start (k := true) rfl ⟨rfl, rfl, a, rfl⟩
  rwa [Crew.turn, ← stack_peer p p [] _ script done done] at hstep

theorem script_emits {s : Signal Payload} {emitter : Emitter}
    (hs : p.emitter.emit s = .sent emitter) (hr : p.remote = some ⟨0, 1⟩) :
    Crew.Leaves env moves 0 (state p peer [] done) [.sent s]
      (state { p with emitter := emitter } peer [.tell (.heard ⟨0, 1⟩ s)] done) := by
  have hstep : Crew.Leaves env moves 0 (state p peer [] done)
      (if 0 = 0 then [.sent s] else []) _ :=
    .emit (k := false) rfl ⟨rfl, rfl⟩ rfl hs
  rwa [if_pos rfl, Exchange.send, hr, Crew.turn,
    ← stack_script p { p with emitter := emitter } peer [] _ done done] at hstep

end Steps

theorem justSubscribed (p0 : Payload) : JustSubscribed 0 ⟨0, 1⟩ p0 (subscribed p0) := by
  have hstart : (state { initial := .pending p0 } [.call (.attach 0 ⟨0, 1⟩)] [] []).work silent
      true (.call (.attach 0 ⟨0, 1⟩)) [] = subscribed p0 :=
    Crew.work_eq rfl (stack_peer ..) rfl
  rw [← hstart]
  refine .of_attach rfl rfl (fun k t ht => ?_) fun t ht => by cases ht
  cases k with
  | false => cases ht
  | true =>
    rw [List.mem_singleton.mp ht]
    simp

/-- The producer once the peer has its subscription. -/
def producer (initial : InitialPayload) (emitter : Emitter) : ScriptedProducer where
  initial := initial
  emitter := emitter
  remote := some ⟨0, 1⟩
  gate := { slot := some ⟨0, 1⟩ }

/-- What has been done once the peer has its subscription. -/
def opened : List (Task Unit) :=
  [.call (.attach 0 ⟨0, 1⟩), .tell (.attached ⟨0, 1⟩ 0), .openGate 0 ⟨0, 1⟩]

theorem reach_opened (p0 : Payload) :
    Crew.Reach silent moves (subscribed p0) (state (producer (.pending p0) {}) [] [] opened) := by
  have htell : Crew.Leaves silent moves 0 (subscribed p0) [] _ :=
    peer_works (.tell (.attached ⟨0, 1⟩ 0)) [] rfl (by simp)
  exact (Relation.ReflTransGen.single htell.step).tail
    (Crew.Leaves.step (peer_works (.openGate 0 ⟨0, 1⟩) [] rfl (by simp)))

/-- The peer asks for one item, and the initial payload is delivered. -/
theorem reach_request (p0 : Payload) (emitter : Emitter) (done : List (Task Unit)) :
    Crew.Reach silent moves (state (producer (.pending p0) emitter) [] [] done)
      (state (producer (.emitting 0) emitter) [.settle 0 1] []
        (done ++ [.call (.ask 0 (.request 1))] ++ [.tell (.heard ⟨0, 1⟩ (.next p0))])) := by
  have hask : Crew.Leaves silent moves 0
      (state (producer (.pending p0) emitter) [.call (.ask 0 (.request 1))] [] done) []
      (state (producer (.emitting 0) emitter)
        [.tell (.heard ⟨0, 1⟩ (.next p0)), .settle 0 1] []
        (done ++ [.call (.ask 0 (.request 1))])) :=
    peer_works (.call (.ask 0 (.request 1)))
      [.tell (.heard ⟨0, 1⟩ (.next p0)), .settle 0 1] rfl (by simp)
  exact ((Relation.ReflTransGen.single (Crew.Leaves.step (peer_asks _))).tail hask.step).tail
    (Crew.Leaves.step (peer_works (.tell (.heard ⟨0, 1⟩ (.next p0))) [] rfl (by simp)))

/-- The script completes. -/
theorem reach_complete (initial : InitialPayload) (peer done : List (Task Unit)) :
    Crew.Reach silent moves (state (producer initial {}) peer [] done)
      (state (producer initial { finished := true }) peer []
        (done ++ [.tell (.heard ⟨0, 1⟩ .complete)])) := by
  have hemit : Crew.Leaves silent moves 0 (state (producer initial {}) peer [] done)
      [.sent .complete]
      (state (producer initial { finished := true }) peer [.tell (.heard ⟨0, 1⟩ .complete)] done) :=
    script_emits rfl rfl
  exact (Relation.ReflTransGen.single hemit.step).tail
    (Crew.Leaves.step (script_works (.tell (.heard ⟨0, 1⟩ .complete)) [] rfl (by simp)))

end Handshake

/-- A peer that asks before the script completes hears the initial payload first. -/
theorem initialFirst_of_request_complete :
    ∃ d, Crew.Reach Handshake.silent Handshake.moves (Handshake.subscribed ⟨"a", "b"⟩) d ∧
      d.signals ⟨0, 1⟩ = [.next ⟨"a", "b"⟩, .complete] ∧
      InitialFirst ⟨"a", "b"⟩ (d.signals ⟨0, 1⟩) := by
  have hrun := ((Handshake.reach_opened ⟨"a", "b"⟩).trans (Handshake.reach_request _ _ _)).trans
    (Handshake.reach_complete _ _ _)
  have hemits : ∀ k s, Handshake.moves.emits k 0 s → k = false := fun _ _ hk => hk.1
  have horder := signals_endsOnce_and_initialFirst_iff hemits (Handshake.justSubscribed _) hrun
    (Exchange.soleReceiver_of_size rfl ⟨0, 1⟩)
  have hpat : Patient 0 (Handshake.opened ++ [.call (.ask 0 (.request 1))] ++
      [.tell (.heard ⟨0, 1⟩ (.next ⟨"a", "b"⟩))] ++ [.tell (.heard ⟨0, 1⟩ .complete)]) :=
    .of_not_mem (by simp [Handshake.opened])
  refine ⟨_, hrun, rfl, (horder.2 hpat).mpr ?_⟩
  intro s hs
  obtain rfl := Option.some.inj hs
  rfl

/-- **A completion may be heard ahead of the initial payload**, as it needs no demand: the peer
of a channel is not sure to hear the initial payload first, even if it is patient. -/
theorem not_initialFirst_of_complete_request :
    ¬ ∀ d, Crew.Reach Handshake.silent Handshake.moves (Handshake.subscribed ⟨"a", "b"⟩) d →
      Patient 0 d.done → InitialFirst ⟨"a", "b"⟩ (d.signals ⟨0, 1⟩) := by
  intro h
  have hrun := ((Handshake.reach_opened ⟨"a", "b"⟩).trans (Handshake.reach_complete _ _ _)).trans
    (Handshake.reach_request _ _ _)
  have hpat : Patient 0 (Handshake.opened ++ [.tell (.heard ⟨0, 1⟩ .complete)] ++
      [.call (.ask 0 (.request 1))] ++ [.tell (.heard ⟨0, 1⟩ (.next ⟨"a", "b"⟩))]) :=
    .of_not_mem (by simp [Handshake.opened])
  have hfirst : InitialFirst ⟨"a", "b"⟩ [.complete, .next ⟨"a", "b"⟩] := h _ hrun hpat
  rcases hfirst with hnil | ⟨l, hl, -⟩
  · cases hnil
  · cases hl

end StreamConformance
