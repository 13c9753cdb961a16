import Mathlib.Data.List.Chain
import StreamConformance.Proofs.Channel.EmitterAccount
import StreamConformance.Proofs.Trial.Order

/-!
# Marbles

The block of a channel plays one marble after another.  What a trial has still to play is read off
its jobs: marbles that were begun, and the instructions of blocks.

* `Trial.marbles`: what is left to be played.
* `Job.Apart`: between a signal that a receiver is told and the next marble there is always something
  else, unless the signal is one of the marble.
* `Exchange.goes_perform`, `Exchange.getLast?_perform`: what a task makes of the emitter of a script,
  and that it does not end with a signal that somebody is told.
* `Trial.goesOn_of_perform`: what a job comes to for the script of a channel: a signal is sent, or a
  marble is dropped, or what is left of the script stays what it is.
-/

namespace StreamConformance

open Script (Command Instruction)

variable {σ τ : Type} {env : Environment σ τ} {i : Nat} {r : Handle}

/-! ## Scripts -/

/-- The signals that an instruction has played. -/
def Script.Instruction.marble? : Instruction → Option (List (Signal Payload))
  | .respond signals => some signals
  | _ => none

/-- The marbles that a job plays on the channel `i`, one after another. -/
def Job.marbles (i : Nat) : Job τ → List (List (Signal Payload))
  | .play i' signals => if i' = i then [signals] else []
  | .block i' _ instructions =>
    if i' = i then instructions.filterMap Instruction.marble? else []
  | .handshake i' instructions =>
    if i' = i then instructions.filterMap Instruction.marble? else []
  | _ => []

/-- What a job asks of the emitter of the channel `i`. -/
def Job.asks? (i : Nat) : Job τ → Option Ask
  | .task (.passOn i' a) => if i' = i then some a else none
  | _ => none

/-- No receiver is told a signal right before a marble of the channel `i` is played. -/
def Job.Apart (i : Nat) : Job τ → Job τ → Prop
  | .task (.tell (.heard _ _)), .play i' _ => i' ≠ i
  | _, _ => True

/-- A job that has nothing to do with the script of the channel `i`. -/
structure Job.IsAside (i : Nat) (j : Job τ) : Prop where
  marbles : j.marbles i = []
  silent : ∀ r s, j ≠ .task (.tell (.heard r s))

/-- The marbles that a trial has still to play on the channel `i`. -/
def Trial.marbles (i : Nat) (t : Trial σ τ) : List (List (Signal Payload)) :=
  t.jobs.flatMap (Job.marbles i)

/-- Any marbles can be those that a trial has to play. -/
theorem Trial.marbles_of_jobs {t : Trial σ τ} {marbles : List (List (Signal Payload))}
    (h : t.jobs = marbles.map (.play i)) : t.marbles i = marbles := by
  rw [Trial.marbles, h, List.flatMap_map]
  simp [Job.marbles]

/-! ## Jobs that tell nobody anything -/

namespace Job

theorem apart_of_silent {j : Job τ} (h : ∀ r s, j ≠ .task (.tell (.heard r s))) (j' : Job τ) :
    j.Apart i j' := by
  unfold Apart
  split
  · exact absurd rfl (h _ _)
  · trivial

theorem apart_of_not_play {j' : Job τ} (h : ∀ signals, j' ≠ .play i signals) (j : Job τ) :
    j.Apart i j' := by
  unfold Apart
  split
  · rintro rfl
    exact h _ rfl
  · trivial

/-- A job that tells nobody anything may come before any others. -/
theorem isChain_cons_of_silent {j : Job τ} {rest : List (Job τ)}
    (hj : ∀ r s, j ≠ .task (.tell (.heard r s))) (hrest : rest.IsChain (Apart i)) :
    (j :: rest).IsChain (Apart i) :=
  List.isChain_cons.mpr ⟨fun j' _ => apart_of_silent hj j', hrest⟩

theorem isChain_append_of_silent {new rest : List (Job τ)}
    (hnew : ∀ j ∈ new, ∀ r s, j ≠ .task (.tell (.heard r s))) (hrest : rest.IsChain (Apart i)) :
    (new ++ rest).IsChain (Apart i) := by
  induction new with
  | nil => exact hrest
  | cons j new ih =>
    obtain ⟨hj, hnew⟩ := List.forall_mem_cons.mp hnew
    exact isChain_cons_of_silent hj (ih hnew)

/-- So may tasks of which only the last must not tell anybody anything. -/
theorem isChain_append_of_tasks {ts : List (Task τ)} {rest : List (Job τ)}
    (hlast : ∀ t ∈ ts.getLast?, ∀ r s, t ≠ .tell (.heard r s)) (hrest : rest.IsChain (Apart i)) :
    (ts.map Job.task ++ rest).IsChain (Apart i) := by
  induction ts with
  | nil => exact hrest
  | cons t ts ih =>
    cases ts with
    | nil =>
      refine List.isChain_cons.mpr ⟨fun j' _ => apart_of_silent (fun r s ht => ?_) j', hrest⟩
      cases ht
      exact hlast _ rfl r s rfl
    | cons t' ts =>
      refine List.isChain_cons.mpr ⟨fun j' hj' => ?_, ih hlast⟩
      obtain rfl : Job.task t' = j' := Option.some.inj hj'
      exact apart_of_not_play (by simp) _

end Job

namespace Exchange

theorem getLast?_askScripted (a : Ask) (p : ScriptedProducer) :
    ∀ t ∈ (askScripted (τ := τ) i a p).2.getLast?, ∀ r s, t ≠ .tell (.heard r s) := by
  cases a with
  | cancel =>
    rintro t ht r s rfl
    cases Option.some.inj ht
  | request n =>
    rw [askScripted_request]
    split
    · simp
    · simp
    · simp

theorem getLast?_drainNext (p : EchoProducer) :
    ∀ t ∈ (drainNext (τ := τ) i p).2.getLast?, ∀ r s, t ≠ .tell (.heard r s) := by
  unfold drainNext
  split
  · simp
  · split <;> simp

/-- A signal is not the last that a task leaves to be done. -/
theorem getLast?_perform (env : Environment σ τ) (t : Task τ) (e : Exchange σ) :
    ∀ t' ∈ (e.perform env t).2.getLast?, ∀ r s, t' ≠ .tell (.heard r s) := by
  rintro t' ht' r s rfl
  have hsection {i : Nat} {f : Interaction → Interaction × List (Task τ)}
      (hf : ∀ x, ∀ t ∈ (f x).2.getLast?, ∀ r s, t ≠ .tell (.heard r s)) :
      .tell (.heard r s) ∉ (e.atInteraction i f).2.getLast? := by
    intro hlast
    unfold atInteraction at hlast
    split at hlast
    · cases hlast
    · exact hf _ _ hlast r s rfl
  obtain ⟨i, -, ⟨a, rfl⟩ | ⟨rfl, -⟩⟩ := exists_of_heard (List.mem_of_getLast? ht')
  · refine hsection (fun x => ?_) ht'
    rcases x with ⟨c, _ | p | p | p⟩
    · simp [askProducer]
    · exact getLast?_askScripted a p
    · cases a <;> simp [askProducer, askEcho]
    · simp [askProducer]
  · refine hsection (fun x => ?_) ht'
    rcases x with ⟨c, _ | p | p | p⟩
    · simp
    · simp
    · exact getLast?_drainNext p
    · simp

/-- What a task makes of the emitter of a script that has a peer. -/
theorem goes_perform (env : Environment σ τ) (t : Task τ) {e : Exchange σ} {p : ScriptedProducer}
    (h : e.scripted? i = some p) (hr : p.remote = some r) :
    ∃ p', (e.perform env t).1.scripted? i = some p' ∧ p'.remote = some r ∧
      Emitter.Goes [] ((Job.task t).asks? i).toList p.emitter p'.emitter := by
  by_cases ht : t.producer? = some i
  · cases t with
    | call c =>
      cases c with
      | attach j r' =>
        obtain rfl := Option.some.inj ht
        exact ⟨p, (perform_attach env h hr r').1, hr, .rest⟩
      | ask j a =>
        obtain rfl := Option.some.inj ht
        refine ⟨_, (perform_ask env h a).1, ?_⟩
        cases a with
        | cancel => exact ⟨hr, .rest⟩
        | request n =>
          rw [askScripted_request]
          exact ⟨hr, .rest⟩
      | subscribed | signal | resume | raise => cases ht
    | settle j n =>
      obtain rfl := Option.some.inj ht
      exact ⟨_, (perform_settle env h n).1, hr, .rest⟩
    | passOn j a =>
      obtain rfl := Option.some.inj ht
      refine ⟨_, (perform_passOn env h a).1, hr, ?_⟩
      rw [Job.asks?, if_pos rfl]
      exact .ask a
    | openGate j r' =>
      obtain rfl := Option.some.inj ht
      exact ⟨_, (perform_openGate env h r').1, hr, .rest⟩
    | push j item =>
      obtain rfl := Option.some.inj ht
      exact ⟨p, (atEcho_of_scripted? (τ := τ) h _).1, hr, .rest⟩
    | drain j =>
      obtain rfl := Option.some.inj ht
      exact ⟨p, (atEcho_of_scripted? (τ := τ) h _).1, hr, .rest⟩
    | drainNext j =>
      obtain rfl := Option.some.inj ht
      exact ⟨p, (atEcho_of_scripted? (τ := τ) h _).1, hr, .rest⟩
    | tell event => cases ht
    | own j a => cases ht
  · have hasks : (Job.task t).asks? i = none := by
      unfold Job.asks?
      split
      · rename_i j a heq
        cases heq
        exact if_neg fun hj => ht (by rw [Task.producer?, hj])
      · rfl
    rw [hasks]
    exact ⟨p, (scripted?_congr (producer?_perform env ht e)).trans h, hr, .rest⟩

/-- What is opened is not in the place of a script that was there. -/
theorem scripted?_enter {x : Interaction} {e : Exchange σ} {p : ScriptedProducer}
    (h : e.scripted? i = some p) : (e.enter x).scripted? i = some p := by
  refine (scripted?_congr ?_).trans h
  have hlt := lt_size_of_standing? (standing?_eq_some_of_scripted? h)
  rw [producer?, enter, Array.getElem?_push, if_neg (Nat.ne_of_lt hlt), producer?]

end Exchange

/-! ## What a job comes to -/

namespace Trial

variable {p p' : ScriptedProducer} {j : Job τ} {new : List (Job τ)} {t t' : Trial σ τ}

/-- What a job comes to for the script of the channel `i`, of which `p` is the producer and `r` the
peer: the jobs `new` are left in its place, and the producer is `p'` afterwards. -/
inductive Plays (i : Nat) (r : Handle) (p : ScriptedProducer) :
    Job τ → List (Job τ) → ScriptedProducer → Prop where
  /-- A signal is sent, which is what the thread tells the peer next. -/
  | send {s : Signal Payload} {signals : List (Signal Payload)} {emitter : Emitter}
      (h : p.emitter.emit s = .sent emitter) :
      Plays i r p (.play i (s :: signals)) [.task (.tell (.heard r s)), .play i signals]
        { p with emitter := emitter }
  /-- A signal is refused, and the marble is dropped. -/
  | refuse {s : Signal Payload} {signals : List (Signal Payload)}
      (h : p.emitter.isClosed = true) : Plays i r p (.play i (s :: signals)) [] p
  /-- Nothing is decided on, and nothing of the script is lost. -/
  | other {j : Job τ} {new : List (Job τ)} {p' : ScriptedProducer}
      (hj : ∀ s signals, j ≠ .play i (s :: signals)) (hremote : p'.remote = some r)
      (hgoes : Emitter.Goes [] (j.asks? i).toList p.emitter p'.emitter)
      (hscript : (new.flatMap (Job.marbles i)).flatten = (j.marbles i).flatten)
      (happart : ∀ rest : List (Job τ), rest.IsChain (Job.Apart i) →
        (new ++ rest).IsChain (Job.Apart i)) : Plays i r p j new p'

/-- A job that leaves the producer as it is, and nothing that belongs to the script. -/
theorem plays_of_aside (hr : p.remote = some r) (hj : ∀ s signals, j ≠ .play i (s :: signals))
    (hasks : j.asks? i = none) (hscript : (j.marbles i).flatten = [])
    (hnew : ∀ j' ∈ new, j'.IsAside i) : Plays i r p j new p := by
  refine .other hj hr ?_ ?_ ?_
  · rw [hasks]
    exact .rest
  · rw [hscript, List.flatMap_eq_nil_iff.mpr fun j' hj' => (hnew j' hj').marbles]
    rfl
  · exact fun rest => Job.isChain_append_of_silent fun j' hj' => (hnew j' hj').silent

/-- What an instruction means for a consumer is nothing to a script. -/
theorem isAside_of_mem_consumerJobs {k : Nat} {c : Instruction} {j : Job τ}
    (hj : j ∈ t.consumerJobs k c) : j.IsAside i := by
  obtain ⟨a, rfl⟩ | ⟨w, rfl⟩ | ⟨k, rfl⟩ | ⟨n, ms, rfl⟩ := of_mem_consumerJobs hj <;>
    exact ⟨rfl, by simp⟩

/-- What a turn comes to: the producer is `p'` afterwards. -/
def GoesOn (i : Nat) (r : Handle) (p : ScriptedProducer) (j : Job τ) (t t' : Trial σ τ) : Prop :=
  ∃ new p', t'.jobs = new ++ t.jobs ∧ t'.scripted? i = some p' ∧ Plays i r p j new p'

variable (hp : t.scripted? i = some p) (hr : p.remote = some r)
include hp hr

/-- What is opened has a script of its own. -/
theorem goesOn_of_connect {c : Command} {x : Interaction} {jobs : Nat → Nat → List (Job τ)}
    (h : t.connect env x jobs = .next t')
    (hjobs : ∀ k i', i' ≠ i → ∀ j ∈ jobs k i', j.IsAside i) : GoesOn i r p (.command c) t t' := by
  obtain ⟨far, k, rfl⟩ := exists_of_connect h
  have hlt : i < t.exchange.interactions.size :=
    Exchange.lt_size_of_standing? (Exchange.standing?_eq_some_of_scripted? hp)
  have hp' : ({ t.exchange with far := far } : Exchange σ).scripted? i = some p := hp
  exact ⟨_, p, rfl, Exchange.scripted?_enter hp',
    plays_of_aside hr (by simp) rfl rfl (hjobs k _ (Nat.ne_of_gt hlt))⟩

/-- An instruction for the consumer that an id stands for. -/
theorem goesOn_of_named {command : Command} {c : Instruction}
    (h : (match (namedConsumer? c).bind t.lookup? with
      | some k => Turn.next (t.push (t.consumerJobs k c))
      | none => .next t) = .next t') : GoesOn i r p (.command command) t t' := by
  split at h
  · cases h
    exact ⟨_, p, rfl, hp, plays_of_aside hr (by simp) rfl rfl fun _ => isAside_of_mem_consumerJobs⟩
  · cases h
    exact ⟨[], p, rfl, hp, plays_of_aside hr (by simp) rfl rfl (by simp)⟩

theorem goesOn_of_begin {c : Command} (h : t.begin env c = .next t') :
    GoesOn i r p (.command c) t t' := by
  cases c with
  | channel initial block =>
    rw [begin] at h
    refine goesOn_of_connect hp hr h fun k i' hi j hj => ?_
    simp only [List.mem_cons, List.not_mem_nil, or_false] at hj
    rcases hj with rfl | rfl
    · exact ⟨rfl, by simp⟩
    · exact ⟨if_neg hi, by simp⟩
  | single c =>
    cases c with
    | subscribe | echoChannel | eof =>
      rw [begin, instruct] at h
      refine goesOn_of_connect hp hr h fun k i' hi j hj => ?_
      simp only [List.mem_cons, List.not_mem_nil, or_false] at hj
      rcases hj with rfl | rfl <;> exact ⟨rfl, by simp⟩
    | pass | fail =>
      cases h
      exact ⟨[], p, rfl, hp, plays_of_aside hr (by simp) rfl rfl (by simp)⟩
    | malformed line reason => cases h
    | await id w => exact goesOn_of_named hp hr (c := .await id w) h
    | assert id k => exact goesOn_of_named hp hr (c := .assert id k) h
    | take n id => exact goesOn_of_named hp hr (c := .take n id) h
    | request n id => exact goesOn_of_named hp hr (c := .request n id) h
    | cancel id => exact goesOn_of_named hp hr (c := .cancel id) h
    | respond signals => exact goesOn_of_named hp hr (c := .respond signals) h
    | unknown line => exact goesOn_of_named hp hr (c := .unknown line) h

/-- A marble is what an instruction of a block leaves of it to be played. -/
theorem goesOn_of_block {k : Nat} {flag : Bool} {c : Instruction} {block : List Instruction} :
    GoesOn i r p (.block k flag (c :: block)) t (t.instructBlock k flag c block) := by
  have hrest {l : List (Job τ)} {flag' : Bool} (hfront : ∀ j ∈ l, j.IsAside i)
      (hc : c.marble? = none) : Plays i r p (.block k flag (c :: block))
        (l ++ [.block k flag' block]) p := by
    refine .other (by simp) hr .rest ?_ fun rest => Job.isChain_append_of_silent fun j hj => ?_
    · rw [List.flatMap_append, List.flatMap_eq_nil_iff.mpr fun j hj => (hfront j hj).marbles]
      simp [Job.marbles, hc]
    · rcases List.mem_append.mp hj with hj | hj
      · exact (hfront j hj).silent
      · rw [List.mem_singleton.mp hj]
        simp
  cases c with
  | pass => exact ⟨_, p, rfl, hp, hrest (l := []) (by simp) rfl⟩
  | fail => exact ⟨_, p, rfl, hp, hrest (l := []) (by simp) rfl⟩
  | malformed line reason =>
    refine ⟨_, p, rfl, hp, hrest (l := [.reject k]) (fun j hj => ?_) rfl⟩
    rw [List.mem_singleton.mp hj]
    exact ⟨rfl, by simp⟩
  | respond signals =>
    refine ⟨_, p, rfl, hp, .other (by simp) hr .rest ?_
      fun rest => Job.isChain_append_of_silent (by simp)⟩
    by_cases hk : k = i <;> simp [Job.marbles, Instruction.marble?, hk]
  | subscribe | echoChannel | await | assert | take | request | cancel | eof | unknown =>
    exact ⟨_, p, rfl, hp, hrest (fun _ => isAside_of_mem_consumerJobs) rfl⟩

/-- The script of a channel emits a signal. -/
theorem goesOn_of_emitFirst {k : Nat} {s : Signal Payload} {signals : List (Signal Payload)}
    (h : t.emitFirst k s signals = .next t') : GoesOn i r p (.play k (s :: signals)) t t' := by
  have hother (hk : k ≠ i) : ∀ s' signals', Job.play (τ := τ) k (s :: signals) ≠
      .play i (s' :: signals') := by
    simp [hk]
  unfold emitFirst at h
  by_cases hk : k = i
  · subst hk
    rw [hp] at h
    dsimp only at h
    cases hemit : p.emitter.emit s with
    | waits =>
      rw [hemit] at h
      cases h
    | refused =>
      rw [hemit] at h
      cases h
      exact ⟨[], p, rfl, hp, .refuse (Emitter.isClosed_of_refused hemit)⟩
    | sent emitter =>
      rw [hemit] at h
      cases h
      have hsend := Exchange.send_of_scripted? (τ := τ) hp emitter s
      refine ⟨_, _, ?_, hsend.1, .send hemit⟩
      show (p.remote.map fun r => Task.tell (.heard r s)).toList.map Job.task ++ _ ++ t.jobs = _
      rw [hr]
      rfl
  · split at h
    · cases h
      exact ⟨[], p, rfl, hp, plays_of_aside hr (hother hk) rfl (by simp [Job.marbles, hk]) (by simp)⟩
    · rename_i q hq
      split at h
      · cases h
      · cases h
        exact ⟨[], p, rfl, hp,
          plays_of_aside hr (hother hk) rfl (by simp [Job.marbles, hk]) (by simp)⟩
      · rename_i emitter hs
        cases h
        have hp' : (t.exchange.send (τ := τ) k q emitter s).1.scripted? i = some p :=
          (Exchange.scripted?_congr (Exchange.producer?_send_of_ne hk q emitter s _)).trans hp
        refine ⟨_, p, rfl, hp', .other (hother hk) hr .rest ?_ fun rest hrest => ?_⟩
        · cases q.remote <;> simp [Job.marbles, hk]
        · have hplay : (.play k signals :: rest).IsChain (Job.Apart (τ := τ) i) :=
            Job.isChain_cons_of_silent (by simp) hrest
          cases q.remote with
          | none => exact hplay
          | some r' => exact List.isChain_cons_cons.mpr ⟨hk, hplay⟩

/-- **What a job comes to for the script.** -/
theorem goesOn_of_perform (h : t.perform env j = .next t') : GoesOn i r p j t t' := by
  have haside {j : Job τ} {t' : Trial σ τ} (hplay : ∀ s signals, j ≠ .play i (s :: signals))
      (hasks : j.asks? i = none) (hmarbles : (j.marbles i).flatten = []) (hjobs : t'.jobs = t.jobs)
      (hproducer : t'.exchange.producer? i = t.exchange.producer? i) : GoesOn i r p j t t' :=
    ⟨[], p, hjobs, (Exchange.scripted?_congr hproducer).trans hp,
      plays_of_aside hr hplay hasks hmarbles (by simp)⟩
  cases j with
  | task task =>
    obtain ⟨-, rfl⟩ := next_of_task h
    obtain ⟨p', hp', hr', hgoes⟩ := Exchange.goes_perform env task hp hr
    refine ⟨_, p', rfl, hp', .other (by simp) hr' hgoes ?_ fun rest hrest => ?_⟩
    · rw [List.flatMap_eq_nil_iff.mpr fun j hj => ?_]
      · rfl
      · obtain ⟨t', -, rfl⟩ := List.mem_map.mp hj
        rfl
    · exact Job.isChain_append_of_tasks (Exchange.getLast?_perform env task t.exchange) hrest
  | command c => exact goesOn_of_begin hp hr h
  | register id k =>
    cases h
    exact haside (by simp) rfl rfl rfl rfl
  | echoOpened =>
    cases h
    exact haside (by simp) rfl rfl rfl rfl
  | handshake k block =>
    obtain ⟨-, rfl⟩ := next_of_handshake h
    refine ⟨_, p, rfl, hp, .other (by simp) hr .rest ?_
      fun rest => Job.isChain_append_of_silent (by simp)⟩
    simp [Job.marbles]
  | block k flag block =>
    cases block with
    | nil =>
      cases h
      exact haside (by simp) rfl (by simp [Job.marbles]) rfl rfl
    | cons c block =>
      cases h
      exact goesOn_of_block hp hr
  | check k check =>
    cases h
    exact haside (by simp) rfl rfl (by unfold atReceiver; split <;> rfl)
      (producer?_atReceiver k i _)
  | reject k =>
    cases h
    exact haside (by simp) rfl rfl (by unfold atReceiver; split <;> rfl)
      (producer?_atReceiver k i _)
  | wait k w =>
    obtain rfl := eq_of_wait h
    exact haside (by simp) rfl rfl rfl rfl
  | window k baseline ms => cases h
  | play k signals =>
    cases signals with
    | nil =>
      cases h
      refine haside (by simp) rfl ?_ rfl rfl
      by_cases hk : k = i <;> simp [Job.marbles, hk]
    | cons s signals => exact goesOn_of_emitFirst hp hr h

end Trial

end StreamConformance
