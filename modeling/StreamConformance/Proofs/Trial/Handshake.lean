import StreamConformance.Proofs.Channel.Waiters
import StreamConformance.Proofs.Trial.Company

/-!
# The handshake of a channel

The peer of a channel subscribes to its producer at some time and on some thread.  It is then
given a subscription by a call that may go on for as long as the peer likes, and that may lead to
demand, to items and to calls of other threads.  Only when that call has returned is the gate
fired for which the script of the channel waits.

## How far a handshake is

`Stage` says how far a producer is with its peer.  At every stage it says where in the stacks the
two tasks of a greeting are: that the peer is told, and behind it that the gate is to be fired.
There is at most one thread that has them, and below them nothing is forgotten, since only what
stands above them can panic.  Between the two tasks everything that this thread does stands above
the second one, which is what `Shaken` says of the log.

No step leaves the stages (`Step.stage`): it is enough to look at the jobs of the one thread with
the greeting and at those of all the others, which keep everything (`Trial.Does.keeps`).

## What follows

`IsCourteous` collects what holds of a company: what a receiver is told comes after its greeting,
and a job that belongs to the block of a script comes after the handshake.
-/

namespace StreamConformance

open Function (update)
open Script (Command)
open Trial (Does Free free_append free_calls)

variable {ι σ τ : Type}

/-- What a receiver of the far side is told. -/
inductive Word where
  | subscription (i : Nat)
  | signal (s : Signal Payload)
  deriving DecidableEq

/-- What the receiver `r` is told by a job. -/
def Job.word? (r : Handle) : Job τ → Option Word
  | .task (.tell (.attached r' i)) => if r' = r then some (.subscription i) else none
  | .task (.tell (.heard r' s)) => if r' = r then some (.signal s) else none
  | _ => none

/-- The interaction for which a job acts that may belong to a block. -/
def Job.ofBlock? : Job τ → Option Nat
  | .block i _ _ => some i
  | .play i _ => some i
  | .check i _ => some i
  | .reject i => some i
  | .wait i _ => some i
  | .window i _ _ => some i
  | .task (.own i _) => some i
  | _ => none

/-- A job that may belong to a block of a script is there only after the gate was fired. -/
theorem Job.IsReady.of_block {e : Exchange σ} {j : Job τ} {i : Nat} (h : j.IsReady e)
    (hj : j.ofBlock? = some i) :
    ∃ s, e.standing? i = some s ∧ (s.kind = .scripted → ∃ r, s.gate = some r) := by
  cases j with
  | block i' | play i' =>
    cases hj
    obtain ⟨s, r, hs, -, hr⟩ := h
    exact ⟨s, hs, fun _ => ⟨r, hr⟩⟩
  | check i' | reject i' | wait i' | window i' =>
    cases hj
    exact h
  | task t =>
    cases t with
    | own i' a =>
      cases hj
      exact h
    | call | tell | settle | passOn | openGate | push | drain | drainNext => cases hj
  | command | register | echoOpened | handshake => cases hj

namespace Company

/-- What the receiver `r` was told, in order. -/
def words (r : Handle) (c : Company ι σ τ) : List Word :=
  c.log.filterMap fun e => e.job.word? r

/-- The producer of `i` has given its subscription to `r`, and that call has returned; then the
gate was fired with `r`.  What the thread did meanwhile belongs to the call: it had more jobs
behind it. -/
def Shaken (i : Nat) (r : Handle) (log : List (Entry ι τ)) : Prop :=
  ∃ w n before during after,
    log = before ++ ⟨w, n + 1, .task (.tell (.attached r i))⟩ :: during ++
        ⟨w, n, .task (.openGate i r)⟩ :: after ∧
      ∀ e ∈ during, e.thread = w → n < e.behind

/-- What is to be done once the producer of `i` has given its subscription to `r`. -/
def gateJobs (i : Nat) (r : Handle) (kind : Producer.Kind) : List (Job τ) :=
  if kind = .scripted then [.task (.openGate i r)] else []

/-- How far the producer of `i` is with its peer: what is told of its standing, of what the threads
have to do, and of the log. -/
inductive Stage (i : Nat) (standing : Option Standing) (jobs : Option ι → List (Job τ))
    (log : List (Entry ι τ)) : Prop where
  /-- No peer has subscribed. -/
  | idle (hfresh : ∀ s, standing = some s → s.IsFresh)
      (hfree : ∀ w, Free i (jobs w)) (hlog : ∀ r, ¬Greeted i r log)
  /-- The thread `w` is about to give the subscription to the peer. -/
  | greeting {s : Standing} {r : Handle} (w : Option ι) (front rest : List (Job τ))
      (hs : standing = some s) (hremote : s.remote = some r) (hgate : s.gate = none)
      (hdemand : s.demand = 0)
      (hw : jobs w = front ++ .task (.tell (.attached r i)) :: (gateJobs i r s.kind ++ rest))
      (hfront : ∀ j ∈ front, ∃ t : Task τ, j = .task t ∧ t.IsLull i) (hrest : Free i rest)
      (hfree : ∀ w' ≠ w, Free i (jobs w')) (hlog : ∀ r, ¬Greeted i r log)
  /-- The peer is being given the subscription of a script by the thread `w`, which is then to fire
  the gate. -/
  | opening {s : Standing} {r : Handle} (w : Option ι) (inner rest : List (Job τ))
      (before during : List (Entry ι τ))
      (hs : standing = some s) (hkind : s.kind = .scripted)
      (hremote : s.remote = some r) (hgate : s.gate = none)
      (hw : jobs w = inner ++ .task (.openGate i r) :: rest) (hinner : Free i inner)
      (hrest : Free i rest) (hfree : ∀ w' ≠ w, Free i (jobs w'))
      (hlog : log =
        before ++ ⟨w, rest.length + 1, .task (.tell (.attached r i))⟩ :: during)
      (hduring : ∀ e ∈ during, e.thread = w → rest.length < e.behind)
  /-- The peer was given the subscription, and no gate is to be fired. -/
  | left {s : Standing} {r : Handle} (hs : standing = some s)
      (hremote : s.remote = some r) (hgate : s.gate = none) (hfree : ∀ w, Free i (jobs w))
      (hlog : Greeted i r log)
  /-- The gate was fired. -/
  | fired {s : Standing} {r : Handle} (hs : standing = some s)
      (hremote : s.remote = some r) (hgate : s.gate = some r) (hfree : ∀ w, Free i (jobs w))
      (hlog : Shaken i r log)

/-- How far the producer of `i` is with its peer in a company. -/
abbrev StageAt (c : Company ι σ τ) (i : Nat) : Prop :=
  Stage i (c.exchange.standing? i) c.jobs c.log

variable {env : Environment σ τ} {i : Nat} {r : Handle} {c d : Company ι σ τ}

/-! ## Logs -/

theorem greeted_append {log more : List (Entry ι τ)} (h : Greeted i r log) :
    Greeted i r (log ++ more) := by
  obtain ⟨e, he, hj⟩ := h
  exact ⟨e, List.mem_append_left _ he, hj⟩

theorem not_greeted_concat {log : List (Entry ι τ)} {e : Entry ι τ} (h : ∀ r, ¬Greeted i r log)
    (he : e.job.greets? ≠ some i) (r : Handle) : ¬Greeted i r (log ++ [e]) := by
  rintro ⟨e', he', hj⟩
  rcases List.mem_append.mp he' with he' | he'
  · exact h r ⟨e', he', hj⟩
  · rw [List.mem_singleton.mp he'] at hj
    rw [hj] at he
    exact he rfl

theorem Shaken.append {log : List (Entry ι τ)} (h : Shaken i r log) (more : List (Entry ι τ)) :
    Shaken i r (log ++ more) := by
  obtain ⟨w, n, before, during, after, rfl, hduring⟩ := h
  refine ⟨w, n, before, during, after ++ more, ?_, hduring⟩
  simp only [List.append_assoc, List.cons_append]

/-- Whoever fires a gate has greeted the receiver before. -/
theorem Shaken.greeted {log : List (Entry ι τ)} (h : Shaken i r log) : Greeted i r log := by
  obtain ⟨w, n, before, during, after, rfl, -⟩ := h
  exact ⟨⟨w, n + 1, _⟩, by simp, rfl⟩

/-! ## Jobs that greet nobody -/

section Update

variable [DecidableEq ι] {jobs : Option ι → List (Job τ)} {w : Option ι} {l : List (Job τ)}

/-- All threads are free once the one that was not has gone on. -/
theorem free_of_update (h : ∀ w' ≠ w, Free i (jobs w')) (hl : Free i l) (w' : Option ι) :
    Free i (update jobs w l w') := by
  by_cases hw : w' = w
  · rw [hw, Function.update_self]
    exact hl
  · rw [Function.update_of_ne hw]
    exact h w' hw

theorem free_update (h : ∀ w, Free i (jobs w)) (hl : Free i l) (w' : Option ι) :
    Free i (update jobs w l w') :=
  free_of_update (fun w' _ => h w') hl w'

/-- All threads but `w₀` are free after another thread has gone on. -/
theorem free_update_of_ne {w₀ : Option ι} (h : ∀ w' ≠ w₀, Free i (jobs w')) (hl : Free i l) :
    ∀ w' ≠ w₀, Free i (update jobs w l w') := by
  intro w' hw'
  by_cases hw : w' = w
  · rw [hw, Function.update_self]
    exact hl
  · rw [Function.update_of_ne hw]
    exact h w' hw'

/-- All threads but `w` are free after `w` has gone on. -/
theorem free_update_self (h : ∀ w' ≠ w, Free i (jobs w')) :
    ∀ w' ≠ w, Free i (update jobs w l w') := by
  intro w' hw'
  rw [Function.update_of_ne hw']
  exact h w' hw'

end Update

/-! ## The stages of a handshake -/

section Stages

variable [DecidableEq ι]

/-- Calls that are not made in the middle of a task keep the stage, and so do threads that drop
what they have to do, and changes of the far side. -/
theorem Stage.of_jobs (h : c.StageAt i) (hlog : d.log = c.log)
    (hstanding : ∀ i, d.exchange.standing? i = c.exchange.standing? i) {w : Option ι}
    {l : List (Job τ)} (hjobs : d.jobs = update c.jobs w l)
    (hl : (∃ calls : List (Call τ), l = calls.map (fun call => .task (.call call)) ++ c.jobs w ∧
        ∀ t rest, c.jobs w ≠ .task t :: rest) ∨
      l = [] ∧ ∀ t rest, c.jobs w = .task t :: rest → ∃ p, t = .call (.raise p)) : d.StageAt i := by
  have hfreel (hw : Free i (c.jobs w)) : Free i l := by
    obtain ⟨calls, rfl, -⟩ | ⟨rfl, -⟩ := hl
    · exact free_append (free_calls calls) hw
    · exact nofun
  cases h with
  | idle hfresh hfree hlog' =>
    refine .idle (fun s hs => hfresh s ((hstanding i).symm.trans hs)) (fun w' => ?_) ?_
    · rw [hjobs]
      exact free_update hfree (hfreel (hfree w)) w'
    · rw [hlog]
      exact hlog'
  | @greeting s r w₀ front rest hs hremote hgate hdemand hw hfront hrest hfree hlog' =>
    by_cases hww : w = w₀
    · -- The thread is in the middle of a task, which is no panic.
      subst hww
      obtain ⟨t, rest', hhead, hraise⟩ : ∃ t rest', c.jobs w = .task t :: rest' ∧
          ∀ p, t ≠ .call (.raise p) := by
        cases front with
        | nil => exact ⟨_, _, hw, nofun⟩
        | cons j front =>
          obtain ⟨t, rfl, ht⟩ := hfront j List.mem_cons_self
          refine ⟨t, _, hw, ?_⟩
          rintro p rfl
          obtain ⟨item, ht⟩ | ht | ht := ht <;> cases ht
      obtain ⟨calls, -, hne⟩ | ⟨-, hraise'⟩ := hl
      · exact absurd hhead (hne t rest')
      · obtain ⟨p, hp⟩ := hraise' t rest' hhead
        exact absurd hp (hraise p)
    · refine .greeting w₀ front rest ((hstanding i).trans hs) hremote hgate hdemand ?_ hfront hrest ?_ ?_
      · rw [hjobs, Function.update_of_ne (Ne.symm hww)]
        exact hw
      · rw [hjobs]
        exact free_update_of_ne hfree (hfreel (hfree w hww))
      · rw [hlog]
        exact hlog'
  | @opening s r w₀ inner rest before during hs hkind hremote hgate hw hinner hrest hfree hlog' hduring =>
    by_cases hww : w = w₀
    · subst hww
      obtain ⟨calls, rfl, -⟩ | ⟨rfl, -⟩ := hl
      · refine .opening w (calls.map (fun call => .task (.call call)) ++ inner) rest before during
          ((hstanding i).trans hs) hkind hremote hgate ?_ (free_append (free_calls calls) hinner) hrest ?_
          (hlog.trans hlog') hduring
        · rw [hjobs, Function.update_self, hw, List.append_assoc]
        · rw [hjobs]
          exact free_update_self hfree
      · refine .left ((hstanding i).trans hs) hremote hgate (fun w' => ?_) ?_
        · rw [hjobs]
          by_cases hw' : w' = w
          · rw [hw', Function.update_self]
            exact nofun
          · rw [Function.update_of_ne hw']
            exact hfree w' hw'
        · rw [hlog, hlog']
          exact ⟨⟨w, rest.length + 1, _⟩, by simp, rfl⟩
    · refine .opening w₀ inner rest before during ((hstanding i).trans hs) hkind hremote hgate ?_
        hinner hrest ?_ (hlog.trans hlog') hduring
      · rw [hjobs, Function.update_of_ne (Ne.symm hww)]
        exact hw
      · rw [hjobs]
        exact free_update_of_ne hfree (hfreel (hfree w hww))
  | left hs hremote hgate hfree hlog' =>
    refine .left ((hstanding i).trans hs) hremote hgate (fun w' => ?_) (hlog ▸ hlog')
    rw [hjobs]
    exact free_update hfree (hfreel (hfree w)) w'
  | fired hs hremote hgate hfree hlog' =>
    refine .fired ((hstanding i).trans hs) hremote hgate (fun w' => ?_) (hlog ▸ hlog')
    rw [hjobs]
    exact free_update hfree (hfreel (hfree w)) w'

variable {w : Option ι} {j : Job τ} {rest new : List (Job τ)}

/-- A job is done while no peer has subscribed. -/
theorem Works.stage_of_idle (h : Works env w j rest new c d)
    (hfresh : ∀ s, c.exchange.standing? i = some s → s.IsFresh)
    (hfree : ∀ w, Free i (c.jobs w)) (hquiet : ∀ r, ¬Greeted i r c.log) : d.StageAt i := by
  obtain ⟨hw, hjobs, hlog, hj, hdoes⟩ := h
  have hgreets : j.greets? ≠ some i := hfree w j (hw ▸ List.mem_cons_self)
  have hrest : Free i rest := Free.tail (hw ▸ hfree w)
  have hquiet' : ∀ r, ¬Greeted i r d.log := fun r => by
    rw [hlog]
    exact not_greeted_concat hquiet hgreets r
  have hidle (hnew : Free i new) (hfresh' : ∀ s, d.exchange.standing? i = some s → s.IsFresh) :
      d.StageAt i := by
    refine .idle hfresh' (fun w' => ?_) hquiet'
    rw [hjobs]
    exact free_update hfree (free_append hnew hrest) w'
  by_cases hattach : ∃ r, j = .task (.call (.attach i r))
  · obtain ⟨r, rfl⟩ := hattach
    obtain ⟨rfl, he'⟩ := hdoes.of_task
    cases hs : c.exchange.standing? i with
    | none =>
      refine hidle (fun j' hj' => ?_) fun s hs' => hdoes.isFresh hs hs'
      obtain ⟨t', ht', rfl⟩ := List.mem_map.mp hj'
      obtain ⟨x, hx, -⟩ := Exchange.mem_atInteraction ht'
      rw [Exchange.standing?_eq_some hx] at hs
      cases hs
    | some s =>
      obtain ⟨hsame, hnil⟩ | ⟨hafter, front, htasks, hfront⟩ :=
        Exchange.perform_attach_of_isFresh env hs (hfresh s hs) r
      · refine hidle (by simp [hnil, Free]) fun s' hs' => ?_
        rw [he', hsame] at hs'
        obtain rfl := Option.some.inj hs'
        exact hfresh s hs
      · have hkind := hfresh s hs
        refine .greeting (s := { s with remote := some r }) (r := r) w (front.map .task) rest
          (he' ▸ hafter) rfl hkind.gate hkind.demand ?_ ?_ hrest ?_ hquiet'
        · rw [hjobs, Function.update_self, htasks, gateJobs]
          split <;> simp
        · intro j hj
          obtain ⟨t, ht, rfl⟩ := List.mem_map.mp hj
          exact ⟨t, rfl, Or.inl (hfront t ht)⟩
        · rw [hjobs]
          exact free_update_self fun w' _ => hfree w'
  · refine hidle (hdoes.free fun r _ hr => hattach ⟨r, hr⟩) fun s' hs' => ?_
    cases hs : c.exchange.standing? i with
    | none => exact hdoes.isFresh hs hs'
    | some s =>
      obtain ⟨s'', hs'', hmoves⟩ := hdoes.moves hs
      obtain rfl := Option.some.inj (hs'.symm.trans hs'')
      obtain rfl | ⟨t, rfl, hmoves⟩ := hmoves
      · exact hfresh _ hs
      · refine hmoves.isFresh (hfresh s hs) (fun r hr => hattach ⟨r, by rw [hr]⟩) ?_ ?_
        · rintro a rfl
          obtain ⟨r, hr⟩ := hj i a rfl
          exact hquiet r hr
        · rintro r rfl
          exact hgreets rfl

/-- A job is done while the peer is about to get its subscription. -/
theorem Works.stage_of_greeting (h : Works env w j rest new c d) {s : Standing} {w₀ : Option ι}
    {front rest₀ : List (Job τ)} (hs : c.exchange.standing? i = some s) (hremote : s.remote = some r)
    (hgate : s.gate = none) (hdemand : s.demand = 0)
    (hw₀ : c.jobs w₀ = front ++ .task (.tell (.attached r i)) :: (gateJobs i r s.kind ++ rest₀))
    (hfront : ∀ j ∈ front, ∃ t : Task τ, j = .task t ∧ t.IsLull i) (hrest₀ : Free i rest₀)
    (hfree : ∀ w' ≠ w₀, Free i (c.jobs w')) (hquiet : ∀ r, ¬Greeted i r c.log) : d.StageAt i := by
  obtain ⟨hw, hjobs, hlog, hj, hdoes⟩ := h
  have hask : ∀ a, j ≠ .task (.call (.ask i a)) := by
    rintro a rfl
    obtain ⟨r', hr'⟩ := hj i a rfl
    exact hquiet r' hr'
  by_cases hww : w = w₀
  · subst hww
    cases front with
    | nil =>
      -- The peer is told that it has the subscription.
      obtain ⟨rfl, rfl⟩ := List.cons.inj (hw.symm.trans hw₀)
      have hnew : Free i new := hdoes.free nofun
      have hs' : d.exchange.standing? i = some s := by
        rw [hdoes.of_task.2]
        exact hs
      by_cases hkind : s.kind = .scripted
      · refine .opening w new rest₀ c.log [] hs' hkind hremote hgate ?_ hnew hrest₀ ?_ ?_ nofun
        · rw [hjobs, Function.update_self, gateJobs, if_pos hkind]
          rfl
        · rw [hjobs]
          exact free_update_self hfree
        · rw [hlog, gateJobs, if_pos hkind]
          rfl
      · refine .left hs' hremote hgate ?_ ?_
        · rw [hjobs, gateJobs, if_neg hkind, List.nil_append]
          exact free_of_update hfree (free_append hnew hrest₀)
        · rw [hlog]
          exact ⟨_, List.mem_append_right _ (List.mem_singleton_self _), rfl⟩
    | cons j' front =>
      obtain ⟨rfl, rfl⟩ := List.cons.inj (hw.symm.trans hw₀)
      obtain ⟨t, rfl, ht⟩ := hfront j List.mem_cons_self
      have hgreets : (Job.task t).greets? ≠ some i := by
        obtain ⟨item, rfl⟩ | rfl | rfl := ht <;> nofun
      obtain ⟨s', hs', hkind, hremote', hgate', hdemand', -⟩ := hdoes.keeps hs hremote hgreets
      refine .greeting w (new ++ front) rest₀ hs' hremote' (hgate'.trans hgate)
        (hdemand' hask hdemand) ?_ ?_ hrest₀ ?_ ?_
      · rw [hjobs, Function.update_self, hkind, List.append_assoc]
        rfl
      · intro j hj
        rcases List.mem_append.mp hj with hj | hj
        · rw [hdoes.of_task.1] at hj
          obtain ⟨t', ht', rfl⟩ := List.mem_map.mp hj
          exact ⟨t', rfl, Exchange.isLull_of_mem hs hdemand ht ht'⟩
        · exact hfront j (List.mem_cons_of_mem _ hj)
      · rw [hjobs]
        exact free_update_self hfree
      · rw [hlog]
        exact not_greeted_concat hquiet hgreets
  · have hfirst : Free i (j :: rest) := hw ▸ hfree w hww
    obtain ⟨s', hs', hkind, hremote', hgate', hdemand', hnew⟩ :=
      hdoes.keeps hs hremote (hfirst j List.mem_cons_self)
    refine .greeting w₀ front rest₀ hs' hremote' (hgate'.trans hgate) (hdemand' hask hdemand) ?_
      hfront hrest₀ ?_ ?_
    · rw [hjobs, Function.update_of_ne (Ne.symm hww), hw₀, hkind]
    · rw [hjobs]
      exact free_update_of_ne hfree (free_append hnew hfirst.tail)
    · rw [hlog]
      exact not_greeted_concat hquiet (hfirst j List.mem_cons_self)

/-- A job is done while the peer of a script is being given its subscription. -/
theorem Works.stage_of_opening (h : Works env w j rest new c d) {s : Standing} {w₀ : Option ι}
    {inner rest₀ : List (Job τ)} {before during : List (Entry ι τ)}
    (hs : c.exchange.standing? i = some s) (hkind : s.kind = .scripted)
    (hremote : s.remote = some r) (hgate : s.gate = none)
    (hw₀ : c.jobs w₀ = inner ++ .task (.openGate i r) :: rest₀) (hinner : Free i inner)
    (hrest₀ : Free i rest₀) (hfree : ∀ w' ≠ w₀, Free i (c.jobs w'))
    (hlog₀ : c.log =
      before ++ ⟨w₀, rest₀.length + 1, .task (.tell (.attached r i))⟩ :: during)
    (hduring : ∀ e ∈ during, e.thread = w₀ → rest₀.length < e.behind) : d.StageAt i := by
  obtain ⟨hw, hjobs, hlog, hj, hdoes⟩ := h
  by_cases hww : w = w₀
  · subst hww
    cases inner with
    | nil =>
      -- The peer's call has returned, and the gate is fired.
      obtain ⟨rfl, rfl⟩ := List.cons.inj (hw.symm.trans hw₀)
      have hs' := Exchange.standing?_openGate env hs hkind r
      rw [hgate, ← hdoes.of_task.2] at hs'
      refine .fired hs' hremote rfl ?_ ⟨w, rest.length, before, during, [], ?_, hduring⟩
      · rw [hjobs]
        exact free_of_update hfree (free_append (hdoes.free nofun) hrest₀)
      · rw [hlog, hlog₀]
    | cons j' inner =>
      obtain ⟨rfl, rfl⟩ := List.cons.inj (hw.symm.trans hw₀)
      obtain ⟨s', hs', hkind', hremote', hgate', -, hnew⟩ :=
        hdoes.keeps hs hremote (hinner j List.mem_cons_self)
      refine .opening w (new ++ inner) rest₀ before
        (during ++ [⟨w, (inner ++ Job.task (.openGate i r) :: rest₀).length, j⟩]) hs'
        (hkind'.trans hkind) hremote' (hgate'.trans hgate) ?_ (free_append hnew hinner.tail) hrest₀ ?_ ?_ ?_
      · rw [hjobs, Function.update_self, List.append_assoc]
        rfl
      · rw [hjobs]
        exact free_update_self hfree
      · rw [hlog, hlog₀, List.append_assoc]
        rfl
      · intro e he hthread
        rcases List.mem_append.mp he with he | he
        · exact hduring e he hthread
        · rw [List.mem_singleton.mp he]
          simp only [List.length_append, List.length_cons]
          omega
  · have hfirst : Free i (j :: rest) := hw ▸ hfree w hww
    obtain ⟨s', hs', hkind', hremote', hgate', -, hnew⟩ :=
      hdoes.keeps hs hremote (hfirst j List.mem_cons_self)
    refine .opening w₀ inner rest₀ before (during ++ [⟨w, rest.length, j⟩]) hs'
      (hkind'.trans hkind) hremote' (hgate'.trans hgate) ?_ hinner hrest₀ ?_ ?_ ?_
    · rw [hjobs, Function.update_of_ne (Ne.symm hww)]
      exact hw₀
    · rw [hjobs]
      exact free_update_of_ne hfree (free_append hnew hfirst.tail)
    · rw [hlog, hlog₀, List.append_assoc]
      rfl
    · intro e he hthread
      rcases List.mem_append.mp he with he | he
      · exact hduring e he hthread
      · rw [List.mem_singleton.mp he] at hthread
        exact absurd hthread hww

/-- **A step of a company** leads from a stage of a handshake to a stage. -/
theorem Step.stage (h : Step env c d) (hc : c.StageAt i) : d.StageAt i := by
  cases h.turns with
  | call w calls hw hjobs hlog hstanding =>
    exact hc.of_jobs hlog hstanding hjobs (Or.inl ⟨calls, rfl, hw⟩)
  | drop w hw hjobs hlog hstanding =>
    exact hc.of_jobs hlog hstanding hjobs (Or.inr ⟨rfl, hw⟩)
  | outside hjobs hlog hstanding =>
    rw [StageAt, hjobs, hlog, hstanding]
    exact hc
  | @work w j rest new h =>
    cases hc with
    | idle hfresh hfree hquiet => exact h.stage_of_idle hfresh hfree hquiet
    | greeting w₀ front rest₀ hs hremote hgate hdemand hw hfront hrest hfree hquiet =>
      exact h.stage_of_greeting hs hremote hgate hdemand hw hfront hrest hfree hquiet
    | opening w₀ inner rest₀ before during hs hkind hremote hgate hw hinner hrest hfree hlog hduring =>
      exact h.stage_of_opening hs hkind hremote hgate hw hinner hrest hfree hlog hduring
    | left hs hremote hgate hfree hlog =>
      have hfirst : Free i (j :: rest) := h.first ▸ hfree w
      obtain ⟨s', hs', -, hremote', hgate', -, hnew⟩ :=
        h.does.keeps hs hremote (hfirst j List.mem_cons_self)
      refine .left hs' hremote' (hgate'.trans hgate) ?_ (h.log ▸ greeted_append hlog)
      rw [h.jobs]
      exact free_update hfree (free_append hnew hfirst.tail)
    | fired hs hremote hgate hfree hlog =>
      have hfirst : Free i (j :: rest) := h.first ▸ hfree w
      obtain ⟨s', hs', -, hremote', hgate', -, hnew⟩ :=
        h.does.keeps hs hremote (hfirst j List.mem_cons_self)
      refine .fired hs' hremote' (hgate'.trans hgate) ?_ (h.log ▸ hlog.append _)
      rw [h.jobs]
      exact free_update hfree (free_append hnew hfirst.tail)

end Stages

/-! ## What a stage tells -/

theorem remote?_of_standing? {s : Standing} (hs : c.exchange.standing? i = some s) :
    c.exchange.remote? i = s.remote := by
  rw [Exchange.remote?_eq_standing?, hs]
  rfl

/-- Who has a peer is about to give it the subscription, or has done so. -/
theorem StageAt.greeted_or_mem (h : c.StageAt i) (hr : c.exchange.remote? i = some r) :
    Greeted i r c.log ∨
      (∀ r, ¬Greeted i r c.log) ∧ ∃ w, .task (.tell (.attached r i)) ∈ c.jobs w := by
  have hremote {s : Standing} {r' : Handle} (hs : c.exchange.standing? i = some s)
      (hr' : s.remote = some r') : r' = r :=
    Option.some.inj (hr'.symm.trans ((remote?_of_standing? hs).symm.trans hr))
  cases h with
  | idle hfresh hfree hlog =>
    rw [Exchange.remote?_eq_standing?, Option.bind_eq_some_iff] at hr
    obtain ⟨s, hs, hr⟩ := hr
    rw [(hfresh s hs).remote] at hr
    cases hr
  | greeting w front rest hs hr' hgate hdemand hw hfront hrest hfree hlog =>
    obtain rfl := hremote hs hr'
    exact Or.inr ⟨hlog, w, by rw [hw]; simp⟩
  | opening w inner rest before during hs hkind hr' hgate hw hinner hrest hfree hlog =>
    obtain rfl := hremote hs hr'
    exact Or.inl (hlog ▸ ⟨⟨w, rest.length + 1, _⟩, by simp, rfl⟩)
  | left hs hr' hgate hfree hlog =>
    obtain rfl := hremote hs hr'
    exact Or.inl hlog
  | fired hs hr' hgate hfree hlog =>
    obtain rfl := hremote hs hr'
    exact Or.inl hlog.greeted

/-- Where somebody was greeted, or there is demand, the peer was greeted. -/
theorem StageAt.exists_greeted (h : c.StageAt i)
    (hsome : (∃ r, Greeted i r c.log) ∨ ∃ s, c.exchange.standing? i = some s ∧ s.demand ≠ 0) :
    ∃ r, c.exchange.remote? i = some r ∧ Greeted i r c.log := by
  cases h with
  | idle hfresh hfree hlog =>
    obtain ⟨r, hr⟩ | ⟨s, hs, hne⟩ := hsome
    · exact absurd hr (hlog r)
    · exact absurd (hfresh s hs).demand hne
  | greeting w front rest hs hr' hgate hdemand hw hfront hrest hfree hlog =>
    obtain ⟨r, hr⟩ | ⟨s, hs', hne⟩ := hsome
    · exact absurd hr (hlog r)
    · obtain rfl := Option.some.inj (hs.symm.trans hs')
      exact absurd hdemand hne
  | opening w inner rest before during hs hkind hr' hgate hw hinner hrest hfree hlog =>
    exact ⟨_, (remote?_of_standing? hs).trans hr', hlog ▸ ⟨⟨w, rest.length + 1, _⟩, by simp, rfl⟩⟩
  | left hs hr' hgate hfree hlog => exact ⟨_, (remote?_of_standing? hs).trans hr', hlog⟩
  | fired hs hr' hgate hfree hlog =>
    exact ⟨_, (remote?_of_standing? hs).trans hr', hlog.greeted⟩

/-- Who is about to be given the subscription is the peer, and nobody was given it before. -/
theorem StageAt.not_greeted (h : c.StageAt i) {w : Option ι}
    (hw : .task (.tell (.attached r i)) ∈ c.jobs w) :
    c.exchange.remote? i = some r ∧ ∀ r, ¬Greeted i r c.log := by
  cases h with
  | idle hfresh hfree hlog => exact absurd rfl (hfree w _ hw)
  | @greeting s r' w' front rest hs hr' hgate hdemand hw' hfront hrest hfree hlog =>
    refine ⟨(remote?_of_standing? hs).trans ?_, hlog⟩
    by_cases hww : w = w'
    · rw [hww, hw'] at hw
      rcases List.mem_append.mp hw with hw | hw
      · obtain ⟨t, ht, hlull⟩ := hfront _ hw
        cases ht
        obtain ⟨item, ht⟩ | ht | ht := hlull <;> cases ht
      · rcases List.mem_cons.mp hw with heq | hw
        · cases heq
          exact hr'
        · rcases List.mem_append.mp hw with hw | hw
          · unfold gateJobs at hw
            split at hw
            · cases List.mem_singleton.mp hw
            · cases hw
          · exact absurd rfl (hrest _ hw)
    · exact absurd rfl (hfree w hww _ hw)
  | @opening s r' w' inner rest before during hs hkind hr' hgate hw' hinner hrest hfree hlog =>
    exfalso
    by_cases hww : w = w'
    · rw [hww, hw'] at hw
      rcases List.mem_append.mp hw with hw | hw
      · exact hinner _ hw rfl
      · rcases List.mem_cons.mp hw with heq | hw
        · cases heq
        · exact hrest _ hw rfl
    · exact hfree w hww _ hw rfl
  | left hs hr' hgate hfree hlog => exact absurd rfl (hfree w _ hw)
  | fired hs hr' hgate hfree hlog => exact absurd rfl (hfree w _ hw)

/-- Whatever a gate was fired with, that is the peer, and the handshake with it is over. -/
theorem StageAt.shaken (h : c.StageAt i) {s : Standing} (hs : c.exchange.standing? i = some s)
    (hgate : s.gate = some r) : s.remote = some r ∧ Shaken i r c.log := by
  have hnone {s' : Standing} (hs' : c.exchange.standing? i = some s') (hgate' : s'.gate = none) :
      s.remote = some r ∧ Shaken i r c.log := by
    obtain rfl := Option.some.inj (hs'.symm.trans hs)
    rw [hgate'] at hgate
    cases hgate
  cases h with
  | idle hfresh => exact hnone hs (hfresh s hs).gate
  | greeting w front rest hs' hr' hgate' => exact hnone hs' hgate'
  | opening w inner rest before during hs' hkind hr' hgate' => exact hnone hs' hgate'
  | left hs' hr' hgate' => exact hnone hs' hgate'
  | fired hs' hr' hgate' hfree hlog =>
    obtain rfl := Option.some.inj (hs'.symm.trans hs)
    obtain rfl := Option.some.inj (hgate'.symm.trans hgate)
    exact ⟨hr', hlog⟩

/-! ## What holds of a company -/

/-- What the far side is told of an interaction comes after its peer was greeted, and what the
block of a script does comes after the handshake. -/
structure IsCourteous (c : Company ι σ τ) : Prop where
  orderly : c.trial.IsOrderly
  /-- Only the trial acts for consumers. -/
  others : ∀ k, ∀ t ∈ c.stack k, ∀ i a, t ≠ .own i a
  stage : ∀ i, c.StageAt i
  heard : ∀ w r s, .task (.tell (.heard r s)) ∈ c.jobs w →
    ∃ i, c.exchange.remote? i = some r ∧ Greeted i r c.log
  first : ∀ r, c.words r = [] ∨ ∃ i rest, c.words r = .subscription i :: rest
  once : ∀ r i, (c.words r).count (.subscription i) ≤ 1
  order : ∀ before e after, c.log = before ++ e :: after → ∀ i, e.job.ofBlock? = some i →
    ∃ s, c.exchange.standing? i = some s ∧
      (s.kind = .scripted → ∃ r, s.gate = some r ∧ Shaken i r before)

theorem isCourteous_start (name : String) (far : σ) (commands : List Command) :
    (start name far commands : Company ι σ τ).IsCourteous where
  orderly := isOrderly_start name far commands
  others := nofun
  stage i := by
    have hcommand : ∀ j ∈ commands.map (Job.command (τ := τ)), ∃ c, j = .command c := by
      intro j hj
      obtain ⟨c, -, rfl⟩ := List.mem_map.mp hj
      exact ⟨c, rfl⟩
    refine .idle nofun (fun w j hj => ?_) nofun
    cases w with
    | none =>
      obtain ⟨c, rfl⟩ := hcommand j hj
      nofun
    | some k => cases hj
  heard w r s hw := by
    cases w with
    | none =>
      obtain ⟨c, -, hc⟩ := List.mem_map.mp hw
      cases hc
    | some k => cases hw
  first r := Or.inl rfl
  once r i := Nat.zero_le 1
  order before e after h := by
    rw [start] at h
    simp at h

section Steps

variable [DecidableEq ι]

/-- A peer stays with its producer. -/
theorem Turns.remote? (h : Turns env c d) (hr : c.exchange.remote? i = some r) :
    d.exchange.remote? i = some r := by
  rw [Exchange.remote?_eq_standing?, Option.bind_eq_some_iff] at hr ⊢
  obtain ⟨s, hs, hr⟩ := hr
  cases h with
  | work h =>
    obtain ⟨s', hs', rfl | ⟨t, rfl, hmoves⟩⟩ := h.does.moves hs
    · exact ⟨s', hs', hr⟩
    · exact ⟨s', hs', hmoves.remote_eq hr⟩
  | call w calls hw hjobs hlog hstanding => exact ⟨s, (hstanding i).trans hs, hr⟩
  | drop w hw hjobs hlog hstanding => exact ⟨s, (hstanding i).trans hs, hr⟩
  | outside hjobs hlog hstanding => exact ⟨s, (hstanding i).trans hs, hr⟩

/-- Producers stay what they are, and open gates stay open. -/
theorem Turns.follows (h : Turns env c d) : c.exchange.Follows d.exchange := by
  cases h with
  | work h =>
    intro i s hs
    obtain ⟨s', hs', rfl | ⟨t, rfl, hmoves⟩⟩ := h.does.moves hs
    · exact ⟨s', hs', rfl, fun _ hr => hr⟩
    · exact ⟨s', hs', hmoves.kind_eq, fun r hr => hmoves.gate_eq hr⟩
  | call w calls hw hjobs hlog hstanding => exact .of_eq hstanding
  | drop w hw hjobs hlog hstanding => exact .of_eq hstanding
  | outside hjobs hlog hstanding => exact .of_eq hstanding

/-- What is told after some job was told before, or it is the word of that job. -/
theorem Works.words {w : Option ι} {j : Job τ} {rest new : List (Job τ)}
    (h : Works env w j rest new c d) (r : Handle) :
    d.words r = c.words r ++ (j.word? r).toList := by
  rw [Company.words, h.log, List.filterMap_append, Company.words]
  cases hj : j.word? r <;> simp [hj]

/-- What a thread has to do after a step it had to do before, or it comes of the job that was
done, or it is a call. -/
theorem Turns.mem_jobs (h : Turns env c d) {w : Option ι} {j' : Job τ} (hj' : j' ∈ d.jobs w) :
    j' ∈ c.jobs w ∨ (∃ call, j' = .task (.call call)) ∨
      ∃ w' j rest new, Works env w' j rest new c d ∧ j' ∈ new := by
  cases h with
  | @work w' j rest new h =>
    rw [h.jobs] at hj'
    by_cases hw : w = w'
    · rw [hw, Function.update_self] at hj'
      rcases List.mem_append.mp hj' with hj' | hj'
      · exact Or.inr (Or.inr ⟨w', j, rest, new, h, hj'⟩)
      · refine Or.inl ?_
        rw [hw, h.first]
        exact List.mem_cons_of_mem j hj'
    · rw [Function.update_of_ne hw] at hj'
      exact Or.inl hj'
  | call w' calls hw' hjobs hlog hstanding =>
    rw [hjobs] at hj'
    by_cases hw : w = w'
    · rw [hw, Function.update_self] at hj'
      rcases List.mem_append.mp hj' with hj' | hj'
      · obtain ⟨call, -, rfl⟩ := List.mem_map.mp hj'
        exact Or.inr (Or.inl ⟨call, rfl⟩)
      · exact Or.inl (hw ▸ hj')
    · rw [Function.update_of_ne hw] at hj'
      exact Or.inl hj'
  | drop w' hw' hjobs hlog hstanding =>
    rw [hjobs] at hj'
    by_cases hw : w = w'
    · rw [hw, Function.update_self] at hj'
      cases hj'
    · rw [Function.update_of_ne hw] at hj'
      exact Or.inl hj'
  | outside hjobs hlog hstanding =>
    rw [hjobs] at hj'
    exact Or.inl hj'

/-- The log only grows. -/
theorem Turns.log (h : Turns env c d) :
    d.log = c.log ∨ ∃ w j rest new, Works env w j rest new c d := by
  cases h with
  | work h => exact Or.inr ⟨_, _, _, _, h⟩
  | call w calls hw hjobs hlog hstanding => exact Or.inl hlog
  | drop w hw hjobs hlog hstanding => exact Or.inl hlog
  | outside hjobs hlog hstanding => exact Or.inl hlog

theorem Turns.greeted (h : Turns env c d) (hg : Greeted i r c.log) : Greeted i r d.log := by
  obtain hlog | ⟨w, j, rest, new, h⟩ := h.log
  · rw [hlog]
    exact hg
  · rw [h.log]
    exact greeted_append hg

omit [DecidableEq ι] in
/-- Who was greeted was told so. -/
theorem mem_words (h : Greeted i r c.log) : .subscription i ∈ c.words r := by
  obtain ⟨e, he, hj⟩ := h
  refine List.mem_filterMap.mpr ⟨e, he, ?_⟩
  rw [hj]
  exact if_pos rfl

omit [DecidableEq ι] in
theorem greeted_of_mem_words (h : .subscription i ∈ c.words r) : Greeted i r c.log := by
  obtain ⟨e, he, hj⟩ := List.mem_filterMap.mp h
  refine ⟨e, he, ?_⟩
  unfold Job.word? at hj
  split at hj
  · split at hj
    · cases hj
      subst_vars
      assumption
    · cases hj
  · split at hj <;> cases hj
  · cases hj

/-- Whatever a receiver is about to be told, it was greeted before, or it is the greeting. -/
theorem IsCourteous.heard_step (h : c.IsCourteous) (hstep : Step env c d) {w : Option ι}
    {s : Signal Payload} (hw : .task (.tell (.heard r s)) ∈ d.jobs w) :
    ∃ i, d.exchange.remote? i = some r ∧ Greeted i r d.log := by
  have hturns := hstep.turns
  suffices hbefore : ∃ i, c.exchange.remote? i = some r ∧ Greeted i r c.log by
    obtain ⟨i, hr, hg⟩ := hbefore
    exact ⟨i, hturns.remote? hr, hturns.greeted hg⟩
  -- It is enough to find an interaction with this peer where somebody was greeted.
  have hpeer {i : Nat} (hr : c.exchange.remote? i = some r)
      (hsome : (∃ r, Greeted i r c.log) ∨ ∃ s, c.exchange.standing? i = some s ∧ s.demand ≠ 0) :
      ∃ i, c.exchange.remote? i = some r ∧ Greeted i r c.log := by
    obtain ⟨r', hr', hg⟩ := (h.stage i).exists_greeted hsome
    obtain rfl := Option.some.inj (hr.symm.trans hr')
    exact ⟨i, hr, hg⟩
  obtain hold | ⟨call, hcall⟩ | ⟨w', j, rest, new, hworks, hnew⟩ := hturns.mem_jobs hw
  · exact h.heard w r s hold
  · cases hcall
  · obtain ⟨hfirst, -, -, hpermits, hdoes⟩ := hworks
    obtain ⟨t, rfl, ht⟩ | ⟨i, signals, rfl, hr⟩ := hdoes.heard hnew
    · obtain ⟨i, hr, ⟨a, rfl⟩ | ⟨rfl, hdemand⟩⟩ := Exchange.exists_of_heard ht
      · exact hpeer hr (Or.inl (hpermits i a rfl))
      · exact hpeer hr (Or.inr hdemand)
    · cases w' with
      | some k =>
        obtain ⟨t, -, ht⟩ := List.mem_map.mp (hfirst ▸ List.mem_cons_self :
          Job.play i (s :: signals) ∈ c.jobs (some k))
        cases ht
      | none =>
        obtain ⟨s', v, hs', -, hv⟩ := h.orderly.jobs (.play i (s :: signals))
          (hfirst ▸ List.mem_cons_self : Job.play i (s :: signals) ∈ c.jobs none)
        exact hpeer hr (Or.inl ⟨v, ((h.stage i).shaken hs' hv).2.greeted⟩)

/-- A receiver is told nothing before it is told that it has a subscription. -/
theorem IsCourteous.first_step (h : c.IsCourteous) (hstep : Step env c d) (r : Handle) :
    d.words r = [] ∨ ∃ i rest, d.words r = .subscription i :: rest := by
  have hold := h.first r
  obtain hlog | ⟨w, j, rest, new, hworks⟩ := hstep.turns.log
  · rw [Company.words, hlog]
    exact hold
  · rw [hworks.words]
    obtain hnil | ⟨i, words, hwords⟩ := hold
    · rw [hnil, List.nil_append]
      unfold Job.word?
      split
      · rename_i r' i
        split
        · exact Or.inr ⟨i, [], rfl⟩
        · exact Or.inl rfl
      · rename_i r' s
        split
        · rename_i hrr
          subst hrr
          obtain ⟨i, -, hgreeted⟩ := h.heard w r' s (hworks.first ▸ List.mem_cons_self)
          exact absurd (mem_words hgreeted) (hnil ▸ List.not_mem_nil)
        · exact Or.inl rfl
      · exact Or.inl rfl
    · exact Or.inr ⟨i, words ++ (j.word? r).toList, by rw [hwords, List.cons_append]⟩

/-- No receiver is given the subscription of a producer twice. -/
theorem IsCourteous.once_step (h : c.IsCourteous) (hstep : Step env c d) (r : Handle) (i : Nat) :
    (d.words r).count (.subscription i) ≤ 1 := by
  obtain hlog | ⟨w, j, rest, new, hworks⟩ := hstep.turns.log
  · rw [Company.words, hlog]
    exact h.once r i
  · rw [hworks.words, List.count_append]
    by_cases hj : j.word? r = some (.subscription i)
    · have hgreets : j = .task (.tell (.attached r i)) := by
        unfold Job.word? at hj
        split at hj
        · split at hj
          · cases hj
            subst_vars
            rfl
          · cases hj
        · split at hj <;> cases hj
        · cases hj
      subst hgreets
      obtain ⟨-, hquiet⟩ := (h.stage i).not_greeted (hworks.first ▸ List.mem_cons_self)
      rw [List.count_eq_zero_of_not_mem fun hmem => hquiet r (greeted_of_mem_words hmem), hj,
        Nat.zero_add]
      exact Nat.le_of_eq List.count_singleton_self
    · have hzero : (j.word? r).toList.count (.subscription i) = 0 := by
        refine List.count_eq_zero_of_not_mem fun hmem => hj ?_
        exact Option.mem_toList.mp hmem
      rw [hzero]
      exact h.once r i

omit [DecidableEq ι] in
/-- A job that may belong to a block is there only if the gate was fired. -/
theorem IsCourteous.fired (h : c.IsCourteous) {w : Option ι} {j : Job τ} (hj : j ∈ c.jobs w)
    (hblock : j.ofBlock? = some i) :
    ∃ s, c.exchange.standing? i = some s ∧
      (s.kind = .scripted → ∃ r, s.gate = some r ∧ Shaken i r c.log) := by
  cases w with
  | some k =>
    obtain ⟨t, ht, rfl⟩ := List.mem_map.mp hj
    cases t with
    | own i' a => exact absurd rfl (h.others k _ ht i' a)
    | call | tell | settle | passOn | openGate | push | drain | drainNext => cases hblock
  | none =>
    obtain ⟨s, hs, hgate⟩ := Job.IsReady.of_block (h.orderly.jobs j hj) hblock
    refine ⟨s, hs, fun hkind => ?_⟩
    obtain ⟨r, hr⟩ := hgate hkind
    exact ⟨r, hr, ((h.stage i).shaken hs hr).2⟩

/-- A job of a block comes after the handshake. -/
theorem IsCourteous.order_step (h : c.IsCourteous) (hstep : Step env c d)
    {before after : List (Entry ι τ)} {e : Entry ι τ} (hlog : d.log = before ++ e :: after)
    (hblock : e.job.ofBlock? = some i) :
    ∃ s, d.exchange.standing? i = some s ∧
      (s.kind = .scripted → ∃ r, s.gate = some r ∧ Shaken i r before) := by
  suffices hbefore : ∃ s, c.exchange.standing? i = some s ∧
      (s.kind = .scripted → ∃ r, s.gate = some r ∧ Shaken i r before) by
    obtain ⟨s, hs, hgate⟩ := hbefore
    obtain ⟨s', hs', hkind, hkeep⟩ := hstep.turns.follows i s hs
    refine ⟨s', hs', fun hscripted => ?_⟩
    obtain ⟨r, hr, hshaken⟩ := hgate (hkind ▸ hscripted)
    exact ⟨r, hkeep r hr, hshaken⟩
  obtain hsame | ⟨w, j, rest, new, hworks⟩ := hstep.turns.log
  · exact h.order before e after (hsame.symm.trans hlog) i hblock
  · have happend : before ++ e :: after = c.log ++ [⟨w, rest.length, j⟩] := hlog.symm.trans hworks.log
    obtain rfl | ⟨after, e', rfl⟩ := after.eq_nil_or_concat
    · obtain ⟨rfl, heq⟩ := List.append_inj' happend rfl
      obtain rfl := (List.cons.inj heq).1
      exact h.fired (hworks.first ▸ List.mem_cons_self) hblock
    · rw [List.concat_eq_append, ← List.cons_append, ← List.append_assoc] at happend
      exact h.order before e after (List.append_inj' happend rfl).1.symm i hblock

theorem IsCourteous.others_step (h : c.IsCourteous) (hstep : Step env c d) :
    ∀ k, ∀ t ∈ d.stack k, ∀ i a, t ≠ .own i a := by
  have hupdate {k : ι} {ts : List (Task τ)} (hts : ∀ t ∈ ts, ∀ i a, t ≠ .own i a) :
      ∀ k', ∀ t ∈ update c.stack k ts k', ∀ i a, t ≠ .own i a := by
    intro k' t ht
    by_cases hk : k' = k
    · rw [hk, Function.update_self] at ht
      exact hts t ht
    · rw [Function.update_of_ne hk] at ht
      exact h.others k' t ht
  cases hstep with
  | turn | window | interrupt | fault | panic | outside => exact h.others
  | @work k t rest hk ht ht' =>
    refine hupdate fun t' ht' => ?_
    rcases List.mem_append.mp ht' with ht' | ht'
    · cases Exchange.Origin.of_mem ht' <;> nofun
    · exact h.others k t' (hk ▸ List.mem_cons_of_mem t ht')
  | collapse hk => exact hupdate nofun
  | start hk calls =>
    refine hupdate fun t ht => ?_
    obtain ⟨call, -, rfl⟩ := List.mem_map.mp ht
    nofun

/-- **A company stays courteous** whatever its threads do. -/
theorem IsCourteous.step (h : c.IsCourteous) (hstep : Step env c d) : d.IsCourteous where
  orderly := hstep.isOrderly h.orderly
  others := h.others_step hstep
  stage i := hstep.stage (h.stage i)
  heard _ _ _ hw := h.heard_step hstep hw
  first := h.first_step hstep
  once := h.once_step hstep
  order _ _ _ hlog _ hblock := h.order_step hstep hlog hblock

theorem IsCourteous.reach (h : c.IsCourteous) (hreach : Reach env c d) : d.IsCourteous := by
  induction hreach with
  | refl => exact h
  | tail _ hstep ih => exact ih.step hstep

omit [DecidableEq ι] in
/-- What the script of a block sends goes to the peer with which the gate was fired. -/
theorem IsCourteous.sends (h : c.IsCourteous) {p : ScriptedProducer}
    (hp : c.exchange.scripted? i = some p) {s : Signal Payload} {signals : List (Signal Payload)}
    {rest : List (Job τ)} {t : Trial σ τ} (hjobs : c.trial.jobs = .play i (s :: signals) :: rest)
    (hturn : c.trial.turn env = .next t) :
    ∃ v, p.gate.slot = some v ∧ (t.jobs = rest ∨
      t.jobs = .task (.tell (.heard v s)) :: .play i signals :: rest) := by
  obtain ⟨s', v, hs', -, hv⟩ := h.orderly.jobs (.play i (s :: signals)) (hjobs ▸ List.mem_cons_self)
  obtain rfl := Option.some.inj (hs'.symm.trans (Exchange.standing?_eq_some_of_scripted? hp))
  have hremote : p.remote = some v := ((h.stage i).shaken hs' hv).1
  refine ⟨v, hv, ?_⟩
  rw [Trial.turn, hjobs] at hturn
  have hemit : Trial.emitFirst i s signals { c.trial with jobs := rest } = .next t := hturn
  unfold Trial.emitFirst at hemit
  split at hemit
  · cases hemit
    exact Or.inl rfl
  · rename_i p' hp'
    obtain rfl := Option.some.inj (hp.symm.trans hp')
    split at hemit
    · cases hemit
    · cases hemit
      exact Or.inl rfl
    · cases hemit
      refine Or.inr ?_
      show (p.remote.map fun r => Task.tell (.heard r s)).toList.map Job.task ++ _ ++ rest = _
      rw [hremote]
      rfl

/-- **The handshake of a channel.**  Whatever the threads do, and whenever and on whatever thread
the peer subscribes:

* the first that a receiver is told is that it has a subscription, and each producer that it has
  subscribed to is about to give it the subscription or has done so exactly once;
* whatever belongs to the block of a script is done after the peer was given the subscription,
  that call has returned, and the gate was fired with the peer; what the block sends goes there;
* all that wait at a gate return what it was fired with first. -/
theorem Reach.greeted_first {name : String} {far : σ} {commands : List Command}
    (h : Reach env (start name far commands) c) :
    (∀ r, c.words r = [] ∨ ∃ i rest, c.words r = .subscription i :: rest) ∧
    (∀ i r, c.exchange.remote? i = some r →
      (.subscription i ∉ c.words r ∧ ∃ w, .task (.tell (.attached r i)) ∈ c.jobs w) ∨
        (c.words r).count (.subscription i) = 1) ∧
    (∀ i p, c.exchange.scripted? i = some p →
      (∀ before e after, c.log = before ++ e :: after → e.job.ofBlock? = some i →
        ∃ r, p.remote = some r ∧ p.gate.slot = some r ∧ Shaken i r before) ∧
      (∀ v, p.gate.slot = some v → p.remote = some v) ∧
      ∀ s signals rest t, c.trial.jobs = .play i (s :: signals) :: rest →
        c.trial.turn env = .next t → ∃ v, p.gate.slot = some v ∧
          (t.jobs = rest ∨ t.jobs = .task (.tell (.heard v s)) :: .play i signals :: rest)) ∧
    ∀ {α : Type} {vs : List α} {m : Gate.Waiters α}, Gate.Waits vs m →
      m.state.slot = vs.head? ∧ (∀ t ∈ m.threads, Gate.Expects vs.head? t) ∧
        ∀ v, vs.head? = some v →
          (Monitor.settle Gate.turn m).threads = m.threads.map fun _ => .returned v := by
  have hc : c.IsCourteous := (isCourteous_start name far commands).reach h
  refine ⟨hc.first, fun i r hr => ?_, fun i p hp => ⟨?_, ?_, ?_⟩, fun hm => ?_⟩
  · obtain hgreeted | ⟨hquiet, hpending⟩ := (hc.stage i).greeted_or_mem hr
    · have hpos := List.count_pos_iff.mpr (mem_words hgreeted)
      exact Or.inr (Nat.le_antisymm (hc.once r i) hpos)
    · exact Or.inl ⟨fun hmem => hquiet r (greeted_of_mem_words hmem), hpending⟩
  · intro before e after hlog hblock
    have hs := Exchange.standing?_eq_some_of_scripted? hp
    obtain ⟨s, hs', hgate⟩ := hc.order before e after hlog i hblock
    obtain rfl := Option.some.inj (hs.symm.trans hs')
    obtain ⟨r, hr, hshaken⟩ := hgate rfl
    exact ⟨r, ((hc.stage i).shaken hs hr).1, hr, hshaken⟩
  · intro v hv
    exact ((hc.stage i).shaken (Exchange.standing?_eq_some_of_scripted? hp) hv).1
  · intro s signals rest t hjobs hturn
    exact hc.sends hp hjobs hturn
  · obtain ⟨hslot, hthreads⟩ := hm.expects
    exact ⟨hslot, hthreads, fun v hv => hm.settle hv⟩

end Steps

/-- A peer that asks for two items as soon as it has a subscription. -/
def hasty : Environment Unit Unit where
  dial _ := some ((), .connected 0)
  react e _ := ((), match e with
    | .attached _ i => [.ask i (.request 2)]
    | _ => [])
  idle _ := none

/-- The receiver of that peer. -/
def hastyPeer : Handle := { connection := 0, stream := 1 }

/-- The peer subscribes on a thread of its own while the trial waits for it, and then the block of
the channel is run. -/
def hastyRun : Company Unit Unit Unit :=
  (start "t" () [.channel ⟨"a", "b"⟩ [.respond [.next ⟨"c", "d"⟩], .pass]]).play hasty <|
    [.go none, .go none, .begin () [.attach 0 hastyPeer]] ++ List.replicate 7 (.go (some ())) ++
      List.replicate 8 (.go none)

/-- The script is heard after the subscription and the first item, and the first instruction of its
block comes after the handshake. -/
theorem greeted_first_of_hastyRun :
    Reach hasty (start "t" () [.channel ⟨"a", "b"⟩ [.respond [.next ⟨"c", "d"⟩], .pass]]) hastyRun ∧
      hastyRun.words hastyPeer =
        [.subscription 0, .signal (.next ⟨"a", "b"⟩), .signal (.next ⟨"c", "d"⟩)] ∧
      (hastyRun.words hastyPeer).count (.subscription 0) = 1 ∧
      ∃ before e after, hastyRun.log = before ++ e :: after ∧ e.job.ofBlock? = some 0 ∧
        Shaken 0 hastyPeer before := by
  have hreach : Reach hasty
      (start "t" () [.channel ⟨"a", "b"⟩ [.respond [.next ⟨"c", "d"⟩], .pass]]) hastyRun :=
    reach_play _ _ _
  obtain ⟨-, honce, horder, -⟩ := hreach.greeted_first
  have hwords : hastyRun.words hastyPeer =
      [.subscription 0, .signal (.next ⟨"a", "b"⟩), .signal (.next ⟨"c", "d"⟩)] := by
    decide +kernel
  refine ⟨hreach, hwords, ?_, ?_⟩
  · obtain ⟨hnot, -⟩ | hcount := honce 0 hastyPeer (by decide +kernel)
    · exact absurd (hwords ▸ List.mem_cons_self) hnot
    · exact hcount
  · have hgate : (hastyRun.exchange.scripted? 0).map (·.gate.slot) = some (some hastyPeer) := by
      decide +kernel
    obtain ⟨p, hp, hslot⟩ := Option.map_eq_some_iff.mp hgate
    have hblock : ∃ e ∈ hastyRun.log, e.job.ofBlock? = some 0 := by decide +kernel
    obtain ⟨e, he, hblock⟩ := hblock
    obtain ⟨before, after, hlog⟩ := List.append_of_mem he
    obtain ⟨r, -, hr, hshaken⟩ := (horder 0 p hp).1 before e after hlog hblock
    obtain rfl := Option.some.inj (hr.symm.trans hslot)
    exact ⟨before, e, after, hlog, hblock, hshaken⟩

end Company
end StreamConformance
