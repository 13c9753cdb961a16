import StreamConformance.Proofs.Signals
import StreamConformance.Proofs.Trial.Marbles

/-!
# The script of a channel is played

Each signal of a marble is decided on in a section of the emitter, which may have to wait for
demand, and is told to the peer when that section is over.  Meanwhile the peer asks the emitter for
items, or for the end, on any thread it likes, also while it is being told a signal.

A recital is a trial together with what it has made of the script of one channel.  Between any two
turns of the trial another thread may perform any task, and the far side may change in any way.

* `Recital.Step`, `Recital.Reach`: what recitals do.
* `Recital.Recites`: what is kept by every step; `Recital.Recites.step` has a lemma for each.
* `Recital.told_of_reach`: what the peer is told of the script.
-/

namespace StreamConformance

variable {σ τ : Type} {env : Environment σ τ} {i : Nat} {r : Handle}

namespace Trial

/-- The signal of the script of the channel `i` that is sent when the trial does its first job. -/
def emission? (i : Nat) (t : Trial σ τ) : Option (Signal Payload) :=
  match t.jobs, t.scripted? i with
  | .play i' (s :: _) :: _, some p =>
    if i' = i ∧ (p.emitter.emit s).isSent = true then some s else none
  | _, _ => none

/-- The signal of the script of the channel `i` that the receiver `r` is told when the trial does
its first job. -/
def delivery? (i : Nat) (r : Handle) (t : Trial σ τ) : Option (Signal Payload) :=
  match t.jobs with
  | .task (.tell (.heard r' s)) :: .play i' _ :: _ =>
    if r' = r ∧ i' = i then some s else none
  | _ => none

theorem delivery?_eq_none {t : Trial σ τ} (h : t.jobs.IsChain (Job.Apart i)) (r : Handle) :
    t.delivery? i r = none := by
  unfold delivery?
  split
  · rename_i r' s i' signals rest hjobs
    rw [hjobs] at h
    exact if_neg fun heq => (List.isChain_cons_cons.mp h).1 heq.2
  · rfl

/-- What the trial sends, if its first job plays a marble. -/
theorem emission?_of_play {t : Trial σ τ} {p : ScriptedProducer} {s : Signal Payload}
    {signals : List (Signal Payload)} {rest : List (Job τ)}
    (hjobs : t.jobs = .play i (s :: signals) :: rest) (hp : t.scripted? i = some p) :
    t.emission? i = if (p.emitter.emit s).isSent = true then some s else none := by
  unfold emission?
  rw [hjobs, hp]
  simp

theorem emission?_eq_none {t : Trial σ τ} {j : Job τ} {rest : List (Job τ)}
    (hjobs : t.jobs = j :: rest) (hj : ∀ s signals, j ≠ .play i (s :: signals)) :
    t.emission? i = none := by
  unfold emission?
  rw [hjobs]
  split
  · rename_i i' s signals rest' p heq hp
    obtain rfl := (List.cons.inj heq).1
    exact if_neg fun hi => hj s signals (by rw [hi.1])
  · rfl

end Trial

/-! ## Recitals -/

/-- A trial, and what it has made of the script of a channel. -/
structure Recital (σ τ : Type) where
  trial : Trial σ τ
  /-- The signals that the emitter has decided to send, in order. -/
  sent : List (Signal Payload) := []
  /-- The signals that the peer was told, in order. -/
  told : List (Signal Payload) := []
  /-- What the emitter was asked for, in order. -/
  asked : List Ask := []
  /-- The thread of the trial has come to an end, by a fault or a panic. -/
  ended : Bool := false

namespace Recital

/-- A step of the trial, of another thread or of the far side; `r` is the peer of the channel `i`. -/
inductive Step (env : Environment σ τ) (i : Nat) (r : Handle) :
    Recital σ τ → Recital σ τ → Prop where
  /-- The trial does its first job. -/
  | turn {c : Recital σ τ} {t : Trial σ τ} (hopen : c.ended = false)
      (h : c.trial.turn env = .next t) :
      Step env i r c
        { c with
          trial := t
          sent := c.sent ++ (c.trial.emission? i).toList
          told := c.told ++ (c.trial.delivery? i r).toList
          asked := c.asked ++ (c.trial.jobs.head?.bind (Job.asks? i)).toList }
  /-- The window that the trial waits for is over. -/
  | window {c : Recital σ τ} {i' baseline milliseconds : Nat} {jobs : List (Job τ)}
      (hopen : c.ended = false) (h : c.trial.jobs = .window i' baseline milliseconds :: jobs) :
      Step env i r c { c with trial := c.trial.closeWindow }
  /-- The far side makes calls while the trial waits. -/
  | interrupt {c : Recital σ τ} {b : Blocked} (hopen : c.ended = false)
      (h : c.trial.turn env = .blocked b) (far : σ) (calls : List (Call τ)) :
      Step env i r c { c with trial := c.trial.interrupt far calls }
  /-- A fault or a panic. -/
  | stop {c : Recital σ τ} {t : Trial σ τ} (hopen : c.ended = false)
      (h : (c.trial.turn env).stopped? = some t) :
      Step env i r c { c with trial := t, ended := true }
  /-- Another thread performs a task. -/
  | thread {c : Recital σ τ} (t : Task τ) :
      Step env i r c
        { c with
          trial := { c.trial with exchange := (c.trial.exchange.perform env t).1 }
          asked := c.asked ++ ((Job.task t).asks? i).toList }
  /-- The far side changes. -/
  | outside {c : Recital σ τ} (far : σ) :
      Step env i r c
        { c with trial := { c.trial with exchange := { c.trial.exchange with far := far } } }

/-- Some steps, one after another. -/
abbrev Reach (env : Environment σ τ) (i : Nat) (r : Handle) :
    Recital σ τ → Recital σ τ → Prop :=
  Relation.ReflTransGen (Step env i r)

end Recital

/-! ## What is kept -/

namespace Recital

variable {script : List (Signal Payload)} {p p' : ScriptedProducer} {c d : Recital σ τ}

/-- What has become of a script: `p` is its producer, and `r` the peer. -/
structure Recites (i : Nat) (r : Handle) (script : List (Signal Payload)) (p : ScriptedProducer)
    (c : Recital σ τ) : Prop where
  scripted : c.trial.scripted? i = some p
  remote : p.remote = some r
  account : p.emitter.Accounts c.asked c.sent
  /-- Only the first job may tell the peer a signal of the script. -/
  apart : c.trial.jobs.tail.IsChain (Job.Apart i)
  told : c.told ++ (c.trial.delivery? i r).toList = c.sent
  /-- As long as the emitter is open nothing of the script is lost. -/
  left : p.emitter.isClosed = false → c.ended = false →
    c.sent ++ (c.trial.marbles i).flatten = script
  sent : c.sent <+: Signal.untilEnd script
  finished : p.emitter.finished = true → c.sent = Signal.untilEnd script

/-- Nothing is sent. -/
theorem Recites.keep (h : c.Recites i r script p) {t : Trial σ τ} {told : List (Signal Payload)}
    {asked : List Ask} {ended : Bool} (hp : t.scripted? i = some p') (hr : p'.remote = some r)
    (hgoes : Emitter.Goes [] asked p.emitter p'.emitter)
    (hapart : t.jobs.tail.IsChain (Job.Apart i))
    (htold : told ++ (t.delivery? i r).toList = c.sent)
    (hleft : p.emitter.isClosed = false → ended = false →
      c.sent ++ (t.marbles i).flatten = script) :
    Recites i r script p' ⟨t, c.sent, told, c.asked ++ asked, ended⟩ := by
  have haccount := h.account.goes hgoes
  rw [List.append_nil] at haccount
  refine ⟨hp, hr, haccount, hapart, htold, fun hopen hended => ?_, h.sent, fun hfinished => ?_⟩
  · refine hleft (Bool.eq_false_iff.mpr fun hclosed => ?_) hended
    rw [(hgoes.isClosed hclosed).2] at hopen
    cases hopen
  · exact h.finished (h.account.finished.mpr (haccount.finished.mp hfinished))

/-- Nothing is sent, and no signal of the script is on its way any more. -/
theorem Recites.advance (h : c.Recites i r script p) {t : Trial σ τ} {asked : List Ask}
    {ended : Bool} (hp : t.scripted? i = some p') (hr : p'.remote = some r)
    (hgoes : Emitter.Goes [] asked p.emitter p'.emitter) (hjobs : t.jobs.IsChain (Job.Apart i))
    (hleft : p.emitter.isClosed = false → ended = false →
      c.sent ++ (t.marbles i).flatten = script) :
    Recites i r script p' ⟨t, c.sent, c.sent, c.asked ++ asked, ended⟩ := by
  refine h.keep hp hr hgoes hjobs.tail ?_ hleft
  rw [Trial.delivery?_eq_none hjobs]
  exact List.append_nil _

/-- A signal is sent, and is on its way to the peer. -/
theorem Recites.send (h : c.Recites i r script p) (hended : c.ended = false)
    {s : Signal Payload} {signals : List (Signal Payload)} {rest : List (Job τ)}
    (hjobs : c.trial.jobs = .play i (s :: signals) :: rest) {emitter : Emitter}
    (hemit : p.emitter.emit s = .sent emitter) {t : Trial σ τ}
    (hp : t.scripted? i = some { p with emitter := emitter })
    (ht : t.jobs = .task (.tell (.heard r s)) :: .play i signals :: rest) :
    Recites i r script { p with emitter := emitter }
      ⟨t, c.sent ++ [s], c.sent, c.asked ++ [], c.ended⟩ := by
  have hgoes := Emitter.goes_emit hemit
  have haccount := h.account.goes hgoes
  have hopen : p.emitter.isClosed = false := by
    by_contra hclosed
    exact absurd (hgoes.isClosed ((Bool.not_eq_false _).mp hclosed)).1 (by simp)
  have hitems := h.account.items hopen
  have hscript : script = c.sent ++ s :: (signals ++ (rest.flatMap (Job.marbles i)).flatten) := by
    rw [← h.left hopen hended, Trial.marbles, hjobs]
    simp [Job.marbles]
  refine ⟨hp, h.remote, haccount, ?_, ?_, fun _ _ => ?_, ?_, fun hfinished => ?_⟩
  · have hrest := h.apart
    rw [hjobs] at hrest
    rw [ht]
    exact Job.isChain_cons_of_silent (by simp) hrest
  · show c.sent ++ (t.delivery? i r).toList = c.sent ++ [s]
    unfold Trial.delivery?
    rw [ht]
    simp
  · show c.sent ++ [s] ++ (t.marbles i).flatten = script
    rw [hscript, Trial.marbles, ht]
    simp [Job.marbles]
  · show c.sent ++ [s] <+: _
    rw [hscript]
    exact Signal.concat_prefix_untilEnd hitems s _
  · -- Only the signal itself can have finished the emitter, which was open.
    show c.sent ++ [s] = _
    obtain ⟨s', hs', hterminal⟩ := haccount.finished.mp hfinished
    rcases List.mem_append.mp hs' with hs' | hs'
    · rw [hitems s' hs'] at hterminal
      cases hterminal
    · obtain rfl := List.mem_singleton.mp hs'
      rw [hscript, Signal.untilEnd_append_of_terminal hitems hterminal]

/-- **The trial does its first job.** -/
theorem Recites.turn (h : c.Recites i r script p) (hended : c.ended = false) {t : Trial σ τ}
    (hturn : c.trial.turn env = .next t) :
    ∃ p', Emitter.Goes (c.trial.emission? i).toList
        (c.trial.jobs.head?.bind (Job.asks? i)).toList p.emitter p'.emitter ∧
      Recites i r script p' ⟨t, c.sent ++ (c.trial.emission? i).toList,
        c.told ++ (c.trial.delivery? i r).toList,
        c.asked ++ (c.trial.jobs.head?.bind (Job.asks? i)).toList, c.ended⟩ := by
  rw [Trial.turn] at hturn
  cases hjobs : c.trial.jobs with
  | nil =>
    rw [hjobs] at hturn
    cases hturn
  | cons j rest =>
    rw [hjobs] at hturn
    have hp : ({ c.trial with jobs := rest } : Trial σ τ).scripted? i = some p := h.scripted
    have hrest : rest.IsChain (Job.Apart i) := by
      have hapart := h.apart
      rwa [hjobs] at hapart
    obtain ⟨new, p', hnew, hp', hplays⟩ := Trial.goesOn_of_perform hp h.remote hturn
    rw [List.head?_cons, Option.bind_some, h.told]
    cases hplays with
    | @send s signals emitter hemit =>
      rw [Trial.emission?_of_play hjobs h.scripted, hemit]
      exact ⟨{ p with emitter := emitter }, Emitter.goes_emit hemit,
        h.send hended hjobs hemit hp' hnew⟩
    | @refuse s signals hclosed =>
      rw [Trial.emission?_of_play hjobs h.scripted, Emitter.refused_of_isClosed hclosed]
      show ∃ p', _ ∧ Recites i r script p' ⟨t, c.sent ++ [], c.sent, c.asked ++ [], c.ended⟩
      rw [List.append_nil]
      exact ⟨p, .rest, h.advance hp' h.remote .rest (hnew ▸ hrest) fun hopen =>
        absurd (hclosed.symm.trans hopen) (by simp)⟩
    | other hj hremote hgoes hscript happart =>
      rw [Trial.emission?_eq_none hjobs hj, Option.toList_none, List.append_nil]
      refine ⟨p', hgoes, h.advance hp' hremote hgoes (hnew ▸ happart rest hrest)
        fun hopen hended => ?_⟩
      rw [← h.left hopen hended, Trial.marbles, hnew, List.flatMap_append, List.flatten_append,
        hscript, Trial.marbles, hjobs, List.flatMap_cons, List.flatten_append]

/-- The first job tells the peer nothing of the script unless it is a task. -/
theorem Recites.isChain (h : c.Recites i r script p)
    (hfirst : ∀ t rest, c.trial.jobs ≠ .task t :: rest) :
    c.trial.jobs.IsChain (Job.Apart i) ∧ c.told = c.sent := by
  have hchain : c.trial.jobs.IsChain (Job.Apart i) := by
    have hapart := h.apart
    cases hjobs : c.trial.jobs with
    | nil => exact .nil
    | cons j rest =>
      rw [hjobs] at hapart
      refine Job.isChain_cons_of_silent (fun r s heq => ?_) hapart
      exact hfirst _ rest (by rw [hjobs, heq])
  refine ⟨hchain, ?_⟩
  have htold := h.told
  rwa [Trial.delivery?_eq_none hchain, Option.toList_none, List.append_nil] at htold

/-- The emitter is not concerned, and no signal of the script is on its way. -/
theorem Recites.pause (h : c.Recites i r script p) {t : Trial σ τ} {ended : Bool}
    (hp : t.scripted? i = some p) (hjobs : t.jobs.IsChain (Job.Apart i)) (htold : c.told = c.sent)
    (hleft : p.emitter.isClosed = false → ended = false →
      c.sent ++ (t.marbles i).flatten = script) :
    Recites i r script p { c with trial := t, ended := ended } := by
  obtain ⟨trial, sent, told, asked, started⟩ := c
  obtain rfl : told = sent := htold
  have hd := h.advance hp h.remote .rest hjobs hleft
  rwa [List.append_nil] at hd

/-- The window that the trial waits for is over. -/
theorem Recites.window (h : c.Recites i r script p) {k baseline ms : Nat} {rest : List (Job τ)}
    (hjobs : c.trial.jobs = .window k baseline ms :: rest) :
    Recites i r script p { c with trial := c.trial.closeWindow } := by
  obtain ⟨hchain, htold⟩ := h.isChain fun t rest heq => by rw [hjobs] at heq; cases heq
  have hwindow : c.trial.closeWindow = { c.trial with jobs := rest }.atReceiver k fun r =>
      r.modify fun c => c.record (c.isQuietSince baseline) := by
    rw [Trial.closeWindow, hjobs]
  have hrest : c.trial.closeWindow.jobs = rest := by
    rw [hwindow]
    unfold Trial.atReceiver
    split <;> rfl
  refine h.pause ?_ ?_ htold fun hopen hended => ?_
  · rw [hwindow]
    exact (Exchange.scripted?_congr (Trial.producer?_atReceiver k i _)).trans h.scripted
  · rw [hjobs] at hchain
    exact hrest ▸ hchain.tail
  · rw [← h.left hopen hended, Trial.marbles, hrest, Trial.marbles, hjobs]
    rfl

/-- The far side makes calls while the trial waits. -/
theorem Recites.interrupt (h : c.Recites i r script p) {b : Blocked}
    (hblocked : c.trial.turn env = .blocked b) (far : σ) (calls : List (Call τ)) :
    Recites i r script p { c with trial := c.trial.interrupt far calls } := by
  obtain ⟨hchain, htold⟩ := h.isChain (Trial.not_task_of_blocked hblocked)
  refine h.pause h.scripted ?_ htold fun hopen hended => ?_
  · refine Job.isChain_append_of_silent (fun j hj => ?_) hchain
    obtain ⟨call, -, rfl⟩ := List.mem_map.mp hj
    simp
  · rw [← h.left hopen hended, Trial.marbles, Trial.interrupt, Trial.push, List.flatMap_append,
      List.flatMap_eq_nil_iff.mpr fun j hj => ?_]
    · rfl
    · obtain ⟨call, -, rfl⟩ := List.mem_map.mp hj
      rfl

/-- The trial stops.  It is not about to tell the peer anything then. -/
theorem Recites.stop (h : c.Recites i r script p) {t : Trial σ τ}
    (hstopped : (c.trial.turn env).stopped? = some t) :
    Recites i r script p { c with trial := t, ended := true } := by
  obtain ⟨hstops, htask⟩ := Trial.stops_of_turn hstopped
  have hdelivery : c.trial.delivery? i r = none := by
    unfold Trial.delivery?
    split
    · rename_i hjobs
      obtain ⟨p, hp⟩ := htask _ _ hjobs
      cases hp
    · rfl
  have htold := h.told
  rw [hdelivery, Option.toList_none, List.append_nil] at htold
  refine h.pause ((Exchange.scripted?_congr (hstops.producer i)).trans h.scripted) ?_ htold (by simp)
  rw [hstops.jobs]
  exact .nil

/-- **What a step comes to.** -/
theorem Recites.step (h : c.Recites i r script p) (hstep : Step env i r c d) :
    ∃ p' sent asked, Emitter.Goes sent asked p.emitter p'.emitter ∧
      d.sent = c.sent ++ sent ∧ d.asked = c.asked ++ asked ∧ d.Recites i r script p' := by
  have hquiet {d : Recital σ τ} (hd : d.Recites i r script p) (hsent : d.sent = c.sent)
      (hasked : d.asked = c.asked) : ∃ p' sent asked,
        Emitter.Goes sent asked p.emitter p'.emitter ∧
          d.sent = c.sent ++ sent ∧ d.asked = c.asked ++ asked ∧ d.Recites i r script p' :=
    ⟨p, [], [], .rest, by rw [hsent, List.append_nil], by rw [hasked, List.append_nil], hd⟩
  cases hstep with
  | turn hopen hturn =>
    obtain ⟨p', hgoes, hd⟩ := h.turn hopen hturn
    exact ⟨p', _, _, hgoes, rfl, rfl, hd⟩
  | window hopen hjobs => exact hquiet (h.window hjobs) rfl rfl
  | interrupt hopen hblocked far calls => exact hquiet (h.interrupt hblocked far calls) rfl rfl
  | stop hopen hstopped => exact hquiet (h.stop hstopped) rfl rfl
  | thread t =>
    obtain ⟨p', hp', hr', hgoes⟩ := Exchange.goes_perform env t h.scripted h.remote
    exact ⟨p', [], _, hgoes, (List.append_nil _).symm, rfl,
      h.keep hp' hr' hgoes h.apart h.told h.left⟩
  | outside far =>
    exact hquiet ⟨h.scripted, h.remote, h.account, h.apart, h.told, h.left, h.sent, h.finished⟩
      rfl rfl

/-- **What holds of a script** holds whatever the others do. -/
theorem Recites.reach (h : c.Recites i r script p) (hreach : Reach env i r c d) :
    ∃ p', d.Recites i r script p' := by
  induction hreach with
  | refl => exact ⟨p, h⟩
  | tail _ hstep ih =>
    obtain ⟨p', h'⟩ := ih
    obtain ⟨p'', -, -, -, -, -, hd⟩ := h'.step hstep
    exact ⟨p'', hd⟩

/-! ## What the peer is told -/

/-- A trial is about to play the script of a channel. -/
def start (t : Trial σ τ) : Recital σ τ where
  trial := t

theorem recites_start {t : Trial σ τ} (hp : t.scripted? i = some p) (hfresh : p.emitter = {})
    (hr : p.remote = some r) (hjobs : t.jobs.IsChain (Job.Apart i)) :
    (start t).Recites i r (t.marbles i).flatten p where
  scripted := hp
  remote := hr
  account := by
    rw [hfresh]
    exact Emitter.accounts_fresh
  apart := hjobs.tail
  told := by
    rw [start, Trial.delivery?_eq_none hjobs]
    rfl
  left _ _ := rfl
  sent := List.nil_prefix
  finished hfinished := by
    rw [hfresh] at hfinished
    cases hfinished

/-- No signal is on its way once all marbles have been played. -/
theorem delivery?_of_marbles {t : Trial σ τ} (h : t.marbles i = []) : t.delivery? i r = none := by
  unfold Trial.delivery?
  split
  · rename_i r' s i' signals rest hjobs
    refine if_neg fun heq => ?_
    rw [Trial.marbles, hjobs, heq.2] at h
    simp [Job.marbles] at h
  · rfl

/-- **What a channel makes of its script.**  A trial has marbles to play on a channel, of which the
emitter is fresh; meanwhile others do what they like.  Then, at any time:

* what the peer was told is a prefix of all the marbles, cut off after their first completion or
  error, and has no more items than the emitter was asked for;
* what happens next, an item uses a unit of demand that is there, and a completion or an error none;
* once a completion or an error was sent, or the emitter was canceled, every signal is refused, and
  the marbles that are left are dropped without any wait;
* if there was no cancellation and all marbles have been played, the peer was told all up to the
  first completion or error, and what is left of the demand is what the items have not used, unless
  the sum is too large to be held. -/
theorem told_of_reach {t : Trial σ τ} (hp : t.scripted? i = some p) (hfresh : p.emitter = {})
    (hr : p.remote = some r) (hjobs : t.jobs.IsChain (Job.Apart i))
    (h : Reach env i r (start t) c) :
    ∃ q, c.trial.scripted? i = some q ∧
      (c.told <+: Signal.untilEnd (t.marbles i).flatten ∧ EndsOnce c.told ∧
        (c.told.filterMap Signal.item?).length ≤ (c.asked.map Ask.amount).sum) ∧
      (∀ d, Step env i r c d → ∃ q' sent asked, d.trial.scripted? i = some q' ∧
        d.sent = c.sent ++ sent ∧ d.asked = c.asked ++ asked ∧
          Emitter.Goes sent asked q.emitter q'.emitter) ∧
      ((∃ s ∈ c.sent, s.isTerminal = true) ∨ .cancel ∈ c.asked →
        (∀ s, q.emitter.emit s = .refused) ∧
          ∀ s signals rest, c.trial.jobs = .play i (s :: signals) :: rest →
            c.trial.turn env = .next { c.trial with jobs := rest }) ∧
      (.cancel ∉ c.asked → c.ended = false → c.trial.marbles i = [] →
        c.told = Signal.untilEnd (t.marbles i).flatten ∧
          ((c.asked.map Ask.amount).sum ≤ Demand.limit → q.emitter.demand =
            (c.asked.map Ask.amount).sum - (c.told.filterMap Signal.item?).length)) := by
  obtain ⟨q, hq⟩ := (recites_start hp hfresh hr hjobs).reach h
  have htold : c.told <+: c.sent := by
    rw [← hq.told]
    exact List.prefix_append ..
  have hscript := htold.trans hq.sent
  refine ⟨q, hq.scripted, ⟨hscript, ?_, ?_⟩, fun d hstep => ?_, fun hclosed => ?_, ?_⟩
  · exact (endsOnce_untilEnd _).sublist hscript.sublist
  · have hle := (htold.filterMap Signal.item?).length_le
    have hsum := hq.account.le
    omega
  · obtain ⟨q', sent, asked, hgoes, hsent, hasked, hd⟩ := hq.step hstep
    exact ⟨q', sent, asked, hd.scripted, hsent, hasked, hgoes⟩
  · have hrefused := Emitter.refused_of_isClosed (hq.account.isClosed_iff.mpr hclosed)
    refine ⟨hrefused, fun s signals rest hplay => ?_⟩
    rw [Trial.turn, hplay]
    show Trial.emitFirst i s signals _ = _
    have hscripted : ({ c.trial with jobs := rest } : Trial σ τ).scripted? i = some q := hq.scripted
    rw [Trial.emitFirst, hscripted]
    dsimp only
    rw [hrefused]
  · intro hcancel hended hmarbles
    have heq := hq.told
    rw [delivery?_of_marbles hmarbles, Option.toList_none, List.append_nil] at heq
    rw [heq]
    refine ⟨?_, fun hsum => ?_⟩
    · cases hclosed : q.emitter.isClosed with
      | true =>
        refine hq.finished ?_
        rw [Emitter.isClosed, Bool.or_eq_true] at hclosed
        exact hclosed.resolve_left fun hcanceled => hcancel (hq.account.canceled.mp hcanceled)
      | false =>
        have hall := hq.left hclosed hended
        rw [hmarbles, List.flatten_nil, List.append_nil] at hall
        rw [← hall, Signal.untilEnd_of_open (hq.account.items hclosed)]
    · have hall := hq.account.eq hsum
      omega

/-! ### Recitals that can be computed -/

/-- The trial takes its turn, or, if a task is given, another thread performs that. -/
def next (env : Environment σ τ) (i : Nat) (r : Handle) (c : Recital σ τ) :
    Option (Task τ) → Recital σ τ
  | none =>
    match c.ended, c.trial.turn env with
    | false, .next t =>
      { c with
        trial := t
        sent := c.sent ++ (c.trial.emission? i).toList
        told := c.told ++ (c.trial.delivery? i r).toList
        asked := c.asked ++ (c.trial.jobs.head?.bind (Job.asks? i)).toList }
    | _, _ => c
  | some t =>
    { c with
      trial := { c.trial with exchange := (c.trial.exchange.perform env t).1 }
      asked := c.asked ++ ((Job.task t).asks? i).toList }

theorem reach_next (env : Environment σ τ) (i : Nat) (r : Handle) (c : Recital σ τ)
    (m : Option (Task τ)) : Reach env i r c (c.next env i r m) := by
  cases m with
  | none =>
    unfold next
    dsimp only
    split
    · rename_i t hended hturn
      exact .single (.turn hended hturn)
    · exact .refl
  | some t => exact .single (.thread t)

/-- Moves are made one after another. -/
def play (env : Environment σ τ) (i : Nat) (r : Handle) (moves : List (Option (Task τ)))
    (c : Recital σ τ) : Recital σ τ :=
  moves.foldl (fun c m => c.next env i r m) c

theorem reach_play (env : Environment σ τ) (i : Nat) (r : Handle) (moves : List (Option (Task τ)))
    (c : Recital σ τ) : Reach env i r c (c.play env i r moves) := by
  induction moves generalizing c with
  | nil => exact .refl
  | cons m moves ih => exact (reach_next env i r c m).trans (ih (c.next env i r m))

namespace Encore

/-- A peer that asks for one more item whenever it is told one. -/
def peer : Environment Unit Unit where
  dial _ := none
  react e _ := ((), match e with
    | .heard _ (.next _) => [.ask 0 (.request 1)]
    | _ => [])
  idle _ := none

def handle : Handle := { connection := 0, stream := 1 }

def item (data : String) : Payload := ⟨data, data⟩

/-- Three marbles, of which the second completes. -/
def marbles : List (List (Signal Payload)) :=
  [[.next (item "a"), .next (item "b")], [.complete, .next (item "c")], [.next (item "d")]]

/-- The marbles are to be played. -/
def trial : Trial Unit Unit where
  name := "t"
  exchange :=
    { far := ()
      interactions :=
        #[{ receiver := .payloads { label := "t/channel", initialDemand := channelInitialDemand }
            producer := .scripted { initial := .sent, remote := some handle } }] }
  jobs := marbles.map (.play 0)

/-- The peer asks for an item, and the trial takes its turns. -/
def played : Recital Unit Unit :=
  (start trial).play peer 0 handle (some (.passOn 0 (.request 1)) :: List.replicate 13 none)

/-- The marbles are told up to the completion, and a unit of demand is left. -/
theorem told_of_reach_played : Reach peer 0 handle (start trial) played ∧
    played.told = [.next (item "a"), .next (item "b"), .complete] ∧
    (played.trial.scripted? 0).map (·.emitter.demand) = some 1 := by
  have hreach : Reach peer 0 handle (start trial) played := reach_play _ _ _ _ _
  have hjobs : trial.jobs.IsChain (Job.Apart 0) := by simp [trial, marbles, Job.Apart]
  obtain ⟨q, hq, -, -, -, hall⟩ := told_of_reach rfl rfl rfl hjobs hreach
  obtain ⟨htold, hdemand⟩ := hall (by decide +kernel) (by decide +kernel) (by decide +kernel)
  rw [Trial.marbles_of_jobs rfl] at htold
  refine ⟨hreach, htold.trans (by decide +kernel), ?_⟩
  rw [hq, Option.map_some, hdemand (by decide +kernel)]
  decide +kernel

end Encore

end Recital
end StreamConformance
