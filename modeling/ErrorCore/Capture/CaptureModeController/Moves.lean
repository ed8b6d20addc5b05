import ErrorCore.Capture.CaptureModeController

/-!
# What a step of the controller does

A step is a move of one transition that has its turn, or comes from outside the
chain. `Moves` lists the moves with the fields they leave behind and the
progress of the transition after them; `Environment` says what a step from
outside keeps. All invariants of the controller are proved by these cases.
-/

namespace ErrorCore.CaptureModeController

open PromiseChain

variable {cfg : Config} {s t u : State} {a : Action} {k : Nat} {job : ModeTransition}
variable {progress : Progress} {before : Snapshot}

namespace State

@[simp] theorem setProgress_modeState : (s.setProgress k progress).modeState = s.modeState := rfl

@[simp] theorem setProgress_adaptivePhase :
    (s.setProgress k progress).adaptivePhase = s.adaptivePhase := rfl

@[simp] theorem setProgress_installed : (s.setProgress k progress).installed = s.installed := rfl

@[simp] theorem setProgress_lifecycle : (s.setProgress k progress).lifecycle = s.lifecycle := rfl

@[simp] theorem setProgress_clock : (s.setProgress k progress).clock = s.clock := rfl

@[simp] theorem setProgress_history : (s.setProgress k progress).history = s.history := rfl

@[simp] theorem setProgress_timestamps :
    (s.setProgress k progress).adaptiveSwitchTimestamps = s.adaptiveSwitchTimestamps := rfl

theorem setProgress_transitions (hk : s.transitions[k]? = some job) :
    (s.setProgress k progress).transitions =
      s.transitions.set k { job with progress := progress } := by
  apply List.ext_getElem?
  intro i
  simp only [setProgress, List.getElem?_modify, List.getElem?_set]
  have hlt : k < s.transitions.length := (List.getElem?_eq_some_iff.mp hk).1
  by_cases hki : k = i
  · subst hki
    rw [if_pos rfl, if_pos hlt, hk]
    simp
  · simp [hki]

/-- The transition may move: it runs, or it waits and the one before it has settled. -/
def HasTurn (s : State) (job : ModeTransition) : Prop :=
  PromiseChain.HasTurn ModeTransition.stage ModeTransition.link s.transitions job

theorem released_iff :
    s.released job = true ↔ Released ModeTransition.stage s.transitions job.link := by
  unfold released Released
  cases job.link with
  | none => simp
  | some p =>
      cases hp : s.transitions[p]? with
      | none => simp [hp]
      | some other => simp [hp]

end State

/-! ## Moves -/

/-- The state in which the transition calls `applyCaptureMode`. -/
inductive Begins (cfg : Config) (s : State) (job : ModeTransition) : State → Prop
  | manual {mode : CaptureMode} (intent : job.intent = .manual mode) : Begins cfg s job s
  | adaptive {target : CaptureMode} {generation : Nat}
      (intent : job.intent = .adaptive target generation)
      (generation_eq : generation = s.adaptiveIntentGeneration)
      (active : s.lifecycle = .active) (current : s.isCurrentAdaptiveTransition cfg target)
      (rate : ¬ s.pruneSwitchTimestamps.switchRateExceeded cfg) :
      Begins cfg s job s.pruneSwitchTimestamps
  | pinned {generation : Nat}
      (intent : job.intent = .adaptive cfg.adaptiveCapture.escalated generation)
      (generation_eq : generation = s.adaptiveIntentGeneration)
      (active : s.lifecycle = .active)
      (current : s.isCurrentAdaptiveTransition cfg cfg.adaptiveCapture.escalated)
      (rate : s.pruneSwitchTimestamps.switchRateExceeded cfg) :
      Begins cfg s job s.pruneSwitchTimestamps.pin

/-- The transition goes on with these recorder callbacks, or publishes its mode after the last. -/
inductive Recorders (s : State) (job : ModeTransition) (run : Switch) :
    List Callback → State → Progress → Prop
  | switching {callback : Callback} {rest : List Callback} :
      Recorders s job run (callback :: rest) s (.switching run (callback :: rest))
  | published :
      Recorders s job run [] ({ s with modeState := run.next }.record
        (.published job.intent job.admitted))
        (.published run (resourceCallbacks run.wasActive run.previous run.next))

/-- The assignments of `applyAdaptiveCaptureMode` after a switch. -/
def State.stampSwitch (s : State) (now : Int) : State :=
  { s with
    history := .switched now (s.adaptivePhase = .pinned) :: s.history
    adaptiveSwitchTimestamps := s.adaptiveSwitchTimestamps ++ [now] }

def State.escalatedPhase (s : State) : AdaptiveCapturePhase :=
  if s.adaptivePhase = .pinned then .pinned else .escalated

/-- The end of a transition whose mode is in force. -/
inductive Finishes (cfg : Config) (s : State) (job : ModeTransition) (now : Int)
    (before : Snapshot) : State → Progress → Prop
  | rearmManual {mode : CaptureMode} (intent : job.intent = .manual mode)
      (rearms : s.rearmsAfterManual cfg mode before.adaptivePhase) :
      Finishes cfg s job now before (s.reconcileManualAdaptiveState cfg mode) (.rearming before)
  | manual {mode : CaptureMode} (intent : job.intent = .manual mode) :
      Finishes cfg s job now before
        ((s.reconcileManualAdaptiveState cfg mode).record (.resolved mode job.admitted))
        (.settled (.resolved before (s.reconcileManualAdaptiveState cfg mode).snapshot))
  | escalated {generation : Nat}
      (intent : job.intent = .adaptive cfg.adaptiveCapture.escalated generation) :
      Finishes cfg s job now before
        { s.stampSwitch now with
          adaptivePhase := s.escalatedPhase
          adaptiveLastEscalationAt := some now }
        (.rearming before)
  | deescalated {target : CaptureMode} {generation : Nat}
      (intent : job.intent = .adaptive target generation)
      (target_ne : target ≠ cfg.adaptiveCapture.escalated) :
      Finishes cfg s job now before { s.stampSwitch now with adaptivePhase := .base }
        (.settled (.resolved before
          { s.stampSwitch now with adaptivePhase := .base }.snapshot))

/-- A move of the `k`th transition: the action, the fields after it, and the new progress. -/
inductive Moves (cfg : Config) (s : State) (k : Nat) (job : ModeTransition) :
    Action → State → Progress → Prop
  | cancelled (queued : job.progress = .queued) :
      Moves cfg s k job (.start k) s (.settled .cancelled)
  | refused {target : CaptureMode} {generation : Nat} (queued : job.progress = .queued)
      (intent : job.intent = .adaptive target generation)
      (current : s.isCurrentAdaptiveTransition cfg target)
      (target_ne : target ≠ cfg.adaptiveCapture.escalated) :
      Moves cfg s k job (.start k) s.pruneSwitchTimestamps.pin (.settled .cancelled)
  | failedStart {u : State} {message : String} (queued : job.progress = .queued)
      (begins : Begins cfg s job u)
      (error : u.applyCaptureMode cfg job.intent.target = .error message) :
      Moves cfg s k job (.start k) u (.settled (.rejected s.snapshot u.snapshot))
  | unchangedManual {mode : CaptureMode} {u : State} {progress : Progress}
      (queued : job.progress = .queued) (intent : job.intent = .manual mode)
      (unchanged : s.applyCaptureMode cfg mode = .ok none)
      (finishes : Finishes cfg s job s.clock s.snapshot u progress) :
      Moves cfg s k job (.start k) u progress
  | unchangedAdaptive {target : CaptureMode} {generation : Nat} {u : State}
      (queued : job.progress = .queued)
      (intent : job.intent = .adaptive target generation) (begins : Begins cfg s job u)
      (unchanged : u.applyCaptureMode cfg job.intent.target = .ok none) :
      Moves cfg s k job (.start k) u (.settled (.resolved s.snapshot u.snapshot))
  | begun {u v : State} {next : ModeState} {progress : Progress}
      (queued : job.progress = .queued) (begins : Begins cfg s job u)
      (changed : u.applyCaptureMode cfg job.intent.target = .ok (some next))
      (recorders : Recorders u job
        ⟨s.snapshot, u.modeState, next, u.lifecycle = .active, u.clock⟩
        (recorderCallbacks cfg.baseConfig.serverless (u.lifecycle = .active) u.modeState next)
        v progress) :
      Moves cfg s k job (.start k) v progress
  | recorderFailed {run : Switch} {callback : Callback} {rest : List Callback}
      {outcome : Outcome} (switching : job.progress = .switching run (callback :: rest))
      (fails : callback.fails outcome) :
      Moves cfg s k job (.callback k outcome) (s.afterCallback callback outcome)
        (.settled (.rejected run.before (s.afterCallback callback outcome).snapshot))
  | recorderReturned {run : Switch} {callback : Callback} {rest : List Callback}
      {outcome : Outcome} {u : State} {progress : Progress}
      (switching : job.progress = .switching run (callback :: rest))
      (returned : ¬ callback.fails outcome)
      (recorders : Recorders (s.afterCallback callback outcome) job run rest u progress) :
      Moves cfg s k job (.callback k outcome) u progress
  | resourceFailed {run : Switch} {callback : Callback} {rest : List Callback}
      {outcome : Outcome} (published : job.progress = .published run (callback :: rest))
      (fails : callback.fails outcome) :
      Moves cfg s k job (.callback k outcome) (s.afterCallback callback outcome)
        (.settled (.rejected run.before (s.afterCallback callback outcome).snapshot))
  | resourceReturned {run : Switch} {callback following : Callback} {rest : List Callback}
      {outcome : Outcome}
      (published : job.progress = .published run (callback :: following :: rest))
      (returned : ¬ callback.fails outcome) :
      Moves cfg s k job (.callback k outcome) (s.afterCallback callback outcome)
        (.published run (following :: rest))
  | completed {run : Switch} {callback : Callback} {outcome : Outcome} {u : State}
      {progress : Progress} (published : job.progress = .published run [callback])
      (returned : ¬ callback.fails outcome)
      (finishes : Finishes cfg
        { s.afterCallback callback outcome with switchCount := s.switchCount + 1 } job run.now
        run.before u progress) :
      Moves cfg s k job (.callback k outcome) u progress
  | rearmFailed {before : Snapshot} {outcome : Outcome}
      (rearming : job.progress = .rearming before)
      (fails : Callback.rearmAfterAdaptiveGuard.fails outcome) :
      Moves cfg s k job (.callback k outcome) s (.settled (.rejected before s.snapshot))
  | rearmed {before : Snapshot} {outcome : Outcome}
      (rearming : job.progress = .rearming before) :
      Moves cfg s k job (.callback k outcome) (s.recordResolved job)
        (.settled (.resolved before s.snapshot))

namespace State

variable {run : Switch} {callbacks : List Callback} {mode target : CaptureMode}

theorem continueRecorders_cases (s : State) (k : Nat) (job : ModeTransition) (run : Switch)
    (callbacks : List Callback) :
    ∃ u progress, s.continueRecorders k job run callbacks = u.setProgress k progress ∧
      Recorders s job run callbacks u progress := by
  cases callbacks with
  | nil => exact ⟨_, _, rfl, .published⟩
  | cons callback rest => exact ⟨_, _, rfl, .switching⟩

theorem finishManual_cases (now : Int) (hintent : job.intent = .manual mode) :
    ∃ u progress, s.finishManual cfg k job mode before = u.setProgress k progress ∧
      Finishes cfg s job now before u progress := by
  unfold finishManual
  split
  · next hrearm => exact ⟨_, _, rfl, .rearmManual hintent hrearm⟩
  · refine ⟨_, _, ?_, .manual hintent⟩
    simp only [resolve, recordResolved, hintent]
    rfl

theorem finishAdaptive_cases {generation : Nat} (now : Int)
    (hintent : job.intent = .adaptive target generation) :
    ∃ u progress, s.finishAdaptive cfg k job target now before = u.setProgress k progress ∧
      Finishes cfg s job now before u progress := by
  unfold finishAdaptive
  by_cases htarget : target = cfg.adaptiveCapture.escalated
  · rw [if_pos htarget]
    subst htarget
    exact ⟨_, _, rfl, .escalated hintent⟩
  · rw [if_neg htarget]
    refine ⟨_, _, ?_, .deescalated hintent htarget⟩
    simp only [resolve, recordResolved, hintent]
    rfl

theorem complete_cases (s : State) (cfg : Config) (k : Nat) (job : ModeTransition)
    (run : Switch) :
    ∃ u progress, s.complete cfg k job run = u.setProgress k progress ∧
      Finishes cfg { s with switchCount := s.switchCount + 1 } job run.now run.before u
        progress := by
  unfold complete
  cases hintent : job.intent with
  | manual mode => exact finishManual_cases run.now hintent
  | adaptive target generation => exact finishAdaptive_cases run.now hintent

theorem applyManualCaptureMode_cases (hqueued : job.progress = .queued)
    (hintent : job.intent = .manual mode) :
    ∃ u progress, s.applyManualCaptureMode cfg k job mode = u.setProgress k progress ∧
      Moves cfg s k job (.start k) u progress := by
  have htarget : job.intent.target = mode := by rw [hintent]; rfl
  unfold applyManualCaptureMode
  cases happly : s.applyCaptureMode cfg mode with
  | error message => exact ⟨_, _, rfl, .failedStart hqueued (.manual hintent) (htarget ▸ happly)⟩
  | ok changed =>
      cases changed with
      | none =>
          obtain ⟨u, progress, heq, hfinishes⟩ :=
            @finishManual_cases cfg s k job s.snapshot mode s.clock
              hintent
          exact ⟨u, progress, heq, .unchangedManual hqueued hintent happly hfinishes⟩
      | some next =>
          obtain ⟨u, progress, heq, hrecorders⟩ := continueRecorders_cases s k job
            ⟨s.snapshot, s.modeState, next, s.lifecycle = .active, s.clock⟩
            (recorderCallbacks cfg.baseConfig.serverless (s.lifecycle = .active) s.modeState next)
          exact ⟨u, progress, heq,
            .begun hqueued (.manual hintent) (htarget ▸ happly) hrecorders⟩

theorem switchAdaptively_cases {generation : Nat} (hqueued : job.progress = .queued)
    (hintent : job.intent = .adaptive target generation) (hbegins : Begins cfg s job u) :
    ∃ v progress,
      u.switchAdaptively cfg k job target s.snapshot = v.setProgress k progress ∧
      Moves cfg s k job (.start k) v progress := by
  have htarget : job.intent.target = target := by rw [hintent]; rfl
  unfold switchAdaptively
  cases happly : u.applyCaptureMode cfg target with
  | error message => exact ⟨_, _, rfl, .failedStart hqueued hbegins (htarget ▸ happly)⟩
  | ok changed =>
      cases changed with
      | none =>
          refine ⟨u, _, ?_, .unchangedAdaptive hqueued hintent hbegins (htarget ▸ happly)⟩
          simp only [resolve, recordResolved, hintent]
          rfl
      | some next =>
          obtain ⟨v, progress, heq, hrecorders⟩ := continueRecorders_cases u k job
            ⟨s.snapshot, u.modeState, next, u.lifecycle = .active, u.clock⟩
            (recorderCallbacks cfg.baseConfig.serverless (u.lifecycle = .active) u.modeState next)
          exact ⟨v, progress, heq, .begun hqueued hbegins (htarget ▸ happly) hrecorders⟩

theorem applyAdaptiveCaptureMode_cases {generation : Nat} (hqueued : job.progress = .queued)
    (hintent : job.intent = .adaptive target generation) :
    ∃ u progress,
      s.applyAdaptiveCaptureMode cfg k job target generation = u.setProgress k progress ∧
      Moves cfg s k job (.start k) u progress := by
  unfold applyAdaptiveCaptureMode
  split
  · exact ⟨_, _, rfl, .cancelled hqueued⟩
  · next hcurrent =>
      simp only [not_or, ne_eq, not_not] at hcurrent
      obtain ⟨hgeneration, hactive, hcurrent⟩ := hcurrent
      simp only
      split
      · next hrate =>
          by_cases htarget : target = cfg.adaptiveCapture.escalated
          · rw [if_neg (not_not.mpr htarget)]
            subst htarget
            exact switchAdaptively_cases hqueued hintent
              (.pinned hintent hgeneration hactive hcurrent hrate)
          · rw [if_pos htarget]
            exact ⟨_, _, rfl, .refused hqueued hintent hcurrent htarget⟩
      · next hrate =>
          exact switchAdaptively_cases hqueued hintent
            (.adaptive hintent hgeneration hactive hcurrent hrate)

theorem start_cases (h : s.start cfg k = some t) :
    ∃ job u progress, s.transitions[k]? = some job ∧ s.HasTurn job ∧
      Moves cfg s k job (.start k) u progress ∧ t = u.setProgress k progress := by
  unfold start at h
  cases hk : s.transitions[k]? with
  | none => simp [hk] at h
  | some job =>
      simp only [hk] at h
      split at h
      · next hstart =>
          have hturn : s.HasTurn job := by
            refine .inr ⟨?_, released_iff.mp hstart.2⟩
            rw [ModeTransition.stage, hstart.1]
            rfl
          cases hintent : job.intent with
          | manual mode =>
              simp only [hintent, Option.some.injEq] at h
              obtain ⟨u, progress, heq, hmoves⟩ :=
                applyManualCaptureMode_cases hstart.1 hintent
              exact ⟨job, u, progress, rfl, hturn, hmoves, h ▸ heq⟩
          | adaptive target generation =>
              simp only [hintent, Option.some.injEq] at h
              obtain ⟨u, progress, heq, hmoves⟩ :=
                applyAdaptiveCaptureMode_cases hstart.1 hintent
              exact ⟨job, u, progress, rfl, hturn, hmoves, h ▸ heq⟩
      · contradiction

theorem callbackReturns_cases {outcome : Outcome} (h : s.callbackReturns cfg k outcome = some t) :
    ∃ job u progress, s.transitions[k]? = some job ∧ s.HasTurn job ∧
      Moves cfg s k job (.callback k outcome) u progress ∧ t = u.setProgress k progress := by
  unfold callbackReturns at h
  cases hk : s.transitions[k]? with
  | none => simp [hk] at h
  | some job =>
      simp only [hk] at h
      split at h
      · next run callback rest hprogress =>
          have hturn : s.HasTurn job := .inl (by rw [ModeTransition.stage, hprogress]; rfl)
          split at h
          · simp only [Option.some.injEq, switchingReturns] at h
            split at h
            · next hfails =>
                exact ⟨job, _, _, rfl, hturn, .recorderFailed hprogress hfails, h.symm⟩
            · next hreturned =>
                obtain ⟨u, progress, heq, hrecorders⟩ :=
                  continueRecorders_cases (s.afterCallback callback outcome) k job run rest
                exact ⟨job, u, progress, rfl, hturn,
                  .recorderReturned hprogress hreturned hrecorders, h ▸ heq⟩
          · contradiction
      · next run callback rest hprogress =>
          have hturn : s.HasTurn job := .inl (by rw [ModeTransition.stage, hprogress]; rfl)
          split at h
          · simp only [Option.some.injEq, publishedReturns] at h
            split at h
            · next hfails =>
                exact ⟨job, _, _, rfl, hturn, .resourceFailed hprogress hfails, h.symm⟩
            · next hreturned =>
                cases rest with
                | cons following rest =>
                    exact ⟨job, _, _, rfl, hturn, .resourceReturned hprogress hreturned, h.symm⟩
                | nil =>
                    obtain ⟨u, progress, heq, hfinishes⟩ :=
                      complete_cases (s.afterCallback callback outcome) cfg k job run
                    exact ⟨job, u, progress, rfl, hturn,
                      .completed hprogress hreturned hfinishes, h ▸ heq⟩
          · contradiction
      · next before hprogress =>
          have hturn : s.HasTurn job := .inl (by rw [ModeTransition.stage, hprogress]; rfl)
          split at h
          · simp only [Option.some.injEq, rearmingReturns] at h
            split at h
            · next hfails =>
                exact ⟨job, _, _, rfl, hturn, .rearmFailed hprogress hfails, h.symm⟩
            · exact ⟨job, _, _, rfl, hturn, .rearmed hprogress, h.symm⟩
          · contradiction
      · contradiction

end State

/-! ## Steps from outside the chain -/

/-- The chain is as before, or has one more transition. -/
def Enqueues (s t : State) : Prop :=
  (t.transitions = s.transitions ∧ t.modeSwitchTail = s.modeSwitchTail) ∨
  ∃ intent admitted,
    t.transitions = s.transitions ++ [⟨intent, admitted, s.modeSwitchTail, .queued⟩] ∧
    t.modeSwitchTail = some s.transitions.length

/-- The resources are as before, were installed for the mode in force, or are torn down. A lifecycle
state is left for good. -/
def KeepsResources (cfg : Config) (s t : State) : Prop :=
  (t.installed = s.installed ∧ (t.lifecycle = s.lifecycle ∨ t.lifecycle = .shutting_down)) ∨
  (s.lifecycle = .created ∧
    t.installed = some (Installed.ofMode cfg.baseConfig.serverless s.modeState) ∧
    t.lifecycle = .active) ∨
  ((∀ job ∈ s.transitions, job.stage = .settled) ∧ t.installed = none ∧
    t.lifecycle = .shutdown)

/-- What a step from outside keeps. -/
structure Environment (cfg : Config) (s : State) (a : Action) (t : State) : Prop where
  modeState : t.modeState = s.modeState
  adaptivePhase : t.adaptivePhase = s.adaptivePhase
  timestamps : t.adaptiveSwitchTimestamps = s.adaptiveSwitchTimestamps
  history : t.history = s.history
  lastEscalationAt : t.adaptiveLastEscalationAt = s.adaptiveLastEscalationAt
  lastCaptureAt : s.adaptiveLastCaptureAt.isSome → t.adaptiveLastCaptureAt.isSome
  clock : t.clock = s.clock ∨ a = .clock t.clock
  queue : Enqueues s t
  resources : KeepsResources cfg s t

namespace Environment

theorem refl : Environment cfg s a s :=
  ⟨rfl, rfl, rfl, rfl, rfl, id, .inl rfl, .inl ⟨rfl, rfl⟩, .inl ⟨rfl, .inl rfl⟩⟩

/-- A number is given out after the step. -/
theorem admitNext (h : Environment cfg s a t) : Environment cfg s a t.admitNext :=
  ⟨h.modeState, h.adaptivePhase, h.timestamps, h.history, h.lastEscalationAt, h.lastCaptureAt,
    h.clock, h.queue, h.resources⟩

theorem enqueue (intent : Intent) (admitted : Nat) :
    Environment cfg s a (s.enqueue intent admitted) :=
  ⟨rfl, rfl, rfl, rfl, rfl, id, .inl rfl, .inr ⟨intent, admitted, rfl, rfl⟩, .inl ⟨rfl, .inl rfl⟩⟩

theorem switchAdaptiveMode (target : CaptureMode) (generation admitted : Nat) :
    Environment cfg s a (s.switchAdaptiveMode target generation admitted) := by
  unfold State.switchAdaptiveMode
  split
  · exact refl
  · exact enqueue _ _

theorem handleAdmittedCapture (modeAtCapture : CaptureMode) :
    Environment cfg s a (s.handleAdmittedCapture cfg modeAtCapture) := by
  unfold State.handleAdmittedCapture
  split
  · exact refl
  · simp only
    split <;>
      exact ⟨rfl, rfl, rfl, rfl, rfl, fun _ => rfl, .inl rfl, .inl ⟨rfl, rfl⟩, .inl ⟨rfl, .inl rfl⟩⟩

theorem evaluateAdaptiveDeescalation :
    Environment cfg s a (s.evaluateAdaptiveDeescalation cfg) := by
  unfold State.evaluateAdaptiveDeescalation
  split
  · exact switchAdaptiveMode _ _ _
  · exact refl

theorem setCaptureMode (mode : Option String) :
    Environment cfg s a (s.setCaptureMode cfg mode) := by
  unfold State.setCaptureMode
  split
  · exact refl
  · cases resolveCaptureMode mode with
    | error => exact refl
    | ok target =>
        simp only
        split
        · exact ⟨rfl, rfl, rfl, rfl, rfl, id, .inl rfl, .inr ⟨_, _, rfl, rfl⟩, .inl ⟨rfl, .inl rfl⟩⟩
        · exact enqueue _ _

/-- The microtask is taken off its list before it runs. -/
theorem escalate (escalations : List Escalation) (escalation : Escalation) :
    Environment cfg s a ({ s with escalations := escalations }.escalate cfg escalation) := by
  unfold State.escalate State.switchAdaptiveMode
  simp only
  split <;> split <;>
    first
      | exact ⟨rfl, rfl, rfl, rfl, rfl, id, .inl rfl, .inl ⟨rfl, rfl⟩, .inl ⟨rfl, .inl rfl⟩⟩
      | exact ⟨rfl, rfl, rfl, rfl, rfl, id, .inl rfl, .inr ⟨_, _, rfl, rfl⟩, .inl ⟨rfl, .inl rfl⟩⟩

end Environment

/-- A step moves one transition or comes from outside. -/
theorem step_cases (h : s.step cfg a = some t) :
    (∃ k job u progress, s.transitions[k]? = some job ∧ s.HasTurn job ∧
      Moves cfg s k job a u progress ∧ t = u.setProgress k progress) ∨
    Environment cfg s a t := by
  cases a with
  | start k =>
      obtain ⟨job, u, progress, hmove⟩ := State.start_cases h
      exact .inl ⟨k, job, u, progress, hmove⟩
  | callback k outcome =>
      obtain ⟨job, u, progress, hmove⟩ := State.callbackReturns_cases h
      exact .inl ⟨k, job, u, progress, hmove⟩
  | activate =>
      right
      simp only [State.step, State.activate] at h
      split at h
      · next hcreated =>
          cases h
          exact ⟨rfl, rfl, rfl, rfl, rfl, id, .inl rfl, .inl ⟨rfl, rfl⟩,
            .inr (.inl ⟨hcreated, rfl, rfl⟩)⟩
      · contradiction
  | beginShutdown =>
      right
      simp only [State.step, State.beginShutdown] at h
      split at h
      · cases h
        exact ⟨rfl, rfl, rfl, rfl, rfl, id, .inl rfl, .inl ⟨rfl, rfl⟩, .inl ⟨rfl, .inr rfl⟩⟩
      · contradiction
  | finishShutdown =>
      right
      simp only [State.step, State.finishShutdown] at h
      split at h
      · next hsettled =>
          cases h
          exact ⟨rfl, rfl, rfl, rfl, rfl, id, .inl rfl, .inl ⟨rfl, rfl⟩,
            .inr (.inr ⟨hsettled.2, rfl, rfl⟩)⟩
      · contradiction
  | clock now =>
      right
      cases h
      exact ⟨rfl, rfl, rfl, rfl, rfl, id, .inr rfl, .inl ⟨rfl, rfl⟩, .inl ⟨rfl, .inl rfl⟩⟩
  | capture modeAtCapture =>
      right
      cases h
      exact (Environment.handleAdmittedCapture modeAtCapture).admitNext
  | escalate i =>
      right
      simp only [State.step, Option.map_eq_some_iff] at h
      obtain ⟨escalation, _, rfl⟩ := h
      exact Environment.escalate _ escalation
  | timer =>
      right
      simp only [State.step] at h
      split at h
      · cases h
        exact Environment.evaluateAdaptiveDeescalation.admitNext
      · contradiction
  | setCaptureMode mode =>
      right
      cases h
      exact (Environment.setCaptureMode mode).admitNext

end ErrorCore.CaptureModeController
