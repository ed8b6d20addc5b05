import ErrorCore.Capture.CaptureModeController.Moves

/-!
# What a transition can rely on

Transitions take turns, so only the running one changes the mode and the phase.
`RunsWell` is what it can rely on between two of its callbacks: the mode is the
one it found until it publishes its own, and the phase is the one it found
unless it has pinned the controller itself. Nothing here assumes that callbacks
succeed.
-/

namespace ErrorCore.CaptureModeController

open PromiseChain

/-- The phase while the transition runs, which found the controller as in `before`. -/
def PhaseDuring (cfg : Config) (phase : AdaptiveCapturePhase) (intent : Intent)
    (before : Snapshot) : Prop :=
  match intent with
  | .manual _ => phase = before.adaptivePhase
  | .adaptive target _ =>
      cfg.adaptiveCapture.enabled ∧
      (target = cfg.adaptiveCapture.escalated ∧ before.adaptivePhase = .base ∧
          before.captureMode = cfg.adaptiveCapture.base ∧ (phase = .base ∨ phase = .pinned) ∨
        target = cfg.adaptiveCapture.base ∧ target ≠ cfg.adaptiveCapture.escalated ∧
          before.adaptivePhase = .escalated ∧
          before.captureMode = cfg.adaptiveCapture.escalated ∧ phase = .escalated)

/-- The transition switches between the states of two different modes. -/
structure Switch.Proper (cfg : Config) (intent : Intent) (run : Switch) : Prop where
  next : cfg.resolveModeState intent.target = .ok run.next
  previous : cfg.resolveModeState run.before.captureMode = .ok run.previous
  changes : run.before.captureMode ≠ intent.target

/-- The transition waits for `rearmAfterAdaptiveGuard`. -/
structure Rearming (cfg : Config) (s : State) (intent : Intent) : Prop where
  enabled : cfg.adaptiveCapture.enabled
  target : intent.target = cfg.adaptiveCapture.escalated
  captureMode : s.modeState.captureMode = cfg.adaptiveCapture.escalated
  phase : s.adaptivePhase = .escalated ∨ s.adaptivePhase = .pinned ∧ intent.isManual = false

def RunsWell (cfg : Config) (s : State) (job : ModeTransition) : Prop :=
  match job.progress with
  | .switching run _ =>
      run.Proper cfg job.intent ∧ s.modeState = run.previous ∧
        PhaseDuring cfg s.adaptivePhase job.intent run.before
  | .published run _ =>
      run.Proper cfg job.intent ∧ s.modeState = run.next ∧
        PhaseDuring cfg s.adaptivePhase job.intent run.before
  | .rearming _ => Rearming cfg s job.intent
  | _ => True

theorem RunsWell.congr {cfg : Config} {s t : State} {job : ModeTransition}
    (h : RunsWell cfg s job) (hmode : t.modeState = s.modeState)
    (hphase : t.adaptivePhase = s.adaptivePhase) : RunsWell cfg t job := by
  unfold RunsWell at h ⊢
  cases hprogress : job.progress with
  | switching =>
      simp only [hprogress] at h ⊢
      rwa [hmode, hphase]
  | published =>
      simp only [hprogress] at h ⊢
      rwa [hmode, hphase]
  | rearming =>
      simp only [hprogress] at h ⊢
      exact ⟨h.enabled, h.target, by rw [hmode]; exact h.captureMode, by rw [hphase]; exact h.phase⟩
  | _ => trivial

/-- What holds of the fields whether or not a transition runs. -/
structure Fields (cfg : Config) (s : State) : Prop where
  resolved : cfg.resolveModeState s.modeState.captureMode = .ok s.modeState
  disabled : cfg.adaptiveCapture.enabled = false → s.adaptivePhase = .inactive
  enabled : cfg.adaptiveCapture.enabled = true → s.adaptivePhase ≠ .inactive
  /-- An adaptive switch has been applied only if the escalated mode can be. -/
  stamped : s.adaptiveSwitchTimestamps ≠ [] →
    ∃ next, cfg.resolveModeState cfg.adaptiveCapture.escalated = .ok next

structure Inv (cfg : Config) (s : State) : Prop where
  serial : Serial ModeTransition.link ModeTransition.stage s.transitions s.modeSwitchTail
  fields : Fields cfg s
  runs : Turns ModeTransition.stage s.transitions (RunsWell cfg s) True

variable {cfg : Config} {s t u v : State} {a : Action} {k : Nat} {job : ModeTransition}
variable {progress : Progress} {before : Snapshot} {run : Switch} {callbacks : List Callback}
variable {mode target : CaptureMode} {next : ModeState}

/-! ## `applyCaptureMode` -/

theorem State.applyCaptureMode_error {message : String}
    (h : s.applyCaptureMode cfg mode = .error message) :
    s.canSwitchMode = false ∨ ∃ message, cfg.resolveModeState mode = .error message := by
  unfold State.applyCaptureMode at h
  split at h
  · next hswitch => exact .inl (by simpa using hswitch)
  · cases hresolve : cfg.resolveModeState mode with
    | error message => exact .inr ⟨message, rfl⟩
    | ok => simp [hresolve] at h

theorem State.applyCaptureMode_ok {changed : Option ModeState}
    (h : s.applyCaptureMode cfg mode = .ok changed) :
    ∃ next, cfg.resolveModeState mode = .ok next ∧
      changed = if diffModeStates s.modeState next = [] then none else some next := by
  unfold State.applyCaptureMode at h
  split at h
  · contradiction
  · cases hresolve : cfg.resolveModeState mode with
    | error => simp [hresolve] at h
    | ok next =>
        simp only [hresolve, Except.ok.injEq] at h
        exact ⟨next, rfl, h.symm⟩

/-- Without a difference the mode is in force already. -/
theorem State.captureMode_eq_of_unchanged (h : s.applyCaptureMode cfg mode = .ok none) :
    s.modeState.captureMode = mode := by
  obtain ⟨next, hnext, hchanged⟩ := State.applyCaptureMode_ok h
  have hdiff : diffModeStates s.modeState next = [] := by
    by_contra hne
    rw [if_neg hne] at hchanged
    contradiction
  rw [captureMode_eq_of_diffModeStates hdiff, resolveModeState_captureMode hnext]

theorem State.resolve_of_changed (h : s.applyCaptureMode cfg mode = .ok (some next)) :
    cfg.resolveModeState mode = .ok next := by
  obtain ⟨resolved, hnext, hchanged⟩ := State.applyCaptureMode_ok h
  split at hchanged
  · contradiction
  · cases hchanged
    exact hnext

/-- A difference means another mode: each mode has one state. -/
theorem Fields.captureMode_ne_of_changed (h : Fields cfg s)
    (hchanged : s.applyCaptureMode cfg mode = .ok (some next)) :
    s.modeState.captureMode ≠ mode := by
  intro heq
  obtain ⟨resolved, hnext, hdiff⟩ := State.applyCaptureMode_ok hchanged
  have hsame : resolved = s.modeState := by
    have hresolved := h.resolved
    rw [heq, hnext] at hresolved
    exact Except.ok.inj hresolved
  rw [hsame, diffModeStates_self, if_pos rfl] at hdiff
  contradiction

/-! ## Starting -/

theorem State.isCurrentAdaptiveTransition_cases
    (h : s.isCurrentAdaptiveTransition cfg target = true) :
    target = cfg.adaptiveCapture.escalated ∧ s.adaptivePhase = .base ∧
        s.modeState.captureMode = cfg.adaptiveCapture.base ∨
      target = cfg.adaptiveCapture.base ∧ target ≠ cfg.adaptiveCapture.escalated ∧
        s.adaptivePhase = .escalated ∧
        s.modeState.captureMode = cfg.adaptiveCapture.escalated := by
  unfold State.isCurrentAdaptiveTransition at h
  split at h
  · next htarget =>
      simp only [Bool.and_eq_true, decide_eq_true_eq] at h
      exact .inl ⟨htarget, h.1, h.2⟩
  · next hne =>
      split at h
      · next htarget =>
          simp only [Bool.and_eq_true, decide_eq_true_eq] at h
          exact .inr ⟨htarget, hne, h.1, h.2⟩
      · contradiction

theorem Fields.enabled_of_phase (h : Fields cfg s) (hphase : s.adaptivePhase ≠ .inactive) :
    cfg.adaptiveCapture.enabled = true := by
  cases henabled : cfg.adaptiveCapture.enabled with
  | true => rfl
  | false => exact absurd (h.disabled henabled) hphase

theorem Fields.prune (h : Fields cfg s) : Fields cfg s.pruneSwitchTimestamps where
  resolved := h.resolved
  disabled := h.disabled
  enabled := h.enabled
  stamped hne := by
    apply h.stamped
    intro hnil
    simp [State.pruneSwitchTimestamps, hnil] at hne

theorem Fields.pin (h : Fields cfg s) (henabled : cfg.adaptiveCapture.enabled = true) :
    Fields cfg s.pin where
  resolved := h.resolved
  disabled hdisabled := by simp [henabled] at hdisabled
  enabled _ := by simp [State.pin]
  stamped := h.stamped

/-- What the start of a transition leaves as it was, and what it knows of the phase. -/
structure Begun (cfg : Config) (s u : State) (job : ModeTransition) : Prop where
  fields : Fields cfg u
  modeState : u.modeState = s.modeState
  installed : u.installed = s.installed
  lifecycle : u.lifecycle = s.lifecycle
  phase : PhaseDuring cfg u.adaptivePhase job.intent s.snapshot

theorem Begins.begun (h : Fields cfg s) (begins : Begins cfg s job u) : Begun cfg s u job := by
  cases begins with
  | manual intent =>
      refine ⟨h, rfl, rfl, rfl, ?_⟩
      rw [intent]
      rfl
  | @adaptive target generation intent generation_eq active current rate =>
      refine ⟨h.prune, rfl, rfl, rfl, ?_⟩
      rw [intent]
      rcases State.isCurrentAdaptiveTransition_cases current with
        ⟨htarget, hphase, hmode⟩ | ⟨htarget, hne, hphase, hmode⟩
      · exact ⟨h.enabled_of_phase (by simp [hphase]),
          .inl ⟨htarget, hphase, hmode, .inl hphase⟩⟩
      · exact ⟨h.enabled_of_phase (by simp [hphase]),
          .inr ⟨htarget, hne, hphase, hmode, hphase⟩⟩
  | @pinned generation intent generation_eq active current rate =>
      rcases State.isCurrentAdaptiveTransition_cases current with
        ⟨htarget, hphase, hmode⟩ | ⟨_, hne, _, _⟩
      · have henabled := h.enabled_of_phase (by simp [hphase])
        refine ⟨h.prune.pin henabled, rfl, rfl, rfl, ?_⟩
        rw [intent]
        exact ⟨henabled, .inl ⟨rfl, hphase, hmode, .inr rfl⟩⟩
      · exact absurd rfl hne

/-- A transition whose start fails has not pinned the controller. -/
theorem Begins.snapshot_eq_of_error {message : String} (h : Fields cfg s)
    (begins : Begins cfg s job u)
    (error : u.applyCaptureMode cfg job.intent.target = .error message) :
    u.snapshot = s.snapshot := by
  cases begins with
  | manual => rfl
  | adaptive => rfl
  | @pinned generation intent generation_eq active current rate =>
      have hpos := cfg.adaptiveCapture_valid.maxSwitchesPerHour_pos
      have hne : s.pruneSwitchTimestamps.adaptiveSwitchTimestamps ≠ [] := by
        intro hnil
        simp only [State.switchRateExceeded, hnil, List.length_nil, decide_eq_true_eq] at rate
        omega
      obtain ⟨next, hnext⟩ := h.prune.stamped hne
      rcases State.applyCaptureMode_error error with hswitch | ⟨message, hmessage⟩
      · have hactive : s.pruneSwitchTimestamps.pin.lifecycle = .active := active
        simp [State.canSwitchMode, hactive] at hswitch
      · rw [intent] at hmessage
        simp only [Intent.target, hnext] at hmessage
        contradiction

theorem Begins.proper (h : Fields cfg s) (begins : Begins cfg s job u)
    (changed : u.applyCaptureMode cfg job.intent.target = .ok (some next)) (wasActive : Bool)
    (now : Int) :
    Switch.Proper cfg job.intent ⟨s.snapshot, u.modeState, next, wasActive, now⟩ := by
  have hbegun := begins.begun h
  refine ⟨State.resolve_of_changed changed, ?_, ?_⟩
  · rw [hbegun.modeState]
    exact h.resolved
  · have hne := hbegun.fields.captureMode_ne_of_changed changed
    rwa [hbegun.modeState] at hne

/-- An accepted adaptive transition changes the mode. -/
theorem Begins.not_unchanged {generation : Nat} (h : Fields cfg s) (begins : Begins cfg s job u)
    (intent : job.intent = .adaptive target generation)
    (unchanged : u.applyCaptureMode cfg job.intent.target = .ok none) : False := by
  have hbegun := begins.begun h
  have hmode := State.captureMode_eq_of_unchanged unchanged
  rw [hbegun.modeState] at hmode
  have hphase := hbegun.phase
  rw [intent] at hphase hmode
  obtain ⟨henabled, ⟨htarget, _, hbase, _⟩ | ⟨htarget, _, _, hescalated, _⟩⟩ := hphase
  · have hne := cfg.adaptiveCapture_valid.base_ne_escalated henabled
    exact hne (hbase.symm.trans (hmode.trans htarget))
  · have hne := cfg.adaptiveCapture_valid.base_ne_escalated henabled
    exact hne (htarget.symm.trans (hmode.symm.trans hescalated))

/-! ## Going on -/

theorem Recorders.well (recorders : Recorders s job run callbacks v progress)
    (h : Fields cfg s) (proper : run.Proper cfg job.intent) (hmode : s.modeState = run.previous)
    (phase : PhaseDuring cfg s.adaptivePhase job.intent run.before) :
    Fields cfg v ∧ RunsWell cfg v { job with progress := progress } := by
  cases recorders with
  | switching => exact ⟨h, proper, hmode, phase⟩
  | published =>
      refine ⟨⟨?_, h.disabled, h.enabled, h.stamped⟩, proper, rfl, phase⟩
      have hnext := proper.next
      show cfg.resolveModeState run.next.captureMode = .ok run.next
      rw [resolveModeState_captureMode hnext]
      exact hnext

theorem manualPhase_ne_inactive : State.manualPhase cfg mode ≠ .inactive := by
  unfold State.manualPhase
  split
  · simp
  · split <;> simp

theorem reconcile_adaptivePhase (henabled : cfg.adaptiveCapture.enabled = true) :
    (s.reconcileManualAdaptiveState cfg mode).adaptivePhase = State.manualPhase cfg mode := by
  unfold State.reconcileManualAdaptiveState
  rw [if_neg (by simp [henabled])]
  simp only
  split <;> rfl

theorem reconcile_of_disabled (hdisabled : cfg.adaptiveCapture.enabled = false) :
    s.reconcileManualAdaptiveState cfg mode = s := by
  simp [State.reconcileManualAdaptiveState, hdisabled]

theorem reconcile_modeState :
    (s.reconcileManualAdaptiveState cfg mode).modeState = s.modeState := by
  unfold State.reconcileManualAdaptiveState
  split
  · rfl
  · simp only
    split <;> split <;> rfl

theorem reconcile_timestamps :
    (s.reconcileManualAdaptiveState cfg mode).adaptiveSwitchTimestamps =
      s.adaptiveSwitchTimestamps := by
  unfold State.reconcileManualAdaptiveState
  split
  · rfl
  · simp only
    split <;> split <;> rfl

theorem Fields.reconcile (h : Fields cfg s) :
    Fields cfg (s.reconcileManualAdaptiveState cfg mode) where
  resolved := by rw [reconcile_modeState]; exact h.resolved
  disabled hdisabled := by rw [reconcile_of_disabled hdisabled]; exact h.disabled hdisabled
  enabled henabled := by
    rw [reconcile_adaptivePhase henabled]
    exact manualPhase_ne_inactive
  stamped := by rw [reconcile_timestamps]; exact h.stamped

theorem manualPhase_eq_escalated (h : State.manualPhase cfg mode = .escalated) :
    mode = cfg.adaptiveCapture.escalated := by
  unfold State.manualPhase at h
  split at h
  · contradiction
  · split at h
    · assumption
    · contradiction

/-- An adaptive switch shows that the escalated mode resolves: it is the target or the mode that
the transition found. -/
theorem escalated_resolves {generation : Nat} (h : Fields cfg s)
    (intent : job.intent = .adaptive target generation)
    (hmode : s.modeState.captureMode = job.intent.target)
    (hprevious : ∃ previous, cfg.resolveModeState before.captureMode = .ok previous)
    (phase : PhaseDuring cfg s.adaptivePhase job.intent before) :
    ∃ next, cfg.resolveModeState cfg.adaptiveCapture.escalated = .ok next := by
  rw [intent] at phase hmode
  obtain ⟨_, ⟨htarget, _, _, _⟩ | ⟨_, _, _, hescalated, _⟩⟩ := phase
  · have hresolved := h.resolved
    rw [hmode] at hresolved
    rw [← htarget]
    exact ⟨s.modeState, hresolved⟩
  · rw [← hescalated]
    exact hprevious

theorem Finishes.well {now : Int} (finishes : Finishes cfg s job now before v progress)
    (h : Fields cfg s) (hmode : s.modeState.captureMode = job.intent.target)
    (hprevious : ∃ previous, cfg.resolveModeState before.captureMode = .ok previous)
    (phase : PhaseDuring cfg s.adaptivePhase job.intent before) :
    Fields cfg v ∧ RunsWell cfg v { job with progress := progress } := by
  cases finishes with
  | @rearmManual mode intent rearms =>
      refine ⟨h.reconcile, ?_⟩
      simp only [State.rearmsAfterManual, Bool.and_eq_true, decide_eq_true_eq] at rearms
      obtain ⟨⟨⟨henabled, hphase⟩, _⟩, _⟩ := rearms
      have htarget : job.intent.target = cfg.adaptiveCapture.escalated := by
        rw [intent]
        exact manualPhase_eq_escalated hphase
      refine ⟨henabled, htarget, ?_, .inl ?_⟩
      · rw [reconcile_modeState, hmode, htarget]
      · rw [reconcile_adaptivePhase henabled, hphase]
  | @manual mode intent =>
      have hreconciled : Fields cfg (s.reconcileManualAdaptiveState cfg mode) := h.reconcile
      exact ⟨⟨hreconciled.resolved, hreconciled.disabled, hreconciled.enabled,
        hreconciled.stamped⟩, trivial⟩
  | @escalated generation intent =>
      have henabled : cfg.adaptiveCapture.enabled = true := by
        rw [intent] at phase
        exact phase.1
      have hresolves := escalated_resolves h intent hmode hprevious phase
      have hphase : s.escalatedPhase = .escalated ∨ s.escalatedPhase = .pinned := by
        unfold State.escalatedPhase
        split <;> simp
      refine ⟨⟨h.resolved, ?_, ?_, fun _ => hresolves⟩, henabled, ?_, ?_, ?_⟩
      · intro hdisabled
        simp [henabled] at hdisabled
      · intro _
        rcases hphase with hphase | hphase <;> simp [hphase]
      · simp only [intent, Intent.target]
      · exact hmode.trans (by rw [intent]; rfl)
      · simp only [intent, Intent.isManual, and_true]
        exact hphase
  | @deescalated target generation intent target_ne =>
      have henabled : cfg.adaptiveCapture.enabled = true := by
        rw [intent] at phase
        exact phase.1
      have hresolves := escalated_resolves h intent hmode hprevious phase
      refine ⟨⟨h.resolved, ?_, ?_, fun _ => hresolves⟩, trivial⟩
      · intro hdisabled
        simp [henabled] at hdisabled
      · simp

/-! ## Steps -/

/-- What a move leaves to the world outside the transition. -/
structure KeepsQueue (s u : State) : Prop where
  transitions : u.transitions = s.transitions
  modeSwitchTail : u.modeSwitchTail = s.modeSwitchTail
  escalations : u.escalations = s.escalations
  admissions : u.admissions = s.admissions
  generation : u.adaptiveIntentGeneration = s.adaptiveIntentGeneration
  clock : u.clock = s.clock
  lifecycle : u.lifecycle = s.lifecycle
  lastCaptureAt : s.adaptiveLastCaptureAt.isSome → u.adaptiveLastCaptureAt.isSome

theorem KeepsQueue.refl : KeepsQueue s s := ⟨rfl, rfl, rfl, rfl, rfl, rfl, rfl, id⟩

theorem KeepsQueue.trans (h : KeepsQueue s t) (h' : KeepsQueue t u) : KeepsQueue s u where
  transitions := h'.transitions.trans h.transitions
  modeSwitchTail := h'.modeSwitchTail.trans h.modeSwitchTail
  escalations := h'.escalations.trans h.escalations
  admissions := h'.admissions.trans h.admissions
  generation := h'.generation.trans h.generation
  clock := h'.clock.trans h.clock
  lifecycle := h'.lifecycle.trans h.lifecycle
  lastCaptureAt hs := h'.lastCaptureAt (h.lastCaptureAt hs)

theorem reconcile_keepsQueue : KeepsQueue s (s.reconcileManualAdaptiveState cfg mode) := by
  unfold State.reconcileManualAdaptiveState
  split
  · exact .refl
  · simp only
    split <;> split <;>
      first
        | exact ⟨rfl, rfl, rfl, rfl, rfl, rfl, rfl, fun _ => rfl⟩
        | exact ⟨rfl, rfl, rfl, rfl, rfl, rfl, rfl, id⟩

theorem Finishes.keepsQueue {now : Int} (finishes : Finishes cfg s job now before v progress) :
    KeepsQueue s v := by
  cases finishes with
  | rearmManual => exact reconcile_keepsQueue
  | manual =>
      exact reconcile_keepsQueue.trans ⟨rfl, rfl, rfl, rfl, rfl, rfl, rfl, id⟩
  | escalated => exact ⟨rfl, rfl, rfl, rfl, rfl, rfl, rfl, id⟩
  | deescalated => exact ⟨rfl, rfl, rfl, rfl, rfl, rfl, rfl, id⟩

theorem Begins.keepsQueue (begins : Begins cfg s job u) : KeepsQueue s u := by
  cases begins <;> exact ⟨rfl, rfl, rfl, rfl, rfl, rfl, rfl, id⟩

theorem Recorders.keepsQueue (recorders : Recorders s job run callbacks v progress) :
    KeepsQueue s v := by
  cases recorders <;> exact ⟨rfl, rfl, rfl, rfl, rfl, rfl, rfl, id⟩

theorem afterCallback_keepsQueue (callback : Callback) (outcome : Outcome) :
    KeepsQueue s (s.afterCallback callback outcome) :=
  ⟨rfl, rfl, rfl, rfl, rfl, rfl, rfl, id⟩

theorem recordResolved_keepsQueue : KeepsQueue s (s.recordResolved job) := by
  unfold State.recordResolved
  split <;> exact ⟨rfl, rfl, rfl, rfl, rfl, rfl, rfl, id⟩

theorem Moves.keepsQueue (moves : Moves cfg s k job a u progress) : KeepsQueue s u := by
  cases moves with
  | cancelled => exact .refl
  | refused => exact ⟨rfl, rfl, rfl, rfl, rfl, rfl, rfl, id⟩
  | failedStart _ begins _ => exact begins.keepsQueue
  | unchangedManual _ _ _ finishes => exact finishes.keepsQueue
  | unchangedAdaptive _ _ begins _ => exact begins.keepsQueue
  | begun _ begins _ recorders => exact begins.keepsQueue.trans recorders.keepsQueue
  | recorderFailed => exact afterCallback_keepsQueue _ _
  | recorderReturned _ _ recorders =>
      exact (afterCallback_keepsQueue _ _).trans recorders.keepsQueue
  | resourceFailed => exact afterCallback_keepsQueue _ _
  | resourceReturned => exact afterCallback_keepsQueue _ _
  | @completed _ callback outcome _ _ _ _ finishes =>
      have hcounted : KeepsQueue s
          { s.afterCallback callback outcome with switchCount := s.switchCount + 1 } :=
        ⟨rfl, rfl, rfl, rfl, rfl, rfl, rfl, id⟩
      exact hcounted.trans finishes.keepsQueue
  | rearmFailed => exact .refl
  | rearmed => exact recordResolved_keepsQueue

/-- A move changes the chain only at its transition. -/
theorem Moves.transitions_eq (moves : Moves cfg s k job a u progress)
    (hk : s.transitions[k]? = some job) :
    (u.setProgress k progress).transitions =
      s.transitions.set k { job with progress := progress } := by
  rw [State.setProgress_transitions (by rw [moves.keepsQueue.transitions, hk]),
    moves.keepsQueue.transitions]

theorem Moves.progress_ne_queued (moves : Moves cfg s k job a u progress) :
    progress.stage ≠ .waiting := by
  have hrecorders : ∀ {s v : State} {run : Switch} {callbacks : List Callback}
      {progress : Progress}, Recorders s job run callbacks v progress →
      progress.stage ≠ .waiting := by
    intro s v run callbacks progress recorders
    cases recorders <;> simp [Progress.stage]
  have hfinishes : ∀ {s v : State} {now : Int} {before : Snapshot} {progress : Progress},
      Finishes cfg s job now before v progress → progress.stage ≠ .waiting := by
    intro s v now before progress finishes
    cases finishes <;> simp [Progress.stage]
  cases moves with
  | unchangedManual _ _ _ finishes => exact hfinishes finishes
  | begun _ _ _ recorders => exact hrecorders recorders
  | recorderReturned _ _ recorders => exact hrecorders recorders
  | completed _ _ finishes => exact hfinishes finishes
  | _ => simp [Progress.stage]

theorem recordResolved_fields (h : Fields cfg s) : Fields cfg (s.recordResolved job) := by
  unfold State.recordResolved
  split
  · exact ⟨h.resolved, h.disabled, h.enabled, h.stamped⟩
  · exact h

theorem Fields.afterCallback (h : Fields cfg s) (callback : Callback) (outcome : Outcome) :
    Fields cfg (s.afterCallback callback outcome) :=
  ⟨h.resolved, h.disabled, h.enabled, h.stamped⟩

/-- What a transition that has started relies on. -/
theorem Inv.runsWell (h : Inv cfg s) (hk : s.transitions[k]? = some job) (hturn : s.HasTurn job) :
    RunsWell cfg s job := by
  rcases hturn with hrun | ⟨hwait, _⟩
  · exact h.runs.running k job hk hrun
  · unfold RunsWell
    unfold ModeTransition.stage at hwait
    cases hprogress : job.progress <;> simp_all [Progress.stage]

/-- The fields after a move, and what the transition can rely on from then on. -/
theorem Moves.well (moves : Moves cfg s k job a u progress) (h : Fields cfg s)
    (hwell : RunsWell cfg s job) :
    Fields cfg u ∧ RunsWell cfg u { job with progress := progress } := by
  cases moves with
  | cancelled => exact ⟨h, trivial⟩
  | refused _ _ current target_ne =>
      rcases State.isCurrentAdaptiveTransition_cases current with ⟨heq, _, _⟩ | ⟨_, _, hphase, _⟩
      · exact absurd heq target_ne
      · exact ⟨h.prune.pin (h.enabled_of_phase (by simp [hphase])), trivial⟩
  | failedStart _ begins _ => exact ⟨(begins.begun h).fields, trivial⟩
  | unchangedManual _ intent unchanged finishes =>
      refine finishes.well h ?_ ⟨s.modeState, h.resolved⟩ ?_
      · rw [State.captureMode_eq_of_unchanged unchanged, intent]
        rfl
      · rw [intent]
        rfl
  | unchangedAdaptive _ intent begins unchanged =>
      exact (begins.not_unchanged h intent unchanged).elim
  | begun _ begins changed recorders =>
      have hbegun := begins.begun h
      exact recorders.well hbegun.fields (begins.proper h changed _ _) rfl hbegun.phase
  | recorderFailed _ _ => exact ⟨h.afterCallback _ _, trivial⟩
  | recorderReturned switching _ recorders =>
      simp only [RunsWell, switching] at hwell
      exact recorders.well (h.afterCallback _ _) hwell.1 hwell.2.1 hwell.2.2
  | resourceFailed _ _ => exact ⟨h.afterCallback _ _, trivial⟩
  | resourceReturned published _ =>
      simp only [RunsWell, published] at hwell
      exact ⟨h.afterCallback _ _, hwell⟩
  | @completed run _ _ _ _ published _ finishes =>
      simp only [RunsWell, published] at hwell
      obtain ⟨proper, hmode, hphase⟩ := hwell
      have hfields : Fields cfg s := h
      refine finishes.well ⟨h.resolved, h.disabled, h.enabled, h.stamped⟩ ?_
        ⟨run.previous, proper.previous⟩ hphase
      show s.modeState.captureMode = job.intent.target
      rw [hmode, resolveModeState_captureMode proper.next]
  | rearmFailed _ _ => exact ⟨h, trivial⟩
  | rearmed _ => exact ⟨recordResolved_fields h, trivial⟩

theorem Enqueues.serial (h : Enqueues s t)
    (serial : Serial ModeTransition.link ModeTransition.stage s.transitions s.modeSwitchTail) :
    Serial ModeTransition.link ModeTransition.stage t.transitions t.modeSwitchTail := by
  rcases h with ⟨htransitions, htail⟩ | ⟨intent, admitted, htransitions, htail⟩
  · rw [htransitions, htail]
    exact serial
  · rw [htransitions, htail]
    exact serial.push rfl rfl

theorem Enqueues.turns {runs : ModeTransition → Prop} {rest : Prop} (h : Enqueues s t)
    (turns : Turns ModeTransition.stage s.transitions runs rest) :
    Turns ModeTransition.stage t.transitions runs rest := by
  rcases h with ⟨htransitions, -⟩ | ⟨intent, admitted, htransitions, -⟩
  · rw [htransitions]
    exact turns
  · rw [htransitions]
    exact turns.push rfl

theorem Inv.step (h : Inv cfg s) (hstep : s.step cfg a = some t) : Inv cfg t := by
  rcases step_cases hstep with ⟨k, job, u, progress, hk, hturn, moves, rfl⟩ | henv
  · obtain ⟨hfields, hwell⟩ := moves.well h.fields (h.runsWell hk hturn)
    refine ⟨?_, ⟨hfields.resolved, hfields.disabled, hfields.enabled, hfields.stamped⟩, ?_⟩
    · rw [moves.transitions_eq hk]
      show Serial _ _ _ u.modeSwitchTail
      rw [moves.keepsQueue.modeSwitchTail]
      exact h.serial.move hk hturn rfl
    · rw [moves.transitions_eq hk]
      exact Turns.move h.serial hk hturn (fun _ => hwell.congr rfl rfl) fun _ => trivial
  · have hmode := henv.modeState
    have hphase := henv.adaptivePhase
    refine ⟨henv.queue.serial h.serial, ?_, ?_⟩
    · refine ⟨?_, ?_, ?_, ?_⟩
      · rw [hmode]
        exact h.fields.resolved
      · rw [hphase]
        exact h.fields.disabled
      · rw [hphase]
        exact h.fields.enabled
      · rw [henv.timestamps]
        exact h.fields.stamped
    · exact (henv.queue.turns h.runs).mono
        (fun _ _ _ hjob => hjob.congr hmode hphase) id

theorem Inv.initial (now : Int) : Inv cfg (.initial cfg now) where
  serial := .nil
  fields :=
    { resolved := by
        show cfg.resolveModeState cfg.modeState.captureMode = .ok cfg.modeState
        rw [resolveModeState_captureMode cfg.resolved]
        exact cfg.resolved
      disabled := by
        intro hdisabled
        simp [State.initial, hdisabled]
      enabled := by
        intro henabled
        simp [State.initial, henabled]
      stamped := by simp [State.initial] }
  runs := ⟨by simp [State.initial], fun _ => trivial⟩

end ErrorCore.CaptureModeController
