import ErrorCore.Capture.CaptureModeController.Invariant

/-!
# Transitions that fail

A transition switches the recorders, publishes its mode, applies the other
resources and sets the phase last, and undoes none of this when a callback fails.
It is atomic nevertheless when the failure comes before it has changed anything,
or after the publication if the phase is already the one of its mode.
`FailsCleanly` says so of single steps, and is exact: a run has only atomic
transitions if and only if its steps meet it.
-/

namespace ErrorCore.CaptureModeController

open PromiseChain Transition.System

/-- The phase of the controller once the mode of the intent is in force. -/
def PhaseFor (cfg : Config) (intent : Intent) (phase : AdaptiveCapturePhase) : Prop :=
  match intent with
  | .manual mode => cfg.adaptiveCapture.enabled → phase = State.manualPhase cfg mode
  | .adaptive target _ =>
      if target = cfg.adaptiveCapture.escalated then phase = .escalated ∨ phase = .pinned
      else phase = .base

instance (cfg : Config) (intent : Intent) (phase : AdaptiveCapturePhase) :
    Decidable (PhaseFor cfg intent phase) :=
  match intent with
  | .manual mode =>
      inferInstanceAs (Decidable (cfg.adaptiveCapture.enabled → phase = State.manualPhase cfg mode))
  | .adaptive target _ =>
      inferInstanceAs (Decidable (if target = cfg.adaptiveCapture.escalated then
        phase = .escalated ∨ phase = .pinned else phase = .base))

/-- All recorders and watchers of the mode are installed, and no other ones. -/
def InstalledFor (cfg : Config) (mode : CaptureMode) (installed : Option Installed) : Prop :=
  installed ≠ none ∧
    installed =
      (cfg.resolveModeState mode).toOption.map (Installed.ofMode cfg.baseConfig.serverless)

instance (cfg : Config) (mode : CaptureMode) (installed : Option Installed) :
    Decidable (InstalledFor cfg mode installed) :=
  inferInstanceAs (Decidable (_ ∧ _))

/-- The transition has put its mode in force. Before the SDK is activated nothing is installed. -/
structure Complete (cfg : Config) (intent : Intent) (before after : Snapshot) : Prop where
  captureMode : after.captureMode = intent.target
  phase : PhaseFor cfg intent after.adaptivePhase
  installed : before.installed = none ∧ after.installed = none ∨
    InstalledFor cfg intent.target after.installed

instance (cfg : Config) (intent : Intent) (before after : Snapshot) :
    Decidable (Complete cfg intent before after) :=
  decidable_of_iff
    (after.captureMode = intent.target ∧ PhaseFor cfg intent after.adaptivePhase ∧
      (before.installed = none ∧ after.installed = none ∨
        InstalledFor cfg intent.target after.installed))
    ⟨fun h => ⟨h.1, h.2.1, h.2.2⟩, fun h => ⟨h.captureMode, h.phase, h.installed⟩⟩

def Settlement.Atomic (cfg : Config) (intent : Intent) : Settlement → Prop
  | .cancelled => True
  | .resolved before after => after = before ∨ Complete cfg intent before after
  | .rejected before after => after = before ∨ Complete cfg intent before after

instance (cfg : Config) (intent : Intent) (settlement : Settlement) :
    Decidable (settlement.Atomic cfg intent) :=
  match settlement with
  | .cancelled => .isTrue trivial
  | .resolved _ _ => inferInstanceAs (Decidable (_ ∨ _))
  | .rejected _ _ => inferInstanceAs (Decidable (_ ∨ _))

/-- A transition that has settled was atomic. -/
def ModeTransition.Atomic (cfg : Config) (job : ModeTransition) : Prop :=
  match job.progress with
  | .settled settlement => settlement.Atomic cfg job.intent
  | _ => True

instance (cfg : Config) (job : ModeTransition) : Decidable (job.Atomic cfg) := by
  unfold ModeTransition.Atomic
  split <;> infer_instance

/-- A capture escalates from the base phase, the timer can return from the escalated phase, and the
controller is pinned in the escalated mode only. -/
structure Responsive (cfg : Config) (s : State) : Prop where
  base : s.adaptivePhase = .base →
    s.isCurrentAdaptiveTransition cfg cfg.adaptiveCapture.escalated = true
  escalated : s.adaptivePhase = .escalated →
    s.isCurrentAdaptiveTransition cfg cfg.adaptiveCapture.base = true ∧
      s.adaptiveLastEscalationAt.isSome ∧ s.adaptiveLastCaptureAt.isSome
  pinned : s.adaptivePhase = .pinned →
    s.modeState.captureMode = cfg.adaptiveCapture.escalated

instance (cfg : Config) (s : State) : Decidable (Responsive cfg s) :=
  decidable_of_iff
    ((s.adaptivePhase = .base →
        s.isCurrentAdaptiveTransition cfg cfg.adaptiveCapture.escalated = true) ∧
      (s.adaptivePhase = .escalated →
        s.isCurrentAdaptiveTransition cfg cfg.adaptiveCapture.base = true ∧
          s.adaptiveLastEscalationAt.isSome ∧ s.adaptiveLastCaptureAt.isSome) ∧
      (s.adaptivePhase = .pinned → s.modeState.captureMode = cfg.adaptiveCapture.escalated))
    ⟨fun h => ⟨h.1, h.2.1, h.2.2⟩, fun h => ⟨h.base, h.escalated, h.pinned⟩⟩

/-- The transition waits behind settled ones only. -/
def State.NextInLine (s : State) (k : Nat) : Prop :=
  (s.transitions[k]?).any (·.progress = .queued) = true ∧
    ∀ other ∈ s.transitions.take k, other.stage = .settled

instance (s : State) (k : Nat) : Decidable (s.NextInLine k) :=
  inferInstanceAs (Decidable ((s.transitions[k]?).any (·.progress = .queued) = true ∧
    ∀ other ∈ s.transitions.take k, other.stage = .settled))

/-- Every settled transition was atomic, the next one can start, and between two transitions the
controller still reacts. -/
structure TransitionsAtomic (cfg : Config) (s : State) : Prop where
  atomic : ∀ job ∈ s.transitions, job.Atomic cfg
  next_starts : ∀ k < s.transitions.length, s.NextInLine k → (s.start cfg k).isSome
  responsive : (∀ job ∈ s.transitions, job.stage ≠ .running) → Responsive cfg s

instance (cfg : Config) (s : State) : Decidable (TransitionsAtomic cfg s) :=
  decidable_of_iff
    ((∀ job ∈ s.transitions, job.Atomic cfg) ∧
      (∀ k < s.transitions.length, s.NextInLine k → (s.start cfg k).isSome) ∧
      ((∀ job ∈ s.transitions, job.stage ≠ .running) → Responsive cfg s))
    ⟨fun h => ⟨h.1, h.2.1, h.2.2⟩, fun h => ⟨h.atomic, h.next_starts, h.responsive⟩⟩

/-- The failure of a callback leaves the transition without effect, or comes when nothing but the
remaining resources is missing. -/
def FailureLeavesWhole (cfg : Config) (s : State) (job : ModeTransition) (outcome : Outcome) :
    Prop :=
  match job.progress with
  | .switching run (callback :: _) =>
      callback.fails outcome →
        (s.afterCallback callback outcome).installed = run.before.installed ∧
          s.adaptivePhase = run.before.adaptivePhase
  | .published _ (callback :: _) =>
      callback.fails outcome → PhaseFor cfg job.intent s.adaptivePhase
  | _ => True

instance (cfg : Config) (s : State) (job : ModeTransition) (outcome : Outcome) :
    Decidable (FailureLeavesWhole cfg s job outcome) := by
  unfold FailureLeavesWhole
  split <;> infer_instance

def FailsCleanly (cfg : Config) (s : State) : Action → Prop
  | .callback k outcome =>
      match s.transitions[k]? with
      | some job => FailureLeavesWhole cfg s job outcome
      | none => True
  | _ => True

instance (cfg : Config) (s : State) (a : Action) : Decidable (FailsCleanly cfg s a) := by
  unfold FailsCleanly
  split
  · split <;> infer_instance
  · infer_instance

variable {cfg : Config} {s t u v : State} {a : Action} {k : Nat} {job : ModeTransition}
variable {progress : Progress} {before after : Snapshot} {run : Switch}
variable {callbacks : List Callback} {mode target : CaptureMode} {next : ModeState}

/-! ## The recorders -/

theorem foldl_callIf {condition : Bool} {callback : Callback} {installed : Installed}
    (h : condition = false → callback.effect installed = installed) :
    (callIf condition callback).foldl Callback.effect installed =
      callback.effect installed := by
  cases condition with
  | false => exact (h rfl).symm
  | true => rfl

/-- The recorder callbacks turn what is installed for one mode into what is installed for the
other. Those that are left out would change nothing. -/
theorem recorderCallbacks_effect (serverless : Bool) (previous next : ModeState) :
    (recorderCallbacks serverless true previous next).foldl Callback.effect
        (Installed.ofMode serverless previous) =
      Installed.ofMode serverless next := by
  let i₀ := Installed.ofMode serverless previous
  let i₁ : Installed := { i₀ with httpServer := next.recorders.httpServer }
  let i₂ : Installed := { i₁ with channels := subscribeAll next.recorders }
  let i₃ : Installed := { i₂ with fetch := fetchWrapper next.recorders.fetch next }
  let i₄ : Installed := { i₃ with netDns := next.recorders.netDns }
  let i₅ : Installed := { i₄ with database := next.recorders.database }
  let i₆ : Installed := { i₅ with processHandlers := next.recorders.processHandlers }
  have flush (condition : Bool) :
      (callIf condition .flushBeforeTimerRestart).foldl Callback.effect i₀ = i₀ := by
    cases condition <;> rfl
  have httpServer : (callIf (previous.recorders.httpServer ≠ next.recorders.httpServer)
      (.setHttpServerRecorderEnabled next.recorders.httpServer)).foldl Callback.effect i₀ = i₁ := by
    refine foldl_callIf fun hsame => ?_
    have heq : previous.recorders.httpServer = next.recorders.httpServer := by simpa using hsame
    simp only [Callback.effect, i₀, Installed.ofMode, heq]
  have channels : (callIf true (.updateChannelSubscriptions next.recorders)).foldl
      Callback.effect i₁ = i₂ := rfl
  have fetch : (callIf (previous.recorders.fetch ≠ next.recorders.fetch ||
      next.recorders.fetch && previous.captureResponseBodies ≠ next.captureResponseBodies)
      (.setFetchRecorderEnabled next.recorders.fetch next)).foldl Callback.effect i₂ = i₃ := by
    refine foldl_callIf fun hsame => ?_
    simp only [ne_eq, decide_not, Bool.or_eq_false_iff, Bool.not_eq_eq_eq_not, Bool.not_false,
      decide_eq_true_eq, Bool.and_eq_false_iff] at hsame
    have heq : fetchWrapper next.recorders.fetch next =
        fetchWrapper previous.recorders.fetch previous := by
      unfold fetchWrapper
      rw [hsame.1]
      rcases hsame.2 with hoff | hbodies
      · simp [hoff]
      · rw [hbodies]
    simp only [Callback.effect, i₂, i₁, i₀, Installed.ofMode, heq]
  have netDns : (callIf (previous.recorders.netDns ≠ next.recorders.netDns)
      (.setNetDnsRecorderEnabled next.recorders.netDns)).foldl Callback.effect i₃ = i₄ := by
    refine foldl_callIf fun hsame => ?_
    have heq : previous.recorders.netDns = next.recorders.netDns := by simpa using hsame
    simp only [Callback.effect, i₃, i₂, i₁, i₀, Installed.ofMode, heq]
  have database : (callIf (previous.recorders.database ≠ next.recorders.database)
      (.setDatabaseRecordersEnabled next.recorders.database)).foldl Callback.effect i₄ = i₅ := by
    refine foldl_callIf fun hsame => ?_
    have heq : previous.recorders.database = next.recorders.database := by simpa using hsame
    simp only [Callback.effect, i₄, i₃, i₂, i₁, i₀, Installed.ofMode, heq]
  have processHandlers :
      (callIf (previous.recorders.processHandlers ≠ next.recorders.processHandlers)
        (.setProcessHandlersEnabled next.recorders.processHandlers)).foldl Callback.effect i₅ =
        i₆ := by
    refine foldl_callIf fun hsame => ?_
    have heq : previous.recorders.processHandlers = next.recorders.processHandlers := by
      simpa using hsame
    simp only [Callback.effect, i₅, i₄, i₃, i₂, i₁, i₀, Installed.ofMode, heq]
  have monitor : (callIf (!serverless &&
      previous.capabilities.eventLoopLagMonitor ≠ next.capabilities.eventLoopLagMonitor)
      (.setEventLoopLagMonitorEnabled next.capabilities.eventLoopLagMonitor)).foldl
        Callback.effect i₆ = Installed.ofMode serverless next := by
    cases serverless with
    | true => rfl
    | false =>
        refine (foldl_callIf fun hsame => ?_).trans rfl
        have heq : previous.capabilities.eventLoopLagMonitor =
            next.capabilities.eventLoopLagMonitor := by simpa using hsame
        simp only [Callback.effect, i₆, i₅, i₄, i₃, i₂, i₁, i₀, Installed.ofMode, heq,
          Bool.not_false, Bool.true_and]
  simp only [recorderCallbacks, List.foldl_append, Bool.true_and]
  rw [flush, httpServer, channels, fetch, netDns, database, processHandlers, monitor]

theorem recorderCallbacks_ne_nil (serverless : Bool) (previous next : ModeState) :
    recorderCallbacks serverless true previous next ≠ [] := by
  simp [recorderCallbacks, callIf]

theorem recorderCallbacks_inactive (serverless : Bool) (previous next : ModeState) :
    recorderCallbacks serverless false previous next = [] := by
  simp [recorderCallbacks, callIf]

/-- However the callback ends, it switches no recorder. -/
def Callback.KeepsInstalled (callback : Callback) : Prop :=
  ∀ outcome installed, callback.after outcome installed = installed

theorem resourceCallbacks_keepInstalled (wasActive : Bool) (previous next : ModeState) :
    ∀ callback ∈ resourceCallbacks wasActive previous next, callback.KeepsInstalled := by
  intro callback hcallback outcome installed
  simp only [resourceCallbacks, callIf, List.mem_append, List.mem_cons, List.not_mem_nil,
    or_false] at hcallback
  rcases hcallback with (((rfl | rfl | rfl) | hcallback) | hcallback) | hcallback
  · cases outcome <;> rfl
  · cases outcome <;> rfl
  · cases outcome <;> rfl
  · split at hcallback
    · cases List.mem_singleton.mp hcallback
      cases outcome <;> rfl
    · contradiction
  · split at hcallback
    · cases List.mem_singleton.mp hcallback
      cases outcome <;> rfl
    · contradiction
  · split at hcallback
    · cases List.mem_singleton.mp hcallback
      cases outcome <;> rfl
    · contradiction

/-! ## What stands in every run -/

/-- The phase is escalated only with both times set. -/
def Timed (s : State) : Prop :=
  s.adaptivePhase = .escalated →
    s.adaptiveLastEscalationAt.isSome ∧ s.adaptiveLastCaptureAt.isSome

/-- Adaptive work comes after a capture. -/
def Captured (s : State) : Prop :=
  s.adaptiveLastCaptureAt.isSome ∨
    s.escalations = [] ∧ ∀ job ∈ s.transitions, job.intent.isManual = true

/-- The resources fit the lifecycle, and the times that the timer reads have been set when it reads
them. -/
structure Standing (s : State) : Prop where
  created : s.lifecycle = .created → s.installed = none
  active : s.lifecycle = .active → s.installed ≠ none
  captured : Captured s
  timed : Timed s

theorem Begins.timed (begins : Begins cfg s job u) (h : Timed s) : Timed u := by
  cases begins with
  | manual => exact h
  | adaptive => exact h
  | pinned => intro hphase; simp [State.pin] at hphase

theorem Recorders.timed (recorders : Recorders s job run callbacks v progress) (h : Timed s) :
    Timed v := by
  cases recorders <;> exact h

theorem reconcile_timed (h : Timed s) : Timed (s.reconcileManualAdaptiveState cfg mode) := by
  cases henabled : cfg.adaptiveCapture.enabled with
  | false =>
      rw [reconcile_of_disabled henabled]
      exact h
  | true =>
      intro hphase
      rw [reconcile_adaptivePhase henabled] at hphase
      simp [State.reconcileManualAdaptiveState, henabled, hphase]

theorem Finishes.timed {now : Int} (finishes : Finishes cfg s job now before v progress)
    (h : Timed s) (hcaptured : job.intent.isManual = false → s.adaptiveLastCaptureAt.isSome) :
    Timed v := by
  cases finishes with
  | rearmManual => exact reconcile_timed h
  | manual => exact reconcile_timed h
  | escalated intent => exact fun _ => ⟨rfl, hcaptured (by rw [intent]; rfl)⟩
  | deescalated => intro hphase; simp at hphase

theorem Moves.timed (moves : Moves cfg s k job a u progress) (h : Timed s)
    (hcaptured : job.intent.isManual = false → s.adaptiveLastCaptureAt.isSome) : Timed u := by
  cases moves with
  | cancelled => exact h
  | refused => intro hphase; simp [State.pin] at hphase
  | failedStart _ begins _ => exact begins.timed h
  | unchangedManual _ _ _ finishes => exact finishes.timed h hcaptured
  | unchangedAdaptive _ _ begins _ => exact begins.timed h
  | begun _ begins _ recorders => exact recorders.timed (begins.timed h)
  | recorderFailed => exact h
  | recorderReturned _ _ recorders => exact recorders.timed h
  | resourceFailed => exact h
  | resourceReturned => exact h
  | completed _ _ finishes => exact finishes.timed h hcaptured
  | rearmFailed => exact h
  | rearmed =>
      unfold State.recordResolved
      split <;> exact h

theorem reconcile_installed :
    (s.reconcileManualAdaptiveState cfg mode).installed = s.installed := by
  unfold State.reconcileManualAdaptiveState
  split
  · rfl
  · simp only
    split <;> split <;> rfl

theorem Finishes.installed_eq {now : Int} (finishes : Finishes cfg s job now before v progress) :
    v.installed = s.installed := by
  cases finishes with
  | rearmManual => exact reconcile_installed
  | manual => exact reconcile_installed
  | escalated => rfl
  | deescalated => rfl

theorem Begins.installed_eq (begins : Begins cfg s job u) : u.installed = s.installed := by
  cases begins <;> rfl

theorem Recorders.installed_eq (recorders : Recorders s job run callbacks v progress) :
    v.installed = s.installed := by
  cases recorders <;> rfl

theorem afterCallback_installed_eq_none (callback : Callback) (outcome : Outcome) :
    (s.afterCallback callback outcome).installed = none ↔ s.installed = none := by
  simp [State.afterCallback]

/-- A move installs nothing before the activation, and keeps something installed after it. -/
theorem Moves.installed_eq_none (moves : Moves cfg s k job a u progress) :
    u.installed = none ↔ s.installed = none := by
  cases moves with
  | cancelled => rfl
  | refused => rfl
  | failedStart _ begins _ => rw [begins.installed_eq]
  | unchangedManual _ _ _ finishes => rw [finishes.installed_eq]
  | unchangedAdaptive _ _ begins _ => rw [begins.installed_eq]
  | begun _ begins _ recorders => rw [recorders.installed_eq, begins.installed_eq]
  | recorderFailed => exact afterCallback_installed_eq_none _ _
  | recorderReturned _ _ recorders =>
      rw [recorders.installed_eq]
      exact afterCallback_installed_eq_none _ _
  | resourceFailed => exact afterCallback_installed_eq_none _ _
  | resourceReturned => exact afterCallback_installed_eq_none _ _
  | completed _ _ finishes =>
      rw [finishes.installed_eq]
      exact afterCallback_installed_eq_none _ _
  | rearmFailed => rfl
  | rearmed =>
      unfold State.recordResolved
      split <;> rfl

theorem Captured.of_adaptive (h : Captured s) (hk : s.transitions[k]? = some job)
    (hadaptive : job.intent.isManual = false) : s.adaptiveLastCaptureAt.isSome := by
  rcases h with h | ⟨_, hmanual⟩
  · exact h
  · have := hmanual job (List.mem_of_getElem? hk)
    simp [hadaptive] at this

theorem Captured.move (h : Captured s) (hk : s.transitions[k]? = some job)
    (moves : Moves cfg s k job a u progress) : Captured (u.setProgress k progress) := by
  have hkeeps := moves.keepsQueue
  rcases h with h | ⟨hescalations, hmanual⟩
  · exact .inl (hkeeps.lastCaptureAt h)
  · refine .inr ⟨hkeeps.escalations.trans hescalations, fun other hother => ?_⟩
    rw [moves.transitions_eq hk] at hother
    rcases List.mem_or_eq_of_mem_set hother with hmem | rfl
    · exact hmanual other hmem
    · exact hmanual job (List.mem_of_getElem? hk)

/-- Adaptive work is added by a capture, by its microtask, and by the timer once there has been a
capture. -/
theorem Captured.step (h : Captured s) (hstep : s.step cfg a = some t) : Captured t := by
  cases a with
  | start k =>
      obtain ⟨job, u, progress, hk, _, moves, rfl⟩ := State.start_cases hstep
      exact h.move hk moves
  | callback k outcome =>
      obtain ⟨job, u, progress, hk, _, moves, rfl⟩ := State.callbackReturns_cases hstep
      exact h.move hk moves
  | activate =>
      simp only [State.step, State.activate] at hstep
      split at hstep
      · cases hstep
        exact h
      · contradiction
  | beginShutdown =>
      simp only [State.step, State.beginShutdown] at hstep
      split at hstep
      · cases hstep
        exact h
      · contradiction
  | finishShutdown =>
      simp only [State.step, State.finishShutdown] at hstep
      split at hstep
      · cases hstep
        exact h
      · contradiction
  | clock now =>
      cases hstep
      exact h
  | capture modeAtCapture =>
      cases hstep
      unfold State.handleAdmittedCapture
      split
      · exact h
      · simp only
        split <;> exact .inl rfl
  | escalate i =>
      simp only [State.step, Option.map_eq_some_iff] at hstep
      obtain ⟨escalation, hi, rfl⟩ := hstep
      rcases h with h | ⟨hescalations, _⟩
      · have henv : Environment cfg s (.escalate i) (State.escalate cfg
            { s with escalations := s.escalations.eraseIdx i } escalation) :=
          .escalate _ escalation
        exact .inl (henv.lastCaptureAt h)
      · simp [hescalations] at hi
  | timer =>
      simp only [State.step] at hstep
      split at hstep
      · cases hstep
        unfold State.evaluateAdaptiveDeescalation
        split
        · next hquiet =>
            have hcaptured : s.adaptiveLastCaptureAt.isSome := by
              have hread := hquiet.2.2
              unfold State.quietAndDwelled at hread
              split at hread
              · next hcapture => simp [hcapture]
              · contradiction
            have henv : Environment cfg s .timer (s.switchAdaptiveMode cfg.adaptiveCapture.base
                s.adaptiveIntentGeneration s.admissions) :=
              .switchAdaptiveMode _ _ _
            exact .inl (henv.lastCaptureAt hcaptured)
        · exact h
      · contradiction
  | setCaptureMode mode =>
      cases hstep
      unfold State.setCaptureMode
      split
      · exact h
      · cases resolveCaptureMode mode with
        | error => exact h
        | ok target =>
            rcases h with h | ⟨hescalations, hmanual⟩
            · simp only
              split <;> exact .inl h
            · simp only
              split
              · refine .inr ⟨hescalations, fun job hjob => ?_⟩
                rcases List.mem_append.mp hjob with hmem | hnew
                · exact hmanual job hmem
                · rw [List.mem_singleton.mp hnew]
                  rfl
              · refine .inr ⟨hescalations, fun job hjob => ?_⟩
                rcases List.mem_append.mp hjob with hmem | hnew
                · exact hmanual job hmem
                · rw [List.mem_singleton.mp hnew]
                  rfl

theorem Standing.step (h : Standing s) (hstep : s.step cfg a = some t) : Standing t := by
  have hcaptured := h.captured.step hstep
  rcases step_cases hstep with ⟨k, job, u, progress, hk, _, moves, rfl⟩ | henv
  · have hlifecycle := moves.keepsQueue.lifecycle
    refine ⟨?_, ?_, hcaptured, moves.timed h.timed (h.captured.of_adaptive hk)⟩
    · intro hcreated
      exact moves.installed_eq_none.mpr (h.created (hlifecycle ▸ hcreated))
    · intro hactive hnone
      exact h.active (hlifecycle ▸ hactive) (moves.installed_eq_none.mp hnone)
  · refine ⟨?_, ?_, hcaptured, ?_⟩
    · intro hcreated
      rcases henv.resources with ⟨hinstalled, hlifecycle⟩ | ⟨_, _, hactive⟩ | ⟨_, hnone, _⟩
      · rcases hlifecycle with hsame | hdown
        · rw [hinstalled]
          exact h.created (hsame ▸ hcreated)
        · simp [hcreated] at hdown
      · simp [hcreated] at hactive
      · exact hnone
    · intro hactive
      rcases henv.resources with ⟨hinstalled, hlifecycle⟩ | ⟨_, hinstalled, _⟩ | ⟨_, _, hdown⟩
      · rcases hlifecycle with hsame | hdown
        · rw [hinstalled]
          exact h.active (hsame ▸ hactive)
        · simp [hactive] at hdown
      · simp [hinstalled]
      · simp [hactive] at hdown
    · intro hphase
      rw [henv.adaptivePhase] at hphase
      obtain ⟨hescalation, hcapture⟩ := h.timed hphase
      exact ⟨by rw [henv.lastEscalationAt]; exact hescalation, henv.lastCaptureAt hcapture⟩

theorem Standing.initial (now : Int) : Standing (.initial cfg now) where
  created _ := rfl
  active hactive := by simp [State.initial] at hactive
  captured := .inr ⟨rfl, by simp [State.initial]⟩
  timed hphase := by
    unfold State.initial at hphase
    simp only at hphase
    split at hphase <;> contradiction

/-! ## Whole transitions -/

/-- The phase fits the mode, and so does what is installed. -/
structure Snapshot.Sound (cfg : Config) (snapshot : Snapshot) : Prop where
  base : snapshot.adaptivePhase = .base → snapshot.captureMode = cfg.adaptiveCapture.base
  escalated : snapshot.adaptivePhase = .escalated ∨ snapshot.adaptivePhase = .pinned →
    snapshot.captureMode = cfg.adaptiveCapture.escalated
  manual : snapshot.adaptivePhase = .manual →
    snapshot.captureMode ≠ cfg.adaptiveCapture.base ∧
      snapshot.captureMode ≠ cfg.adaptiveCapture.escalated
  installed : snapshot.installed = none ∨ InstalledFor cfg snapshot.captureMode snapshot.installed

/-- The transition found the controller sound, and leaves what it has to switch to the callbacks
that are still to come. -/
def RunsWhole (cfg : Config) (s : State) (job : ModeTransition) : Prop :=
  match job.progress with
  | .switching run callbacks =>
      run.before.Sound cfg ∧ run.before.installed ≠ none ∧
        ∃ installed, s.installed = some installed ∧
          callbacks.foldl Callback.effect installed =
            Installed.ofMode cfg.baseConfig.serverless run.next
  | .published run callbacks =>
      run.before.Sound cfg ∧
        (run.before.installed = none ∧ s.installed = none ∨
          s.installed = some (Installed.ofMode cfg.baseConfig.serverless run.next)) ∧
        ∀ callback ∈ callbacks, callback.KeepsInstalled
  | .rearming before => before.Sound cfg ∧ Complete cfg job.intent before s.snapshot
  | _ => True

structure WholeInv (cfg : Config) (s : State) : Prop where
  inv : Inv cfg s
  standing : Standing s
  turns : Turns ModeTransition.stage s.transitions (RunsWhole cfg s) (s.snapshot.Sound cfg)
  atomic : ∀ job ∈ s.transitions, job.Atomic cfg

theorem installedFor_ofMode (h : cfg.resolveModeState mode = .ok next) :
    InstalledFor cfg mode (some (Installed.ofMode cfg.baseConfig.serverless next)) := by
  refine ⟨by simp, ?_⟩
  rw [h]
  rfl

theorem InstalledFor.eq (h : cfg.resolveModeState mode = .ok next) {installed : Option Installed}
    (hinstalled : InstalledFor cfg mode installed) :
    installed = some (Installed.ofMode cfg.baseConfig.serverless next) := by
  rw [hinstalled.2, h]
  rfl

theorem manualPhase_eq_base (h : State.manualPhase cfg mode = .base) :
    mode = cfg.adaptiveCapture.base := by
  unfold State.manualPhase at h
  split at h
  · assumption
  · split at h <;> contradiction

theorem manualPhase_eq_manual (h : State.manualPhase cfg mode = .manual) :
    mode ≠ cfg.adaptiveCapture.base ∧ mode ≠ cfg.adaptiveCapture.escalated := by
  unfold State.manualPhase at h
  split at h
  · contradiction
  · next hbase =>
      split at h
      · contradiction
      · next hescalated => exact ⟨hbase, hescalated⟩

theorem manualPhase_ne_pinned : State.manualPhase cfg mode ≠ .pinned := by
  unfold State.manualPhase
  split
  · simp
  · split <;> simp

/-- An intent of the timer or of a capture is for one of the two configured modes. -/
def Intent.Endpoint (cfg : Config) : Intent → Prop
  | .manual _ => True
  | .adaptive target _ =>
      target = cfg.adaptiveCapture.base ∨ target = cfg.adaptiveCapture.escalated

theorem PhaseDuring.endpoint {phase : AdaptiveCapturePhase} {intent : Intent}
    (h : PhaseDuring cfg phase intent before) : intent.Endpoint cfg := by
  cases intent with
  | manual => trivial
  | adaptive target generation =>
      rcases h.2 with ⟨htarget, _⟩ | ⟨htarget, _⟩
      · exact .inr htarget
      · exact .inl htarget

/-- A complete transition leaves the controller sound. -/
theorem Complete.sound {intent : Intent} (h : Complete cfg intent before after)
    (hendpoint : intent.Endpoint cfg)
    (hdisabled : cfg.adaptiveCapture.enabled = false → after.adaptivePhase = .inactive) :
    after.Sound cfg := by
  have hinstalled : after.installed = none ∨ InstalledFor cfg after.captureMode
      after.installed := by
    rcases h.installed with ⟨_, hnone⟩ | hfor
    · exact .inl hnone
    · exact .inr (by rw [h.captureMode]; exact hfor)
  have hphase := h.phase
  have hmode := h.captureMode
  cases intent with
  | manual mode =>
      cases henabled : cfg.adaptiveCapture.enabled with
      | false =>
          have hinactive := hdisabled henabled
          exact ⟨by simp [hinactive], by simp [hinactive], by simp [hinactive], hinstalled⟩
      | true =>
          have hmanual : after.adaptivePhase = State.manualPhase cfg mode := hphase henabled
          simp only [Intent.target] at hmode
          refine ⟨?_, ?_, ?_, hinstalled⟩
          · intro hbase
            rw [hmode]
            exact manualPhase_eq_base (hmanual ▸ hbase)
          · rintro (hescalated | hpinned)
            · rw [hmode]
              exact manualPhase_eq_escalated (hmanual ▸ hescalated)
            · exact absurd (hmanual ▸ hpinned) manualPhase_ne_pinned
          · intro heq
            rw [hmode]
            exact manualPhase_eq_manual (hmanual ▸ heq)
  | adaptive target generation =>
      simp only [PhaseFor] at hphase
      simp only [Intent.target] at hmode
      split at hphase
      · next htarget =>
          refine ⟨?_, ?_, ?_, hinstalled⟩
          · intro hbase
            rcases hphase with hphase | hphase <;> simp [hbase] at hphase
          · intro _
            rw [hmode, htarget]
          · intro hmanual
            rcases hphase with hphase | hphase <;> simp [hmanual] at hphase
      · next htarget =>
          have hbase : target = cfg.adaptiveCapture.base := by
            rcases hendpoint with hbase | hescalated
            · exact hbase
            · exact absurd hescalated htarget
          refine ⟨?_, ?_, ?_, hinstalled⟩
          · intro _
            rw [hmode, hbase]
          · rintro (hescalated | hpinned)
            · simp [hphase] at hescalated
            · simp [hphase] at hpinned
          · intro hmanual
            simp [hphase] at hmanual

/-- What a move has to leave: the transition whole while it runs, and the controller sound and the
transition atomic once it has settled. -/
def LeavesWhole (cfg : Config) (u : State) (job : ModeTransition) (progress : Progress) : Prop :=
  match progress with
  | .settled settlement => u.snapshot.Sound cfg ∧ settlement.Atomic cfg job.intent
  | _ => RunsWhole cfg u { job with progress := progress }

theorem Recorders.whole (recorders : Recorders s job run callbacks v progress)
    (hbefore : run.before.Sound cfg)
    (hactive : callbacks ≠ [] → run.before.installed ≠ none)
    (hinstalled : (∃ installed, s.installed = some installed ∧
        callbacks.foldl Callback.effect installed =
          Installed.ofMode cfg.baseConfig.serverless run.next) ∨
      callbacks = [] ∧ run.before.installed = none ∧ s.installed = none) :
    LeavesWhole cfg v job progress := by
  cases recorders with
  | switching =>
      refine ⟨hbefore, hactive (by simp), ?_⟩
      rcases hinstalled with h | ⟨hnil, _⟩
      · exact h
      · contradiction
  | published =>
      refine ⟨hbefore, ?_, resourceCallbacks_keepInstalled _ _ _⟩
      rcases hinstalled with ⟨installed, hsome, heq⟩ | ⟨_, hbefore, hnone⟩
      · right
        show s.installed = _
        rw [hsome, ← heq]
        rfl
      · exact .inl ⟨hbefore, hnone⟩

/-- The end of a transition whose mode is in force and whose recorders are installed. -/
theorem Finishes.whole {now : Int} (finishes : Finishes cfg s job now before v progress)
    (hfields : Fields cfg s) (hbefore : before.Sound cfg)
    (hmode : s.modeState.captureMode = job.intent.target)
    (hinstalled : before.installed = none ∧ s.installed = none ∨
      InstalledFor cfg job.intent.target s.installed)
    (phase : PhaseDuring cfg s.adaptivePhase job.intent before) :
    LeavesWhole cfg v job progress := by
  have hendpoint := phase.endpoint
  cases finishes with
  | @rearmManual mode intent rearms =>
      refine ⟨hbefore, ?_, ?_, ?_⟩
      · rw [← hmode, ← @reconcile_modeState cfg s mode]
        rfl
      · rw [intent]
        exact fun henabled => reconcile_adaptivePhase henabled
      · have heq := @reconcile_installed cfg s mode
        show before.installed = none ∧ (s.reconcileManualAdaptiveState cfg mode).installed = none ∨
          InstalledFor cfg job.intent.target (s.reconcileManualAdaptiveState cfg mode).installed
        rw [heq]
        exact hinstalled
  | @manual mode intent =>
      have hcomplete : Complete cfg job.intent before
          (s.reconcileManualAdaptiveState cfg mode).snapshot := by
        refine ⟨?_, ?_, ?_⟩
        · rw [← hmode, ← @reconcile_modeState cfg s mode]
          rfl
        · rw [intent]
          exact fun henabled => reconcile_adaptivePhase henabled
        · have heq := @reconcile_installed cfg s mode
          show before.installed = none ∧
              (s.reconcileManualAdaptiveState cfg mode).installed = none ∨
            InstalledFor cfg job.intent.target (s.reconcileManualAdaptiveState cfg mode).installed
          rw [heq]
          exact hinstalled
      exact ⟨hcomplete.sound hendpoint hfields.reconcile.disabled, .inr hcomplete⟩
  | @escalated generation intent =>
      refine ⟨hbefore, hmode, ?_, hinstalled⟩
      rw [intent]
      show PhaseFor cfg _ s.escalatedPhase
      unfold State.escalatedPhase
      simp only [PhaseFor, if_true]
      split <;> simp
  | @deescalated target generation intent target_ne =>
      have hcomplete : Complete cfg job.intent before
          { s.stampSwitch now with adaptivePhase := .base }.snapshot := by
        refine ⟨hmode, ?_, hinstalled⟩
        rw [intent]
        simp only [PhaseFor, if_neg target_ne]
        rfl
      refine ⟨hcomplete.sound hendpoint ?_, .inr hcomplete⟩
      intro hdisabled
      rw [intent] at phase
      have henabled := phase.1
      simp [hdisabled] at henabled

/-- What is installed suits the mode that an unchanged transition finds in force. -/
theorem Snapshot.Sound.installed_cases {snapshot : Snapshot} (h : snapshot.Sound cfg)
    (hmode : snapshot.captureMode = mode) :
    snapshot.installed = none ∧ snapshot.installed = none ∨
      InstalledFor cfg mode snapshot.installed := by
  rcases h.installed with hnone | hfor
  · exact .inl ⟨hnone, hnone⟩
  · exact .inr (hmode ▸ hfor)

/-- The recorders at the start of a switch. -/
theorem Begins.whole (h : WholeInv cfg s) (begins : Begins cfg s job u)
    (hsound : s.snapshot.Sound cfg)
    (changed : u.applyCaptureMode cfg job.intent.target = .ok (some next))
    (recorders : Recorders u job ⟨s.snapshot, u.modeState, next, u.lifecycle = .active, u.clock⟩
      (recorderCallbacks cfg.baseConfig.serverless (u.lifecycle = .active) u.modeState next)
      v progress) : LeavesWhole cfg v job progress := by
  have hbegun := begins.begun h.inv.fields
  by_cases hactive : u.lifecycle = .active
  · have hne : s.installed ≠ none := h.standing.active (hbegun.lifecycle ▸ hactive)
    refine recorders.whole hsound (fun _ => hne) (.inl ?_)
    rcases hsound.installed with hnone | hfor
    · exact absurd hnone hne
    · have hinstalled := hfor.eq h.inv.fields.resolved
      refine ⟨_, hbegun.installed.trans hinstalled, ?_⟩
      rw [← hbegun.modeState]
      simp only [hactive, decide_true]
      exact recorderCallbacks_effect _ _ _
  · have hcreated : s.lifecycle = .created := by
      unfold State.applyCaptureMode at changed
      split at changed
      · contradiction
      · next hswitch =>
          simp only [State.canSwitchMode, Bool.or_eq_true, decide_eq_true_eq, not_not]
            at hswitch
          rcases hswitch with hcreated | hyes
          · exact hbegun.lifecycle ▸ hcreated
          · exact absurd hyes hactive
    have hnone : s.installed = none := h.standing.created hcreated
    have hnil : recorderCallbacks cfg.baseConfig.serverless (u.lifecycle = .active) u.modeState
        next = [] := by
      simp only [hactive, decide_false]
      exact recorderCallbacks_inactive _ _ _
    refine recorders.whole hsound (fun hne => absurd hnil hne) (.inr ⟨hnil, hnone, ?_⟩)
    rw [hbegun.installed]
    exact hnone

/-- A failure that meets the guard leaves the transition without effect or complete. -/
theorem WholeInv.failed {outcome : Outcome} (h : WholeInv cfg s)
    (hk : s.transitions[k]? = some job) (hturn : s.HasTurn job)
    (hguard : FailureLeavesWhole cfg s job outcome) :
    (∀ run callback rest, job.progress = .switching run (callback :: rest) →
      callback.fails outcome →
      (s.afterCallback callback outcome).snapshot = run.before ∧ run.before.Sound cfg) ∧
    ∀ run callback rest, job.progress = .published run (callback :: rest) →
      callback.fails outcome →
      Complete cfg job.intent run.before (s.afterCallback callback outcome).snapshot := by
  have hwell := h.inv.runsWell hk hturn
  constructor
  · intro run callback rest hprogress hfails
    simp only [RunsWell, hprogress] at hwell
    simp only [FailureLeavesWhole, hprogress] at hguard
    obtain ⟨hinstalled, hphase⟩ := hguard hfails
    have hrun : job.stage = .running := by rw [ModeTransition.stage, hprogress]; rfl
    have hwhole := h.turns.running k job hk hrun
    simp only [RunsWhole, hprogress] at hwhole
    refine ⟨?_, hwhole.1⟩
    have hmode : s.modeState.captureMode = run.before.captureMode := by
      rw [hwell.2.1]
      exact resolveModeState_captureMode hwell.1.previous
    unfold State.snapshot
    rw [hinstalled]
    show Snapshot.mk s.modeState.captureMode s.adaptivePhase run.before.installed = run.before
    rw [hmode, hphase]
  · intro run callback rest hprogress hfails
    simp only [RunsWell, hprogress] at hwell
    simp only [FailureLeavesWhole, hprogress] at hguard
    have hrun : job.stage = .running := by rw [ModeTransition.stage, hprogress]; rfl
    have hwhole := h.turns.running k job hk hrun
    simp only [RunsWhole, hprogress] at hwhole
    have hkept : (s.afterCallback callback outcome).installed = s.installed := by
      have hkeeps := hwhole.2.2 callback List.mem_cons_self
      simp only [State.afterCallback]
      cases s.installed with
      | none => rfl
      | some installed => rw [Option.map_some, hkeeps outcome installed]
    refine ⟨?_, hguard hfails, ?_⟩
    · show s.modeState.captureMode = _
      rw [hwell.2.1]
      exact resolveModeState_captureMode hwell.1.next
    · show run.before.installed = none ∧ (s.afterCallback callback outcome).installed = none ∨
        InstalledFor cfg _ (s.afterCallback callback outcome).installed
      rw [hkept]
      rcases hwhole.2.1 with hnone | hinstalled
      · exact .inl hnone
      · rw [hinstalled]
        exact .inr (installedFor_ofMode hwell.1.next)

theorem WholeInv.sound_of_queued (h : WholeInv cfg s) (hk : s.transitions[k]? = some job)
    (hturn : s.HasTurn job) (queued : job.progress = .queued) : s.snapshot.Sound cfg := by
  have hwait : job.stage = .waiting := by rw [ModeTransition.stage, queued]; rfl
  rcases hturn with hrun | ⟨_, released⟩
  · have hstage : job.stage = .running := hrun
    simp [hwait] at hstage
  · exact h.turns.rest_of_released h.inv.serial hk hwait released

theorem recordResolved_snapshot : (s.recordResolved job).snapshot = s.snapshot := by
  unfold State.recordResolved
  split <;> rfl

theorem Moves.whole (moves : Moves cfg s k job a u progress) (h : WholeInv cfg s)
    (hk : s.transitions[k]? = some job) (hturn : s.HasTurn job) (hguard : FailsCleanly cfg s a) :
    LeavesWhole cfg u job progress := by
  have hwell := h.inv.runsWell hk hturn
  have hwhole : job.stage = .running → RunsWhole cfg s job := h.turns.running k job hk
  cases moves with
  | cancelled queued => exact ⟨h.sound_of_queued hk hturn queued, trivial⟩
  | refused queued _ current target_ne =>
      have hsound := h.sound_of_queued hk hturn queued
      rcases State.isCurrentAdaptiveTransition_cases current with
        ⟨heq, _, _⟩ | ⟨_, _, _, hmode⟩
      · exact absurd heq target_ne
      · refine ⟨⟨?_, fun _ => hmode, ?_, hsound.installed⟩, trivial⟩
        · intro hphase
          simp [State.snapshot, State.pin] at hphase
        · intro hphase
          simp [State.snapshot, State.pin] at hphase
  | failedStart queued begins error =>
      have hsame := begins.snapshot_eq_of_error h.inv.fields error
      refine ⟨?_, .inl hsame⟩
      rw [hsame]
      exact h.sound_of_queued hk hturn queued
  | unchangedManual queued intent unchanged finishes =>
      have hsound := h.sound_of_queued hk hturn queued
      have hmode : s.modeState.captureMode = job.intent.target := by
        rw [State.captureMode_eq_of_unchanged unchanged, intent]
        rfl
      refine finishes.whole h.inv.fields hsound hmode (hsound.installed_cases hmode) ?_
      rw [intent]
      rfl
  | unchangedAdaptive _ intent begins unchanged =>
      exact (begins.not_unchanged h.inv.fields intent unchanged).elim
  | begun queued begins changed recorders =>
      exact begins.whole h (h.sound_of_queued hk hturn queued) changed recorders
  | recorderFailed switching fails =>
      simp only [FailsCleanly, hk] at hguard
      obtain ⟨hsame, hsound⟩ := (h.failed hk hturn hguard).1 _ _ _ switching fails
      exact ⟨by rw [hsame]; exact hsound, .inl hsame⟩
  | @recorderReturned run callback rest outcome _ _ switching returned recorders =>
      have hrun := hwhole (by rw [ModeTransition.stage, switching]; rfl)
      simp only [RunsWhole, switching] at hrun
      obtain ⟨hbefore, hne, installed, hsome, heq⟩ := hrun
      refine recorders.whole hbefore (fun _ => hne) (.inl ⟨callback.effect installed, ?_, heq⟩)
      simp only [State.afterCallback, hsome, Option.map_some, Option.some.injEq]
      cases outcome with
      | returned => rfl
      | threw => simp [Callback.fails] at returned
      | rejected => rfl
  | resourceFailed published fails =>
      simp only [FailsCleanly, hk] at hguard
      have hcomplete := (h.failed hk hturn hguard).2 _ _ _ published fails
      simp only [RunsWell, published] at hwell
      exact ⟨hcomplete.sound hwell.2.2.endpoint h.inv.fields.disabled, .inr hcomplete⟩
  | @resourceReturned run callback following rest outcome published returned =>
      have hrun := hwhole (by rw [ModeTransition.stage, published]; rfl)
      simp only [RunsWhole, published] at hrun
      obtain ⟨hbefore, hinstalled, hkeeps⟩ := hrun
      refine ⟨hbefore, ?_, fun c hc => hkeeps c (List.mem_cons_of_mem _ hc)⟩
      have hkept := hkeeps callback List.mem_cons_self
      simp only [State.afterCallback]
      rcases hinstalled with ⟨hnone, hs⟩ | hs
      · exact .inl ⟨hnone, by rw [hs]; rfl⟩
      · exact .inr (by rw [hs, Option.map_some, hkept outcome])
  | @completed run callback outcome _ _ published returned finishes =>
      have hrun := hwhole (by rw [ModeTransition.stage, published]; rfl)
      simp only [RunsWhole, published] at hrun
      obtain ⟨hbefore, hinstalled, hkeeps⟩ := hrun
      simp only [RunsWell, published] at hwell
      obtain ⟨proper, hmode, hphase⟩ := hwell
      have hkept := hkeeps callback List.mem_cons_self
      have hfields := h.inv.fields
      refine finishes.whole
        ⟨hfields.resolved, hfields.disabled, hfields.enabled, hfields.stamped⟩ hbefore ?_ ?_
        hphase
      · show s.modeState.captureMode = job.intent.target
        rw [hmode]
        exact resolveModeState_captureMode proper.next
      · show run.before.installed = none ∧ s.installed.map (callback.after outcome) = none ∨
          InstalledFor cfg job.intent.target (s.installed.map (callback.after outcome))
        rcases hinstalled with ⟨hnone, hs⟩ | hs
        · exact .inl ⟨hnone, by rw [hs]; rfl⟩
        · rw [hs, Option.map_some, hkept outcome]
          exact .inr (installedFor_ofMode proper.next)
  | rearmFailed rearming _ =>
      have hrun := hwhole (by rw [ModeTransition.stage, rearming]; rfl)
      simp only [RunsWhole, rearming] at hrun
      simp only [RunsWell, rearming] at hwell
      have hendpoint : job.intent.Endpoint cfg := by
        have htarget := hwell.target
        cases hintent : job.intent with
        | manual => trivial
        | adaptive target generation =>
            rw [hintent] at htarget
            exact .inr htarget
      exact ⟨hrun.2.sound hendpoint h.inv.fields.disabled, .inr hrun.2⟩
  | rearmed rearming =>
      have hrun := hwhole (by rw [ModeTransition.stage, rearming]; rfl)
      simp only [RunsWhole, rearming] at hrun
      simp only [RunsWell, rearming] at hwell
      have hendpoint : job.intent.Endpoint cfg := by
        have htarget := hwell.target
        cases hintent : job.intent with
        | manual => trivial
        | adaptive target generation =>
            rw [hintent] at htarget
            exact .inr htarget
      refine ⟨?_, .inr hrun.2⟩
      rw [recordResolved_snapshot]
      exact hrun.2.sound hendpoint h.inv.fields.disabled

/-- A step from outside leaves a running transition whole, an activation included. -/
theorem RunsWhole.outside (h : WholeInv cfg s) (henv : Environment cfg s a t)
    (hjob : job ∈ s.transitions) (hrun : job.stage = .running)
    (hwhole : RunsWhole cfg s job) (hwell : RunsWell cfg s job) : RunsWhole cfg t job := by
  rcases henv.resources with ⟨hinstalled, _⟩ | ⟨hcreated, hinstalled, _⟩ | ⟨hsettled, _, _⟩
  · unfold RunsWhole at hwhole ⊢
    cases hprogress : job.progress with
    | switching =>
        simp only [hprogress] at hwhole ⊢
        rwa [hinstalled]
    | published =>
        simp only [hprogress] at hwhole ⊢
        rwa [hinstalled]
    | rearming =>
        simp only [hprogress] at hwhole ⊢
        have hsame : t.snapshot = s.snapshot := by
          simp only [State.snapshot, henv.modeState, henv.adaptivePhase, hinstalled]
        rwa [hsame]
    | _ => trivial
  · have hnone := h.standing.created hcreated
    unfold RunsWhole at hwhole ⊢
    unfold RunsWell at hwell
    cases hprogress : job.progress with
    | switching =>
        simp only [hprogress, hnone] at hwhole
        obtain ⟨_, _, installed, hsome, _⟩ := hwhole
        contradiction
    | published =>
        simp only [hprogress] at hwhole hwell ⊢
        exact ⟨hwhole.1, .inr (by rw [hinstalled, hwell.2.1]), hwhole.2.2⟩
    | rearming =>
        simp only [hprogress] at hwhole hwell ⊢
        obtain ⟨hbefore, hcomplete⟩ := hwhole
        refine ⟨hbefore, ?_, ?_, .inr ?_⟩
        · exact (congrArg ModeState.captureMode henv.modeState).trans hcomplete.captureMode
        · show PhaseFor cfg job.intent t.adaptivePhase
          rw [henv.adaptivePhase]
          exact hcomplete.phase
        · show InstalledFor cfg job.intent.target t.installed
          have hmode : s.modeState.captureMode = job.intent.target := hcomplete.captureMode
          rw [hinstalled, ← hmode]
          exact installedFor_ofMode h.inv.fields.resolved
    | _ => trivial
  · have := hsettled job hjob
    simp [hrun] at this

theorem Snapshot.Sound.outside (h : WholeInv cfg s) (henv : Environment cfg s a t)
    (hsound : s.snapshot.Sound cfg) : t.snapshot.Sound cfg := by
  have hinstalled : t.installed = none ∨ InstalledFor cfg s.modeState.captureMode t.installed := by
    rcases henv.resources with ⟨hsame, _⟩ | ⟨_, hsome, _⟩ | ⟨_, hnone, _⟩
    · rw [hsame]
      exact hsound.installed
    · rw [hsome]
      exact .inr (installedFor_ofMode h.inv.fields.resolved)
    · exact .inl hnone
  have hmode : t.snapshot.captureMode = s.snapshot.captureMode := by
    simp only [State.snapshot, henv.modeState]
  have hphase : t.snapshot.adaptivePhase = s.snapshot.adaptivePhase := henv.adaptivePhase
  refine ⟨?_, ?_, ?_, ?_⟩
  · rw [hmode, hphase]
    exact hsound.base
  · rw [hmode, hphase]
    exact hsound.escalated
  · rw [hmode, hphase]
    exact hsound.manual
  · rw [hmode]
    exact hinstalled

theorem LeavesWhole.running (h : LeavesWhole cfg u job progress)
    (hrun : ({ job with progress := progress } : ModeTransition).stage = .running) :
    RunsWhole cfg (u.setProgress k progress) { job with progress := progress } := by
  unfold ModeTransition.stage at hrun
  cases progress with
  | queued => contradiction
  | settled => contradiction
  | switching => exact h
  | published => exact h
  | rearming => exact h

theorem LeavesWhole.atomic (h : LeavesWhole cfg u job progress) :
    ({ job with progress := progress } : ModeTransition).Atomic cfg := by
  unfold ModeTransition.Atomic
  cases progress with
  | settled => exact h.2
  | _ => trivial

theorem LeavesWhole.resting (h : LeavesWhole cfg u job progress)
    (moves : Moves cfg s k job a u progress)
    (hidle : ({ job with progress := progress } : ModeTransition).stage ≠ .running) :
    (u.setProgress k progress).snapshot.Sound cfg := by
  have hne := moves.progress_ne_queued
  unfold ModeTransition.stage at hidle
  cases progress with
  | settled => exact h.1
  | queued => simp [Progress.stage] at hne
  | switching => simp [Progress.stage] at hidle
  | published => simp [Progress.stage] at hidle
  | rearming => simp [Progress.stage] at hidle

theorem Enqueues.atomic (h : Enqueues s t) (hatomic : ∀ job ∈ s.transitions, job.Atomic cfg) :
    ∀ job ∈ t.transitions, job.Atomic cfg := by
  intro job hjob
  rcases h with ⟨htransitions, _⟩ | ⟨intent, admitted, htransitions, _⟩
  · exact hatomic job (htransitions ▸ hjob)
  · rw [htransitions] at hjob
    rcases List.mem_append.mp hjob with hmem | hnew
    · exact hatomic job hmem
    · rw [List.mem_singleton.mp hnew]
      trivial

theorem WholeInv.step (h : WholeInv cfg s) (hguard : FailsCleanly cfg s a)
    (hstep : s.step cfg a = some t) : WholeInv cfg t := by
  refine ⟨h.inv.step hstep, h.standing.step hstep, ?_, ?_⟩
  · rcases step_cases hstep with ⟨k, job, u, progress, hk, hturn, moves, rfl⟩ | henv
    · have hleaves := moves.whole h hk hturn hguard
      rw [moves.transitions_eq hk]
      exact Turns.move h.inv.serial hk hturn hleaves.running (hleaves.resting moves)
    · refine henv.queue.turns (h.turns.mono (fun job hjob hrun hwhole => ?_) fun hsound =>
        Snapshot.Sound.outside h henv hsound)
      obtain ⟨k, hk⟩ := List.mem_iff_getElem?.mp hjob
      exact RunsWhole.outside h henv hjob hrun hwhole (h.inv.runs.running k job hk hrun)
  · rcases step_cases hstep with ⟨k, job, u, progress, hk, hturn, moves, rfl⟩ | henv
    · intro other hother
      rw [moves.transitions_eq hk] at hother
      rcases List.mem_or_eq_of_mem_set hother with hmem | rfl
      · exact h.atomic other hmem
      · exact (moves.whole h hk hturn hguard).atomic
    · exact henv.queue.atomic h.atomic

/-! ## Runs -/

theorem WholeInv.initial (now : Int) : WholeInv cfg (.initial cfg now) where
  inv := .initial now
  standing := .initial now
  turns := by
    refine ⟨by simp [State.initial], fun _ => ?_⟩
    cases henabled : cfg.adaptiveCapture.enabled with
    | false =>
        have hphase : (State.initial cfg now).snapshot.adaptivePhase = .inactive := by
          simp [State.snapshot, State.initial, henabled]
        exact ⟨by simp [hphase], by simp [hphase], by simp [hphase], .inl rfl⟩
    | true =>
        have hphase : (State.initial cfg now).snapshot.adaptivePhase = .base := by
          simp [State.snapshot, State.initial, henabled]
        refine ⟨fun _ => ?_, by simp [hphase], by simp [hphase], .inl rfl⟩
        rw [← cfg.captureMode_eq_base henabled]
        exact resolveModeState_captureMode cfg.resolved
  atomic := by simp [State.initial]

/-- In a sound state the next adaptive event is accepted. -/
theorem Snapshot.Sound.responsive (h : s.snapshot.Sound cfg) (hfields : Fields cfg s)
    (htimed : Timed s) : Responsive cfg s where
  base hphase := by
    have hmode : s.modeState.captureMode = cfg.adaptiveCapture.base := h.base hphase
    simp [State.isCurrentAdaptiveTransition, hphase, hmode]
  escalated hphase := by
    have hmode : s.modeState.captureMode = cfg.adaptiveCapture.escalated :=
      h.escalated (.inl hphase)
    have hne := cfg.adaptiveCapture_valid.base_ne_escalated
      (hfields.enabled_of_phase (by simp [hphase]))
    refine ⟨?_, htimed hphase⟩
    simp [State.isCurrentAdaptiveTransition, hphase, hmode, hne]
  pinned hphase := h.escalated (.inr hphase)

/-- The chain never blocks: the transition after the settled ones can start. -/
theorem Inv.next_starts (h : Inv cfg s) (hk : k < s.transitions.length) (hnext : s.NextInLine k) :
    (s.start cfg k).isSome := by
  obtain ⟨hqueued, hsettled⟩ := hnext
  have hjob : s.transitions[k]? = some s.transitions[k] := List.getElem?_eq_getElem hk
  rw [hjob] at hqueued
  simp only [Option.any_some, decide_eq_true_eq] at hqueued
  have hreleased : s.released s.transitions[k] = true := by
    rw [State.released_iff, h.serial.linked k _ hjob]
    cases hzero : k with
    | zero => exact released_zero
    | succ p =>
        intro q hq
        simp only [predecessor, Option.some.injEq] at hq
        subst hq
        have hp : p < s.transitions.length := by omega
        refine ⟨s.transitions[p], List.getElem?_eq_getElem hp, hsettled _ ?_⟩
        rw [List.mem_take_iff_getElem]
        exact ⟨p, by omega, rfl⟩
  unfold State.start
  simp only [hjob, hqueued, hreleased, and_self, if_true]
  cases s.transitions[k].intent <;> rfl

theorem WholeInv.transitionsAtomic (h : WholeInv cfg s) : TransitionsAtomic cfg s where
  atomic := h.atomic
  next_starts _ hk hnext := h.inv.next_starts hk hnext
  responsive hidle := by
    refine (h.turns.resting fun k job hk => hidle job (List.mem_of_getElem? hk)).responsive
      h.inv.fields h.standing.timed

theorem preserved_failsCleanly : (system cfg).Preserved (FailsCleanly cfg) (WholeInv cfg) where
  init := by
    rintro s ⟨now, rfl⟩
    exact .initial now
  step _ _ _ h hguard hstep := h.step hguard hstep

/-- A rejected transition that was atomic had changed nothing, or its mode was in force. -/
theorem atomic_of_rejected (h : TransitionsAtomic cfg (u.reject k before))
    (hk : u.transitions[k]? = some job) :
    u.snapshot = before ∨ Complete cfg job.intent before u.snapshot := by
  have hmem : { job with progress := .settled (.rejected before u.snapshot) } ∈
      (u.reject k before).transitions := by
    unfold State.reject State.settle
    rw [State.setProgress_transitions hk]
    exact List.mem_set (List.getElem?_eq_some_iff.mp hk).1 _
  exact h.atomic _ hmem

theorem WholeInv.failsCleanly_of_atomic (h : WholeInv cfg s) (hstep : s.step cfg a = some t)
    (hatomic : TransitionsAtomic cfg t) : FailsCleanly cfg s a := by
  cases a with
  | callback k outcome =>
      simp only [FailsCleanly]
      cases hk : s.transitions[k]? with
      | none => trivial
      | some job =>
          simp only
          unfold FailureLeavesWhole
          cases hprogress : job.progress with
          | switching run callbacks =>
              cases callbacks with
              | nil => trivial
              | cons callback rest =>
                  intro hfails
                  have hwell := h.inv.runs.running k job hk (by
                    rw [ModeTransition.stage, hprogress]
                    rfl)
                  simp only [RunsWell, hprogress] at hwell
                  obtain ⟨proper, hmode, _⟩ := hwell
                  have ht : t = (s.afterCallback callback outcome).reject k run.before := by
                    simp only [State.step, State.callbackReturns, hk, hprogress] at hstep
                    split at hstep
                    · simp only [State.switchingReturns, hfails, if_true,
                        Option.some.injEq] at hstep
                      exact hstep.symm
                    · contradiction
                  rw [ht] at hatomic
                  rcases atomic_of_rejected hatomic hk with hsame | hcomplete
                  · exact ⟨congrArg Snapshot.installed hsame,
                      congrArg Snapshot.adaptivePhase hsame⟩
                  · have hprevious : s.modeState.captureMode = run.before.captureMode := by
                      rw [hmode]
                      exact resolveModeState_captureMode proper.previous
                    exact absurd (hprevious.symm.trans hcomplete.captureMode) proper.changes
          | published run callbacks =>
              cases callbacks with
              | nil => trivial
              | cons callback rest =>
                  intro hfails
                  have hwell := h.inv.runs.running k job hk (by
                    rw [ModeTransition.stage, hprogress]
                    rfl)
                  simp only [RunsWell, hprogress] at hwell
                  obtain ⟨proper, hmode, _⟩ := hwell
                  have ht : t = (s.afterCallback callback outcome).reject k run.before := by
                    simp only [State.step, State.callbackReturns, hk, hprogress] at hstep
                    split at hstep
                    · simp only [State.publishedReturns, hfails, if_true,
                        Option.some.injEq] at hstep
                      exact hstep.symm
                    · contradiction
                  rw [ht] at hatomic
                  rcases atomic_of_rejected hatomic hk with hsame | hcomplete
                  · have htarget : s.modeState.captureMode = job.intent.target := by
                      rw [hmode]
                      exact resolveModeState_captureMode proper.next
                    exact absurd ((congrArg Snapshot.captureMode hsame).symm.trans htarget)
                      proper.changes
                  · exact hcomplete.phase
          | _ => trivial
  | _ => trivial

/-- A capture escalates, and a resource callback rejects after the mode is published. -/
def escalationFails : List Action :=
  [.activate, .capture .safe, .escalate 0, .start 0] ++
  List.replicate 6 (.callback 0 .returned) ++ [.callback 0 .rejected]

end ErrorCore.CaptureModeController
