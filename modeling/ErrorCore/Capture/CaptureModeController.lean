import ErrorCore.Capture.CaptureMode
import ErrorCore.Foundation.PromiseChain
import ErrorCore.Foundation.Transition

/-!
# The capture mode controller

`src/capture-mode-controller.ts` over the resource callbacks that `src/sdk.ts`
gives it. `setCaptureMode`, the microtask of an admitted capture and the
de-escalation timer each append a transition to the promise chain
`modeSwitchTail`. A transition starts once the one before it has settled, and
calls the resource callbacks one after another.

A label of the system is one synchronous stretch of code: a call from outside,
the start of a transition, or the return of the callback that a transition is
in, with everything up to its next callback. Anything may happen while a
callback is in flight, calls from inside the callback included. A callback that
fails leaves the resource it switches in any state.

`history` records, newest first, what the properties are about: the modes that
were published, the manual calls that resolved, the adaptive switches and the
manual calls that lifted a pin.
-/

namespace ErrorCore.CaptureModeController

open PromiseChain

inductive SDKLifecycleState
  | created
  | active
  | shutting_down
  | shutdown
  deriving DecidableEq, Repr

inductive AdaptiveCapturePhase
  | inactive
  | base
  | escalated
  | manual
  | pinned
  deriving DecidableEq, Repr

/-- A resolved configuration. `baseConfig` stays the one of the start: a transition changes it to
one with the same resolutions (`resolveModeState_applyModeStateToConfig`). -/
structure Config where
  adaptiveCapture : ResolvedAdaptiveCaptureConfig
  userConfig : ModeRelevantUserConfig
  baseConfig : ModeResolutionBaseConfig
  captureMode : CaptureMode
  modeState : ModeState
  selected : ∃ input mode,
    resolveCaptureModeSelection input mode = .ok (adaptiveCapture, captureMode)
  resolved : resolveModeState userConfig baseConfig captureMode = .ok modeState

namespace Config

variable (cfg : Config)

def resolveModeState (mode : CaptureMode) : Except String ModeState :=
  ErrorCore.resolveModeState cfg.userConfig cfg.baseConfig mode

theorem adaptiveCapture_valid : cfg.adaptiveCapture.Valid := by
  obtain ⟨input, mode, h⟩ := cfg.selected
  exact (resolveCaptureModeSelection_spec h).1

theorem captureMode_eq_base (h : cfg.adaptiveCapture.enabled) :
    cfg.captureMode = cfg.adaptiveCapture.base := by
  obtain ⟨input, mode, hselected⟩ := cfg.selected
  exact (resolveCaptureModeSelection_spec hselected).2 h

end Config

/-! ## Resources -/

structure ChannelSubscriptions where
  httpServer : Bool
  httpClient : Bool
  undici : Bool
  netDns : Bool
  deriving DecidableEq, Repr

def subscribeAll (recorders : RecorderSettings) : ChannelSubscriptions where
  httpServer := recorders.httpServer
  httpClient := recorders.httpClient
  undici := recorders.undici
  netDns := recorders.netDns

/-- The recorders and watchers that are installed. The fetch wrapper is installed with its
setting for response bodies. -/
structure Installed where
  httpServer : Bool
  channels : ChannelSubscriptions
  fetch : Option Bool
  netDns : Bool
  database : Bool
  processHandlers : Bool
  eventLoopLagMonitor : Bool
  deriving DecidableEq, Repr

def fetchWrapper (enabled : Bool) (modeState : ModeState) : Option Bool :=
  if enabled then some modeState.captureResponseBodies else none

/-- What `activate` installs for a mode. -/
def Installed.ofMode (serverless : Bool) (modeState : ModeState) : Installed where
  httpServer := modeState.recorders.httpServer
  channels := subscribeAll modeState.recorders
  fetch := fetchWrapper modeState.recorders.fetch modeState
  netDns := modeState.recorders.netDns
  database := modeState.recorders.database
  processHandlers := modeState.recorders.processHandlers
  eventLoopLagMonitor := !serverless && modeState.capabilities.eventLoopLagMonitor

/-- `CaptureModeResourceCallbacks` without the query of the lifecycle state. -/
inductive Callback
  | setHttpServerRecorderEnabled (enabled : Bool)
  | updateChannelSubscriptions (recorders : RecorderSettings)
  | setFetchRecorderEnabled (enabled : Bool) (modeState : ModeState)
  | setNetDnsRecorderEnabled (enabled : Bool)
  | setDatabaseRecordersEnabled (enabled : Bool)
  | setProcessHandlersEnabled (enabled : Bool)
  | setEventLoopLagMonitorEnabled (enabled : Bool)
  | applyResolvedConfig (modeState : ModeState)
  | applyRuntimeResources (modeState : ModeState)
  | applyInspectorModeState (modeState : ModeState)
  | setLocalVariablesCaptureEnabled (enabled : Bool)
  | flushBeforeTimerRestart
  | restartFlushTimer
  | rearmAfterAdaptiveGuard
  deriving DecidableEq, Repr

/-- How a callback ends. A throw leaves the resource of the callback as in `left`. -/
inductive Outcome
  | returned
  | threw (left : Installed)
  | rejected
  deriving DecidableEq, Repr

namespace Callback

/-- The callbacks that return a promise. -/
def isAsync : Callback → Bool
  | applyRuntimeResources _ => true
  | flushBeforeTimerRestart => true
  | _ => false

def canEnd (callback : Callback) (outcome : Outcome) : Bool :=
  outcome ≠ .rejected || callback.isAsync

/-- The transition fails with the callback. A rejected flush is caught. -/
def fails : Callback → Outcome → Bool
  | _, .returned => false
  | _, .threw _ => true
  | flushBeforeTimerRestart, .rejected => false
  | _, .rejected => true

/-- The callback's resource as in `value`, every other one unchanged. -/
def copy (value installed : Installed) : Callback → Installed
  | setHttpServerRecorderEnabled _ => { installed with httpServer := value.httpServer }
  | updateChannelSubscriptions _ => { installed with channels := value.channels }
  | setFetchRecorderEnabled _ _ => { installed with fetch := value.fetch }
  | setNetDnsRecorderEnabled _ => { installed with netDns := value.netDns }
  | setDatabaseRecordersEnabled _ => { installed with database := value.database }
  | setProcessHandlersEnabled _ => { installed with processHandlers := value.processHandlers }
  | setEventLoopLagMonitorEnabled _ =>
      { installed with eventLoopLagMonitor := value.eventLoopLagMonitor }
  | _ => installed

def effect (installed : Installed) : Callback → Installed
  | setHttpServerRecorderEnabled enabled => { installed with httpServer := enabled }
  | updateChannelSubscriptions recorders => { installed with channels := subscribeAll recorders }
  | setFetchRecorderEnabled enabled modeState =>
      { installed with fetch := fetchWrapper enabled modeState }
  | setNetDnsRecorderEnabled enabled => { installed with netDns := enabled }
  | setDatabaseRecordersEnabled enabled => { installed with database := enabled }
  | setProcessHandlersEnabled enabled => { installed with processHandlers := enabled }
  | setEventLoopLagMonitorEnabled enabled => { installed with eventLoopLagMonitor := enabled }
  | _ => installed

/-- The resources after the callback has ended. -/
def after (callback : Callback) (outcome : Outcome) (installed : Installed) : Installed :=
  match outcome with
  | .threw left => callback.copy left installed
  | _ => callback.effect installed

end Callback

def callIf (condition : Bool) (callback : Callback) : List Callback :=
  if condition then [callback] else []

/-- The callbacks of `applyModeState` before it publishes the mode. -/
def recorderCallbacks (serverless wasActive : Bool) (previous next : ModeState) :
    List Callback :=
  callIf (wasActive && 0 < previous.flushIntervalMs && next.flushIntervalMs = 0)
    .flushBeforeTimerRestart ++
  callIf (wasActive && previous.recorders.httpServer ≠ next.recorders.httpServer)
    (.setHttpServerRecorderEnabled next.recorders.httpServer) ++
  callIf wasActive (.updateChannelSubscriptions next.recorders) ++
  callIf (wasActive && (previous.recorders.fetch ≠ next.recorders.fetch ||
      next.recorders.fetch && previous.captureResponseBodies ≠ next.captureResponseBodies))
    (.setFetchRecorderEnabled next.recorders.fetch next) ++
  callIf (wasActive && previous.recorders.netDns ≠ next.recorders.netDns)
    (.setNetDnsRecorderEnabled next.recorders.netDns) ++
  callIf (wasActive && previous.recorders.database ≠ next.recorders.database)
    (.setDatabaseRecordersEnabled next.recorders.database) ++
  callIf (wasActive && previous.recorders.processHandlers ≠ next.recorders.processHandlers)
    (.setProcessHandlersEnabled next.recorders.processHandlers) ++
  callIf (wasActive && !serverless &&
      previous.capabilities.eventLoopLagMonitor ≠ next.capabilities.eventLoopLagMonitor)
    (.setEventLoopLagMonitorEnabled next.capabilities.eventLoopLagMonitor)

/-- The callbacks of `applyModeState` from the publication of the mode on. -/
def resourceCallbacks (wasActive : Bool) (previous next : ModeState) : List Callback :=
  let shouldFlushBeforeIntervalRestart :=
    (previous.flushIntervalMs = 0 && next.flushIntervalMs ≠ 0) ||
      (previous.captureMode = .fast && next.captureMode ≠ .fast) ||
      (previous.captureMode ≠ .fast && next.captureMode = .fast)
  [.applyResolvedConfig next, .applyRuntimeResources next, .applyInspectorModeState next] ++
  callIf (wasActive && shouldFlushBeforeIntervalRestart) .flushBeforeTimerRestart ++
  callIf wasActive .restartFlushTimer ++
  callIf wasActive (.setLocalVariablesCaptureEnabled
    (next.captureLocalVariables && next.localVariablesMode ≠ .none))

/-! ## Transitions -/

/-- Who asked for a transition, and for which mode. -/
inductive Intent
  | manual (mode : CaptureMode)
  | adaptive (target : CaptureMode) (generation : Nat)
  deriving DecidableEq, Repr

def Intent.target : Intent → CaptureMode
  | manual mode => mode
  | adaptive target _ => target

def Intent.isManual : Intent → Bool
  | manual _ => true
  | adaptive _ _ => false

/-- The reported mode, the phase, and what is installed once the SDK is activated. -/
structure Snapshot where
  captureMode : CaptureMode
  adaptivePhase : AdaptiveCapturePhase
  installed : Option Installed
  deriving DecidableEq, Repr

/-- The local variables of `applyModeState` and its callers. -/
structure Switch where
  before : Snapshot
  previous : ModeState
  next : ModeState
  wasActive : Bool
  now : Int
  deriving DecidableEq, Repr

inductive Settlement
  /-- An adaptive transition that returned without switching. -/
  | cancelled
  | resolved (before after : Snapshot)
  | rejected (before after : Snapshot)
  deriving DecidableEq, Repr

/-- Where a transition is. The callback in flight is the head of the list. -/
inductive Progress
  | queued
  | switching (run : Switch) (callbacks : List Callback)
  | published (run : Switch) (callbacks : List Callback)
  | rearming (before : Snapshot)
  | settled (settlement : Settlement)
  deriving DecidableEq, Repr

def Progress.stage : Progress → Stage
  | queued => .waiting
  | settled _ => .settled
  | _ => .running

structure ModeTransition where
  intent : Intent
  /-- The number of the call, the capture or the timer tick that asked for it. -/
  admitted : Nat
  link : Option Nat
  progress : Progress
  deriving DecidableEq, Repr

def ModeTransition.stage (job : ModeTransition) : Stage := job.progress.stage

inductive Event
  | published (intent : Intent) (admitted : Nat)
  | resolved (mode : CaptureMode) (admitted : Nat)
  | switched (at_ : Int) (pinning : Bool)
  | unpinned (at_ : Int)
  deriving DecidableEq, Repr

/-- A microtask that `handleAdmittedCapture` has queued. -/
structure Escalation where
  generation : Nat
  admitted : Nat
  deriving DecidableEq, Repr

structure State where
  lifecycle : SDKLifecycleState
  installed : Option Installed
  clock : Int
  modeState : ModeState
  modeSwitchTail : Option Nat
  switchCount : Nat
  adaptiveTimer : Bool
  adaptivePhase : AdaptiveCapturePhase
  adaptiveLastEscalationAt : Option Int
  adaptiveLastCaptureAt : Option Int
  adaptiveSwitchTimestamps : List Int
  adaptiveEscalationGeneration : Option Nat
  adaptiveIntentGeneration : Nat
  adaptiveSwitchRateWarningEmitted : Bool
  escalations : List Escalation
  transitions : List ModeTransition
  admissions : Nat
  history : List Event

namespace State

variable (cfg : Config) (s : State)

def snapshot : Snapshot where
  captureMode := s.modeState.captureMode
  adaptivePhase := s.adaptivePhase
  installed := s.installed

def setProgress (k : Nat) (progress : Progress) : State :=
  { s with
    transitions := s.transitions.modify k fun job => { job with progress := progress } }

/-- `modeSwitchTail.then(...)`, and the new tail. -/
def enqueue (intent : Intent) (admitted : Nat) : State :=
  { s with
    transitions := s.transitions ++ [⟨intent, admitted, s.modeSwitchTail, .queued⟩]
    modeSwitchTail := some s.transitions.length }

/-- The next number of a call, a capture or a tick. -/
def admitNext : State := { s with admissions := s.admissions + 1 }

def canSwitchMode : Bool := s.lifecycle = .created || s.lifecycle = .active

def lifecycleError : String :=
  if s.lifecycle = .shutting_down then "SDK is shutting down" else "SDK is shut down"

/-! ### Admission -/

def handleAdmittedCapture (modeAtCapture : CaptureMode) : State :=
  if ¬ cfg.adaptiveCapture.enabled then s
  else
    let s := { s with adaptiveLastCaptureAt := some s.clock }
    if s.adaptivePhase = .base ∧ modeAtCapture = cfg.adaptiveCapture.base ∧
        s.adaptiveEscalationGeneration = none then
      { s with
        adaptiveEscalationGeneration := some s.adaptiveIntentGeneration
        escalations := s.escalations ++ [⟨s.adaptiveIntentGeneration, s.admissions⟩] }
    else s

def switchAdaptiveMode (target : CaptureMode) (generation admitted : Nat) : State :=
  if s.lifecycle ≠ .active then s else s.enqueue (.adaptive target generation) admitted

/-- The microtask of an admitted capture. -/
def escalate (escalation : Escalation) : State :=
  let s :=
    if s.adaptiveEscalationGeneration = some escalation.generation then
      { s with adaptiveEscalationGeneration := none }
    else s
  s.switchAdaptiveMode cfg.adaptiveCapture.escalated escalation.generation escalation.admitted

def quietAndDwelled : Bool :=
  match s.adaptiveLastEscalationAt, s.adaptiveLastCaptureAt with
  | some lastEscalationAt, some lastCaptureAt =>
      cfg.adaptiveCapture.deescalateAfterMs ≤ s.clock - lastCaptureAt &&
        cfg.adaptiveCapture.minDwellMs ≤ s.clock - lastEscalationAt
  | _, _ => false

def evaluateAdaptiveDeescalation : State :=
  if cfg.adaptiveCapture.enabled ∧ s.adaptivePhase = .escalated ∧ s.quietAndDwelled cfg then
    s.switchAdaptiveMode cfg.adaptiveCapture.base s.adaptiveIntentGeneration s.admissions
  else s

/-- A call in the wrong lifecycle state is rejected, one with an unknown mode throws. -/
def setCaptureMode (mode : Option String) : State :=
  if ¬ s.canSwitchMode then s
  else
    match resolveCaptureMode mode with
    | .error _ => s
    | .ok target =>
        let s :=
          if cfg.adaptiveCapture.enabled then
            { s with
              adaptiveIntentGeneration := s.adaptiveIntentGeneration + 1
              adaptiveEscalationGeneration := none }
          else s
        s.enqueue (.manual target) s.admissions

/-! ### The end of a transition -/

def settle (k : Nat) (settlement : Settlement) : State :=
  s.setProgress k (.settled settlement)

def reject (k : Nat) (before : Snapshot) : State := s.settle k (.rejected before s.snapshot)

def record (event : Event) : State := { s with history := event :: s.history }

def recordResolved (job : ModeTransition) : State :=
  match job.intent with
  | .manual mode => s.record (.resolved mode job.admitted)
  | .adaptive _ _ => s

/-- The promise of the transition resolves. -/
def resolve (k : Nat) (job : ModeTransition) (before : Snapshot) : State :=
  (s.recordResolved job).settle k (.resolved before s.snapshot)

/-- The phase that a manual choice of the mode puts the controller in. -/
def manualPhase (mode : CaptureMode) : AdaptiveCapturePhase :=
  if mode = cfg.adaptiveCapture.base then .base
  else if mode = cfg.adaptiveCapture.escalated then .escalated
  else .manual

/-- The assignments of `reconcileManualAdaptiveState`. -/
def reconcileManualAdaptiveState (mode : CaptureMode) : State :=
  if ¬ cfg.adaptiveCapture.enabled then s
  else
    let s := if s.adaptivePhase = .pinned then s.record (.unpinned s.clock) else s
    let s := { s with adaptivePhase := manualPhase cfg mode }
    if manualPhase cfg mode = .escalated then
      { s with
        adaptiveLastEscalationAt := some s.clock
        adaptiveLastCaptureAt := some s.clock }
    else s

/-- `reconcileManualAdaptiveState` ends with `rearmAfterAdaptiveGuard`. -/
def rearmsAfterManual (mode : CaptureMode) (previousPhase : AdaptiveCapturePhase) : Bool :=
  cfg.adaptiveCapture.enabled && manualPhase cfg mode = .escalated &&
    previousPhase ≠ .escalated && s.lifecycle = .active

def finishManual (k : Nat) (job : ModeTransition) (mode : CaptureMode) (before : Snapshot) :
    State :=
  let t := s.reconcileManualAdaptiveState cfg mode
  if s.rearmsAfterManual cfg mode before.adaptivePhase then t.setProgress k (.rearming before)
  else t.resolve k job before

/-- The end of `applyAdaptiveCaptureMode` after a switch. -/
def finishAdaptive (k : Nat) (job : ModeTransition) (target : CaptureMode) (now : Int)
    (before : Snapshot) : State :=
  let s := s.record (.switched now (s.adaptivePhase = .pinned))
  let s := { s with adaptiveSwitchTimestamps := s.adaptiveSwitchTimestamps ++ [now] }
  if target = cfg.adaptiveCapture.escalated then
    let phase : AdaptiveCapturePhase := if s.adaptivePhase = .pinned then .pinned else .escalated
    { s with adaptivePhase := phase, adaptiveLastEscalationAt := some now }.setProgress k
      (.rearming before)
  else { s with adaptivePhase := .base }.resolve k job before

/-- `applyCaptureMode` after `applyModeState`, and the rest of its callers. -/
def complete (k : Nat) (job : ModeTransition) (run : Switch) : State :=
  let s := { s with switchCount := s.switchCount + 1 }
  match job.intent with
  | .manual mode => s.finishManual cfg k job mode run.before
  | .adaptive target _ => s.finishAdaptive cfg k job target run.now run.before

/-! ### The callbacks of a transition -/

def continueResources (k : Nat) (job : ModeTransition) (run : Switch)
    (callbacks : List Callback) : State :=
  match callbacks with
  | [] => s.complete cfg k job run
  | _ :: _ => s.setProgress k (.published run callbacks)

/-- `this.modeState = next`, and the first callback after it. -/
def publish (k : Nat) (job : ModeTransition) (run : Switch) : State :=
  { s with modeState := run.next }.record (.published job.intent job.admitted)
    |>.setProgress k (.published run (resourceCallbacks run.wasActive run.previous run.next))

def continueRecorders (k : Nat) (job : ModeTransition) (run : Switch)
    (callbacks : List Callback) : State :=
  match callbacks with
  | [] => s.publish k job run
  | _ :: _ => s.setProgress k (.switching run callbacks)

/-- The callback in flight has ended. -/
def afterCallback (callback : Callback) (outcome : Outcome) : State :=
  { s with installed := s.installed.map (callback.after outcome) }

/-! ### The start of a transition -/

/-- `applyCaptureMode` up to `applyModeState`: the state to switch to, if anything changes. -/
def applyCaptureMode (mode : CaptureMode) : Except String (Option ModeState) :=
  if ¬ s.canSwitchMode then .error s.lifecycleError
  else
    match cfg.resolveModeState mode with
    | .error message => .error message
    | .ok next => .ok (if diffModeStates s.modeState next = [] then none else some next)

/-- `applyModeState` up to its first callback. -/
def applyModeState (k : Nat) (job : ModeTransition) (before : Snapshot) (next : ModeState) :
    State :=
  let wasActive := s.lifecycle = .active
  s.continueRecorders k job ⟨before, s.modeState, next, wasActive, s.clock⟩
    (recorderCallbacks cfg.baseConfig.serverless wasActive s.modeState next)

def applyManualCaptureMode (k : Nat) (job : ModeTransition) (mode : CaptureMode) : State :=
  match s.applyCaptureMode cfg mode with
  | .error _ => s.reject k s.snapshot
  | .ok none => s.finishManual cfg k job mode s.snapshot
  | .ok (some next) => s.applyModeState cfg k job s.snapshot next

def isCurrentAdaptiveTransition (target : CaptureMode) : Bool :=
  if target = cfg.adaptiveCapture.escalated then
    s.adaptivePhase = .base && s.modeState.captureMode = cfg.adaptiveCapture.base
  else if target = cfg.adaptiveCapture.base then
    s.adaptivePhase = .escalated && s.modeState.captureMode = cfg.adaptiveCapture.escalated
  else false

def hourMs : Int := 60 * 60 * 1000

def pruneSwitchTimestamps : State :=
  { s with
    adaptiveSwitchTimestamps :=
      s.adaptiveSwitchTimestamps.filter fun timestamp => s.clock - timestamp < hourMs }

def switchRateExceeded : Bool :=
  cfg.adaptiveCapture.maxSwitchesPerHour ≤ s.adaptiveSwitchTimestamps.length

def pin : State :=
  { s with
    adaptiveSwitchRateWarningEmitted := true
    adaptivePhase := .pinned }

def switchAdaptively (k : Nat) (job : ModeTransition) (target : CaptureMode)
    (before : Snapshot) : State :=
  match s.applyCaptureMode cfg target with
  | .error _ => s.reject k before
  | .ok none => s.resolve k job before
  | .ok (some next) => s.applyModeState cfg k job before next

def applyAdaptiveCaptureMode (k : Nat) (job : ModeTransition) (target : CaptureMode)
    (generation : Nat) : State :=
  if generation ≠ s.adaptiveIntentGeneration ∨ s.lifecycle ≠ .active ∨
      ¬ s.isCurrentAdaptiveTransition cfg target then s.settle k .cancelled
  else
    let before := s.snapshot
    let s := s.pruneSwitchTimestamps
    if s.switchRateExceeded cfg then
      if target ≠ cfg.adaptiveCapture.escalated then s.pin.settle k .cancelled
      else s.pin.switchAdaptively cfg k job target before
    else s.switchAdaptively cfg k job target before

/-! ### Steps -/

/-- The transition that this one waits for has settled. -/
def released (job : ModeTransition) : Bool :=
  match job.link with
  | none => true
  | some p => (s.transitions[p]?).any (·.stage = .settled)

def start (k : Nat) : Option State :=
  match s.transitions[k]? with
  | none => none
  | some job =>
      if job.progress = .queued ∧ s.released job then
        match job.intent with
        | .manual mode => some (s.applyManualCaptureMode cfg k job mode)
        | .adaptive target generation =>
            some (s.applyAdaptiveCaptureMode cfg k job target generation)
      else none

def switchingReturns (k : Nat) (job : ModeTransition) (run : Switch) (callback : Callback)
    (rest : List Callback) (outcome : Outcome) : State :=
  let t := s.afterCallback callback outcome
  if callback.fails outcome then t.reject k run.before else t.continueRecorders k job run rest

def publishedReturns (k : Nat) (job : ModeTransition) (run : Switch) (callback : Callback)
    (rest : List Callback) (outcome : Outcome) : State :=
  let t := s.afterCallback callback outcome
  if callback.fails outcome then t.reject k run.before else t.continueResources cfg k job run rest

def rearmingReturns (k : Nat) (job : ModeTransition) (before : Snapshot) (outcome : Outcome) :
    State :=
  if Callback.rearmAfterAdaptiveGuard.fails outcome then s.reject k before
  else s.resolve k job before

/-- The callback that a transition is in ends. -/
def callbackReturns (k : Nat) (outcome : Outcome) : Option State :=
  match s.transitions[k]? with
  | none => none
  | some job =>
      match job.progress with
      | .switching run (callback :: rest) =>
          if callback.canEnd outcome then
            some (s.switchingReturns k job run callback rest outcome)
          else none
      | .published run (callback :: rest) =>
          if callback.canEnd outcome then
            some (s.publishedReturns cfg k job run callback rest outcome)
          else none
      | .rearming before =>
          if Callback.rearmAfterAdaptiveGuard.canEnd outcome then
            some (s.rearmingReturns k job before outcome)
          else none
      | _ => none

/-- `SDKInstance.activate` and the timer of the controller. -/
def activate : Option State :=
  if s.lifecycle = .created then
    some
      { s with
        lifecycle := .active
        installed := some (Installed.ofMode cfg.baseConfig.serverless s.modeState)
        adaptiveTimer := cfg.adaptiveCapture.enabled }
  else none

def beginShutdown : Option State :=
  if s.canSwitchMode then some { s with lifecycle := .shutting_down, adaptiveTimer := false }
  else none

/-- The rest of `SDKInstance.shutdown`, after `modeSwitchTail`. -/
def finishShutdown : Option State :=
  if s.lifecycle = .shutting_down ∧ ∀ job ∈ s.transitions, job.stage = .settled then
    some { s with lifecycle := .shutdown, installed := none }
  else none

end State

inductive Action
  | activate
  | beginShutdown
  | finishShutdown
  | clock (now : Int)
  | capture (modeAtCapture : CaptureMode)
  | escalate (i : Nat)
  | timer
  | setCaptureMode (mode : Option String)
  | start (k : Nat)
  | callback (k : Nat) (outcome : Outcome)
  deriving DecidableEq, Repr

def State.step (cfg : Config) (s : State) : Action → Option State
  | .activate => s.activate cfg
  | .beginShutdown => s.beginShutdown
  | .finishShutdown => s.finishShutdown
  | .clock now => some { s with clock := now }
  | .capture modeAtCapture => some (s.handleAdmittedCapture cfg modeAtCapture).admitNext
  | .escalate i =>
      (s.escalations[i]?).map fun escalation =>
        { s with escalations := s.escalations.eraseIdx i }.escalate cfg escalation
  | .timer =>
      if s.adaptiveTimer then some (s.evaluateAdaptiveDeescalation cfg).admitNext else none
  | .setCaptureMode mode => some (s.setCaptureMode cfg mode).admitNext
  | .start k => s.start cfg k
  | .callback k outcome => s.callbackReturns cfg k outcome

def State.initial (cfg : Config) (now : Int) : State where
  lifecycle := .created
  installed := none
  clock := now
  modeState := cfg.modeState
  modeSwitchTail := none
  switchCount := 0
  adaptiveTimer := false
  adaptivePhase := if cfg.adaptiveCapture.enabled then .base else .inactive
  adaptiveLastEscalationAt := none
  adaptiveLastCaptureAt := none
  adaptiveSwitchTimestamps := []
  adaptiveEscalationGeneration := none
  adaptiveIntentGeneration := 0
  adaptiveSwitchRateWarningEmitted := false
  escalations := []
  transitions := []
  admissions := 0
  history := []

def system (cfg : Config) : Transition.System State Action where
  init s := ∃ now, s = .initial cfg now
  step := State.step cfg

/-- Adaptive capture between `safe` and `forensic`, with one switch an hour. -/
def adaptiveConfig : Config where
  adaptiveCapture := { DEFAULT_ADAPTIVE_CAPTURE with enabled := true, maxSwitchesPerHour := 1 }
  userConfig := {}
  baseConfig :=
    { serverless := false
      payloadSpool :=
        { enabled := false
          globalMaxBytes := 50000000
          perRequestMaxBytes := 10000000
          perBlobMaxBytes := 5000000
          previewBytes := 1024
          completedTtlMs := 30000 }
      maxLocalsCollectionsPerSecond := 20
      maxCachedLocals := 50 }
  captureMode := .safe
  modeState := modeStateOf {}
    { serverless := false
      payloadSpool :=
        { enabled := false
          globalMaxBytes := 50000000
          perRequestMaxBytes := 10000000
          perBlobMaxBytes := 5000000
          previewBytes := 1024
          completedTtlMs := 30000 }
      maxLocalsCollectionsPerSecond := 20
      maxCachedLocals := 50 } .safe
  selected := ⟨{ enabled := some true, maxSwitchesPerHour := some 1 }, none, rfl⟩
  resolved := rfl

end ErrorCore.CaptureModeController
