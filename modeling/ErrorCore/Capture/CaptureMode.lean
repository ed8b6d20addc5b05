import Mathlib.Tactic.Common

/-!
# Capture modes

`src/capture-mode.ts`: the four capture modes with their defaults, the checks of
the options that the modes share, and `resolveModeState`, which computes from a
mode and the user's configuration everything that a mode decides. A number that
is no integer fails the checks as one that is not positive does, and is left out.
-/

namespace ErrorCore

inductive CaptureMode
  | safe
  | balanced
  | forensic
  | fast
  deriving DecidableEq, Repr

inductive LocalVariablesMode
  | none
  | shallow
  | deep
  deriving DecidableEq, Repr

structure RecorderSettings where
  httpServer : Bool
  httpClient : Bool
  undici : Bool
  fetch : Bool
  netDns : Bool
  database : Bool
  processHandlers : Bool
  transport : Bool
  deriving DecidableEq, Repr

structure CaptureCapabilities where
  deferredDelivery : Bool
  materializeBodies : Bool
  syntheticInboundFallback : Bool
  eventLoopLagMonitor : Bool
  deriving DecidableEq, Repr

structure LocalsGuard where
  enabled : Bool
  maxPausesPerSecond : Int
  maxPauseMsPerMinute : Int
  deriving DecidableEq, Repr

structure PayloadSpoolSettings where
  enabled : Bool
  globalMaxBytes : Nat
  perRequestMaxBytes : Nat
  perBlobMaxBytes : Nat
  previewBytes : Nat
  completedTtlMs : Nat
  deriving DecidableEq, Repr

structure ModeState where
  captureMode : CaptureMode
  localVariablesMode : LocalVariablesMode
  capabilities : CaptureCapabilities
  recorders : RecorderSettings
  captureLocalVariables : Bool
  localsGuard : LocalsGuard
  captureDbBindParams : Bool
  captureRequestBodies : Bool
  captureResponseBodies : Bool
  captureBody : Bool
  captureBodyDigest : Bool
  payloadSpool : PayloadSpoolSettings
  useWorkerAssembly : Bool
  flushIntervalMs : Int
  resolveSourceMaps : Bool
  maxLocalsCollectionsPerSecond : Int
  maxCachedLocals : Int
  maxLocalsFrames : Int
  maxLocalsObjectProperties : Int
  deriving DecidableEq, Repr

structure ModeDefaults where
  captureLocalVariables : Bool
  captureDbBindParams : Bool
  captureRequestBodies : Bool
  captureResponseBodies : Bool
  captureBodyDigest : Bool
  resolveSourceMaps : Bool
  payloadSpoolEnabled : Bool
  useWorkerAssembly : Bool
  flushIntervalMs : Int
  recorders : RecorderSettings

def ALL_RECORDERS : RecorderSettings where
  httpServer := true
  httpClient := true
  undici := true
  fetch := true
  netDns := true
  database := true
  processHandlers := true
  transport := true

def MODE_DEFAULTS : CaptureMode → ModeDefaults
  | .safe =>
      { captureLocalVariables := true
        captureDbBindParams := false
        captureRequestBodies := false
        captureResponseBodies := false
        captureBodyDigest := false
        resolveSourceMaps := true
        payloadSpoolEnabled := false
        useWorkerAssembly := false
        flushIntervalMs := 5000
        recorders :=
          { httpServer := false
            httpClient := false
            undici := false
            fetch := false
            netDns := false
            database := false
            processHandlers := true
            transport := true } }
  | .balanced =>
      { captureLocalVariables := true
        captureDbBindParams := false
        captureRequestBodies := false
        captureResponseBodies := false
        captureBodyDigest := false
        resolveSourceMaps := true
        payloadSpoolEnabled := true
        useWorkerAssembly := true
        flushIntervalMs := 5000
        recorders := ALL_RECORDERS }
  | .forensic =>
      { captureLocalVariables := true
        captureDbBindParams := true
        captureRequestBodies := true
        captureResponseBodies := true
        captureBodyDigest := true
        resolveSourceMaps := true
        payloadSpoolEnabled := true
        useWorkerAssembly := true
        flushIntervalMs := 5000
        recorders := ALL_RECORDERS }
  | .fast =>
      { captureLocalVariables := false
        captureDbBindParams := false
        captureRequestBodies := false
        captureResponseBodies := false
        captureBodyDigest := false
        resolveSourceMaps := false
        payloadSpoolEnabled := false
        useWorkerAssembly := false
        flushIntervalMs := 0
        recorders :=
          { httpServer := false
            httpClient := false
            undici := false
            fetch := false
            netDns := false
            database := false
            processHandlers := false
            transport := true } }

/-- The option `localsGuard`: the text `off`, or bounds. -/
inductive LocalsGuardInput
  | off
  | bounds (maxPausesPerSecond maxPauseMsPerMinute : Option Int)
  deriving DecidableEq, Repr

def LocalsGuardInput.maxPausesPerSecond : Option LocalsGuardInput → Option Int
  | some (.bounds maxPausesPerSecond _) => maxPausesPerSecond
  | _ => none

def LocalsGuardInput.maxPauseMsPerMinute : Option LocalsGuardInput → Option Int
  | some (.bounds _ maxPauseMsPerMinute) => maxPauseMsPerMinute
  | _ => none

/-- `ModeRelevantUserConfig`; of `payloadSpool` only `enabled` is read. -/
structure ModeRelevantUserConfig where
  captureLocalVariables : Option Bool := none
  captureDbBindParams : Option Bool := none
  captureRequestBodies : Option Bool := none
  captureResponseBodies : Option Bool := none
  captureBody : Option Bool := none
  captureBodyDigest : Option Bool := none
  payloadSpoolEnabled : Option Bool := none
  useWorkerAssembly : Option Bool := none
  flushIntervalMs : Option Int := none
  resolveSourceMaps : Option Bool := none
  maxLocalsCollectionsPerSecond : Option Int := none
  maxCachedLocals : Option Int := none
  maxLocalsFrames : Option Int := none
  localsGuard : Option LocalsGuardInput := none

structure ModeResolutionBaseConfig where
  serverless : Bool
  payloadSpool : PayloadSpoolSettings
  maxLocalsCollectionsPerSecond : Int
  maxCachedLocals : Int

/-! ## Checks -/

def CaptureMode.assertPositiveInteger (value : Int) (fieldName : String)
    (extraConstraint : Int → Option String) : Except String Unit :=
  if value ≤ 0 then .error (fieldName ++ " must be a positive integer")
  else
    match extraConstraint value with
    | some message => .error message
    | none => .ok ()

/-- The check of an option that may be absent. -/
def assertPositiveOption (value : Option Int) (fieldName : String) : Except String Unit :=
  match value with
  | none => .ok ()
  | some value => CaptureMode.assertPositiveInteger value fieldName fun _ => none

/-- `CAPTURE_MODES.has(mode)`, with the mode that the name stands for. -/
def CaptureMode.named (name : String) : Option CaptureMode :=
  if name = "safe" then some .safe
  else if name = "balanced" then some .balanced
  else if name = "forensic" then some .forensic
  else if name = "fast" then some .fast
  else none

def resolveCaptureMode (mode : Option String) : Except String CaptureMode :=
  match CaptureMode.named (mode.getD "safe") with
  | some resolved => .ok resolved
  | none =>
      .error "captureMode must be one of 'safe' | 'balanced' | 'forensic' | 'fast'"

def validateModeUserConfig (userConfig : ModeRelevantUserConfig) : Except String Unit := do
  assertPositiveOption userConfig.maxLocalsCollectionsPerSecond
    "maxLocalsCollectionsPerSecond"
  assertPositiveOption userConfig.maxCachedLocals "maxCachedLocals"
  assertPositiveOption userConfig.maxLocalsFrames "maxLocalsFrames"
  assertPositiveOption (LocalsGuardInput.maxPausesPerSecond userConfig.localsGuard)
    "localsGuard.maxPausesPerSecond"
  assertPositiveOption (LocalsGuardInput.maxPauseMsPerMinute userConfig.localsGuard)
    "localsGuard.maxPauseMsPerMinute"

/-! ## Resolution -/

def deriveCapabilities (captureMode : CaptureMode)
    (useWorkerAssembly captureRequestBodies captureResponseBodies captureBodyDigest : Bool) :
    CaptureCapabilities :=
  let lowOverheadChassis := captureMode = .fast || captureMode = .safe
  { deferredDelivery := lowOverheadChassis && !useWorkerAssembly
    materializeBodies := captureRequestBodies || captureResponseBodies || captureBodyDigest
    syntheticInboundFallback := lowOverheadChassis
    eventLoopLagMonitor := captureMode ≠ .fast }

section Resolution

variable (userConfig : ModeRelevantUserConfig) (baseConfig : ModeResolutionBaseConfig)
variable (mode : CaptureMode)

/-- An option of the user, the default of the mode when it is absent, and off in fast mode. -/
def resolveModeFlag (option : Option Bool) (modeDefault : Bool) : Bool :=
  if mode = .fast then false else option.getD modeDefault

def resolveFlushIntervalMs : Int :=
  if mode = .fast then 0
  else
    userConfig.flushIntervalMs.getD
      (if baseConfig.serverless then 0 else (MODE_DEFAULTS mode).flushIntervalMs)

/-- One of the body options. `captureBody` stands in when neither of them is given. -/
def resolveBodyFlag (option : Option Bool) (modeDefault : Bool) : Bool :=
  let explicitBodyControlsProvided :=
    userConfig.captureRequestBodies.isSome || userConfig.captureResponseBodies.isSome
  resolveModeFlag mode (if explicitBodyControlsProvided then option else userConfig.captureBody)
    modeDefault

def checkFlushIntervalMs (flushIntervalMs : Int) : Except String Unit :=
  if flushIntervalMs = 0 then .ok ()
  else
    CaptureMode.assertPositiveInteger flushIntervalMs "flushIntervalMs" fun candidate =>
      if candidate < 1000 then
        some "flushIntervalMs must be at least 1000 (1 second) or 0 to disable"
      else none

/-- The record that `resolveModeState` returns after its checks. -/
def modeStateOf : ModeState :=
  let modeDefaults := MODE_DEFAULTS mode
  let useWorkerAssembly :=
    resolveModeFlag mode userConfig.useWorkerAssembly
      (!baseConfig.serverless && modeDefaults.useWorkerAssembly)
  let captureRequestBodies :=
    resolveBodyFlag userConfig mode userConfig.captureRequestBodies
      modeDefaults.captureRequestBodies
  let captureResponseBodies :=
    resolveBodyFlag userConfig mode userConfig.captureResponseBodies
      modeDefaults.captureResponseBodies
  let captureLocalVariables :=
    resolveModeFlag mode userConfig.captureLocalVariables modeDefaults.captureLocalVariables
  let captureBodyDigest :=
    resolveModeFlag mode userConfig.captureBodyDigest modeDefaults.captureBodyDigest
  { captureMode := mode
    localVariablesMode :=
      if !captureLocalVariables then .none else if mode = .forensic then .deep else .shallow
    capabilities :=
      deriveCapabilities mode useWorkerAssembly captureRequestBodies captureResponseBodies
        captureBodyDigest
    recorders := modeDefaults.recorders
    captureLocalVariables := captureLocalVariables
    localsGuard :=
      { enabled := captureLocalVariables && userConfig.localsGuard ≠ some .off
        maxPausesPerSecond :=
          (LocalsGuardInput.maxPausesPerSecond userConfig.localsGuard).getD 50
        maxPauseMsPerMinute :=
          (LocalsGuardInput.maxPauseMsPerMinute userConfig.localsGuard).getD 250 }
    captureDbBindParams :=
      resolveModeFlag mode userConfig.captureDbBindParams modeDefaults.captureDbBindParams
    captureRequestBodies := captureRequestBodies
    captureResponseBodies := captureResponseBodies
    captureBody := captureRequestBodies && captureResponseBodies
    captureBodyDigest := captureBodyDigest
    payloadSpool :=
      { baseConfig.payloadSpool with
        enabled :=
          resolveModeFlag mode userConfig.payloadSpoolEnabled modeDefaults.payloadSpoolEnabled }
    useWorkerAssembly := useWorkerAssembly
    flushIntervalMs := resolveFlushIntervalMs userConfig baseConfig mode
    resolveSourceMaps :=
      resolveModeFlag mode userConfig.resolveSourceMaps modeDefaults.resolveSourceMaps
    maxLocalsCollectionsPerSecond :=
      userConfig.maxLocalsCollectionsPerSecond.getD baseConfig.maxLocalsCollectionsPerSecond
    maxCachedLocals := userConfig.maxCachedLocals.getD baseConfig.maxCachedLocals
    maxLocalsFrames := userConfig.maxLocalsFrames.getD (if mode = .forensic then 10 else 5)
    maxLocalsObjectProperties := if mode = .forensic then 20 else 8 }

def resolveModeState : Except String ModeState := do
  validateModeUserConfig userConfig
  checkFlushIntervalMs (resolveFlushIntervalMs userConfig baseConfig mode)
  return modeStateOf userConfig baseConfig mode

end Resolution

/-- The part of `applyModeStateToConfig` that a later resolution reads. -/
def applyModeStateToConfig (config : ModeResolutionBaseConfig) (next : ModeState) :
    ModeResolutionBaseConfig :=
  { config with
    payloadSpool := next.payloadSpool
    maxLocalsCollectionsPerSecond := next.maxLocalsCollectionsPerSecond
    maxCachedLocals := next.maxCachedLocals }

variable {userConfig : ModeRelevantUserConfig} {baseConfig : ModeResolutionBaseConfig}
variable {mode mode' : CaptureMode} {modeState : ModeState}

theorem resolveModeState_eq (h : resolveModeState userConfig baseConfig mode = .ok modeState) :
    modeState = modeStateOf userConfig baseConfig mode := by
  unfold resolveModeState at h
  cases hvalid : validateModeUserConfig userConfig with
  | error => simp [hvalid, bind, Except.bind] at h
  | ok =>
      cases hflush : checkFlushIntervalMs (resolveFlushIntervalMs userConfig baseConfig mode) with
      | error => simp [hvalid, hflush, bind, Except.bind] at h
      | ok =>
          simp only [hvalid, hflush, bind, Except.bind, pure, Except.pure,
            Except.ok.injEq] at h
          exact h.symm

theorem resolveModeState_captureMode
    (h : resolveModeState userConfig baseConfig mode = .ok modeState) :
    modeState.captureMode = mode := by
  rw [resolveModeState_eq h]
  rfl

/-- A transition writes the options of its mode into the configuration from which later modes are
resolved. They resolve to the same states as before. -/
theorem resolveModeState_applyModeStateToConfig
    (h : resolveModeState userConfig baseConfig mode = .ok modeState) (mode' : CaptureMode) :
    resolveModeState userConfig (applyModeStateToConfig baseConfig modeState) mode' =
      resolveModeState userConfig baseConfig mode' := by
  rw [resolveModeState_eq h]
  have collections : (userConfig.maxLocalsCollectionsPerSecond.getD
      (userConfig.maxLocalsCollectionsPerSecond.getD baseConfig.maxLocalsCollectionsPerSecond)) =
      userConfig.maxLocalsCollectionsPerSecond.getD baseConfig.maxLocalsCollectionsPerSecond := by
    cases userConfig.maxLocalsCollectionsPerSecond <;> rfl
  have cached : userConfig.maxCachedLocals.getD
      (userConfig.maxCachedLocals.getD baseConfig.maxCachedLocals) =
      userConfig.maxCachedLocals.getD baseConfig.maxCachedLocals := by
    cases userConfig.maxCachedLocals <;> rfl
  have same : modeStateOf userConfig
      (applyModeStateToConfig baseConfig (modeStateOf userConfig baseConfig mode)) mode' =
      modeStateOf userConfig baseConfig mode' := by
    simp only [modeStateOf, applyModeStateToConfig, collections, cached]
    rfl
  unfold resolveModeState
  rw [same]
  rfl

/-! ## Differences -/

/-- The name of a field with whether its values differ. -/
def comparedField {α : Type} [DecidableEq α] (name : String) (previous next : α) :
    String × Bool :=
  (name, previous ≠ next)

def comparedFields (previous next : ModeState) : List (String × Bool) :=
  [comparedField "captureMode" previous.captureMode next.captureMode,
    comparedField "localVariablesMode" previous.localVariablesMode next.localVariablesMode,
    comparedField "captureLocalVariables" previous.captureLocalVariables next.captureLocalVariables,
    comparedField "captureDbBindParams" previous.captureDbBindParams next.captureDbBindParams,
    comparedField "captureRequestBodies" previous.captureRequestBodies next.captureRequestBodies,
    comparedField "captureResponseBodies" previous.captureResponseBodies next.captureResponseBodies,
    comparedField "captureBody" previous.captureBody next.captureBody,
    comparedField "captureBodyDigest" previous.captureBodyDigest next.captureBodyDigest,
    comparedField "useWorkerAssembly" previous.useWorkerAssembly next.useWorkerAssembly,
    comparedField "flushIntervalMs" previous.flushIntervalMs next.flushIntervalMs,
    comparedField "resolveSourceMaps" previous.resolveSourceMaps next.resolveSourceMaps,
    comparedField "maxLocalsCollectionsPerSecond"
      previous.maxLocalsCollectionsPerSecond next.maxLocalsCollectionsPerSecond,
    comparedField "maxCachedLocals" previous.maxCachedLocals next.maxCachedLocals,
    comparedField "maxLocalsFrames" previous.maxLocalsFrames next.maxLocalsFrames,
    comparedField "maxLocalsObjectProperties"
      previous.maxLocalsObjectProperties next.maxLocalsObjectProperties,
    comparedField "recorders.httpServer" previous.recorders.httpServer next.recorders.httpServer,
    comparedField "recorders.httpClient" previous.recorders.httpClient next.recorders.httpClient,
    comparedField "recorders.undici" previous.recorders.undici next.recorders.undici,
    comparedField "recorders.fetch" previous.recorders.fetch next.recorders.fetch,
    comparedField "recorders.netDns" previous.recorders.netDns next.recorders.netDns,
    comparedField "recorders.database" previous.recorders.database next.recorders.database,
    comparedField "recorders.processHandlers"
      previous.recorders.processHandlers next.recorders.processHandlers,
    comparedField "recorders.transport" previous.recorders.transport next.recorders.transport,
    comparedField "capabilities.deferredDelivery"
      previous.capabilities.deferredDelivery next.capabilities.deferredDelivery,
    comparedField "capabilities.materializeBodies"
      previous.capabilities.materializeBodies next.capabilities.materializeBodies,
    comparedField "capabilities.syntheticInboundFallback"
      previous.capabilities.syntheticInboundFallback next.capabilities.syntheticInboundFallback,
    comparedField "capabilities.eventLoopLagMonitor"
      previous.capabilities.eventLoopLagMonitor next.capabilities.eventLoopLagMonitor,
    comparedField "payloadSpool.enabled" previous.payloadSpool.enabled next.payloadSpool.enabled,
    comparedField "payloadSpool.globalMaxBytes"
      previous.payloadSpool.globalMaxBytes next.payloadSpool.globalMaxBytes,
    comparedField "payloadSpool.perRequestMaxBytes"
      previous.payloadSpool.perRequestMaxBytes next.payloadSpool.perRequestMaxBytes,
    comparedField "payloadSpool.perBlobMaxBytes"
      previous.payloadSpool.perBlobMaxBytes next.payloadSpool.perBlobMaxBytes,
    comparedField "payloadSpool.previewBytes"
      previous.payloadSpool.previewBytes next.payloadSpool.previewBytes,
    comparedField "payloadSpool.completedTtlMs"
      previous.payloadSpool.completedTtlMs next.payloadSpool.completedTtlMs,
    comparedField "localsGuard" previous.localsGuard next.localsGuard]

def diffModeStates (previous next : ModeState) : List String :=
  ((comparedFields previous next).filter (·.2)).map (·.1)

theorem diffModeStates_self (modeState : ModeState) :
    diffModeStates modeState modeState = [] := by
  simp [diffModeStates, comparedFields, comparedField]

theorem captureMode_eq_of_diffModeStates {previous next : ModeState}
    (h : diffModeStates previous next = []) : previous.captureMode = next.captureMode := by
  unfold diffModeStates comparedFields at h
  rw [List.map_eq_nil_iff, List.filter_eq_nil_iff] at h
  have first := h _ List.mem_cons_self
  simpa [comparedField] using first

/-! ## Adaptive capture -/

structure AdaptiveCaptureConfig where
  enabled : Option Bool := none
  base : Option String := none
  escalated : Option String := none
  deescalateAfterMs : Option Int := none
  minDwellMs : Option Int := none
  maxSwitchesPerHour : Option Int := none

structure ResolvedAdaptiveCaptureConfig where
  enabled : Bool
  base : CaptureMode
  escalated : CaptureMode
  deescalateAfterMs : Int
  minDwellMs : Int
  maxSwitchesPerHour : Int
  deriving DecidableEq, Repr

def DEFAULT_ADAPTIVE_CAPTURE : ResolvedAdaptiveCaptureConfig where
  enabled := false
  base := .safe
  escalated := .forensic
  deescalateAfterMs := 120000
  minDwellMs := 10000
  maxSwitchesPerHour := 60

/-- An optional mode of the configuration; an absent one takes the default. -/
def resolveAdaptiveMode (mode : Option String) (modeDefault : CaptureMode) :
    Except String CaptureMode :=
  match mode with
  | none => .ok modeDefault
  | some mode => resolveCaptureMode (some mode)

def resolveAdaptiveCaptureConfig (input : AdaptiveCaptureConfig) :
    Except String ResolvedAdaptiveCaptureConfig := do
  let base ← resolveAdaptiveMode input.base DEFAULT_ADAPTIVE_CAPTURE.base
  let escalated ← resolveAdaptiveMode input.escalated DEFAULT_ADAPTIVE_CAPTURE.escalated
  assertPositiveOption input.deescalateAfterMs "adaptiveCapture.deescalateAfterMs"
  assertPositiveOption input.minDwellMs "adaptiveCapture.minDwellMs"
  assertPositiveOption input.maxSwitchesPerHour "adaptiveCapture.maxSwitchesPerHour"
  if input.enabled.getD false ∧ base = escalated then
    .error "adaptiveCapture.escalated must differ from adaptiveCapture.base"
  else
    .ok
      { enabled := input.enabled.getD false
        base := base
        escalated := escalated
        deescalateAfterMs :=
          input.deescalateAfterMs.getD DEFAULT_ADAPTIVE_CAPTURE.deescalateAfterMs
        minDwellMs := input.minDwellMs.getD DEFAULT_ADAPTIVE_CAPTURE.minDwellMs
        maxSwitchesPerHour :=
          input.maxSwitchesPerHour.getD DEFAULT_ADAPTIVE_CAPTURE.maxSwitchesPerHour }

/-- What the checks of `resolveAdaptiveCaptureConfig` ensure. -/
structure ResolvedAdaptiveCaptureConfig.Valid (adaptive : ResolvedAdaptiveCaptureConfig) :
    Prop where
  maxSwitchesPerHour_pos : 0 < adaptive.maxSwitchesPerHour
  base_ne_escalated : adaptive.enabled → adaptive.base ≠ adaptive.escalated

theorem assertPositiveOption_pos {value : Option Int} {fieldName : String} {modeDefault : Int}
    (h : assertPositiveOption value fieldName = .ok ()) (hdefault : 0 < modeDefault) :
    0 < value.getD modeDefault := by
  cases value with
  | none => exact hdefault
  | some value =>
      by_cases hpos : value ≤ 0
      · simp [assertPositiveOption, CaptureMode.assertPositiveInteger, hpos] at h
      · exact Int.not_le.mp hpos

theorem resolveAdaptiveCaptureConfig_valid {input : AdaptiveCaptureConfig}
    {adaptive : ResolvedAdaptiveCaptureConfig}
    (h : resolveAdaptiveCaptureConfig input = .ok adaptive) : adaptive.Valid := by
  unfold resolveAdaptiveCaptureConfig at h
  cases hbase : resolveAdaptiveMode input.base DEFAULT_ADAPTIVE_CAPTURE.base with
  | error => simp [hbase, bind, Except.bind] at h
  | ok base =>
      cases hescalated :
          resolveAdaptiveMode input.escalated DEFAULT_ADAPTIVE_CAPTURE.escalated with
      | error => simp [hbase, hescalated, bind, Except.bind] at h
      | ok escalated =>
          cases hafter : assertPositiveOption input.deescalateAfterMs
              "adaptiveCapture.deescalateAfterMs" with
          | error => simp [hbase, hescalated, hafter, bind, Except.bind] at h
          | ok =>
              cases hdwell : assertPositiveOption input.minDwellMs
                  "adaptiveCapture.minDwellMs" with
              | error => simp [hbase, hescalated, hafter, hdwell, bind, Except.bind] at h
              | ok =>
                  cases hmax : assertPositiveOption input.maxSwitchesPerHour
                      "adaptiveCapture.maxSwitchesPerHour" with
                  | error =>
                      simp [hbase, hescalated, hafter, hdwell, hmax, bind, Except.bind] at h
                  | ok =>
                      simp only [hbase, hescalated, hafter, hdwell, hmax, bind, Except.bind] at h
                      split at h
                      · contradiction
                      · next hsame =>
                          simp only [Except.ok.injEq] at h
                          subst h
                          exact ⟨assertPositiveOption_pos hmax (by decide), fun henabled heq =>
                            hsame ⟨henabled, heq⟩⟩

/-- The adaptive configuration with the mode the SDK starts in. An enabled adaptive configuration
ignores the option `captureMode`. -/
def resolveCaptureModeSelection (adaptiveCapture : AdaptiveCaptureConfig)
    (captureMode : Option String) :
    Except String (ResolvedAdaptiveCaptureConfig × CaptureMode) := do
  let adaptive ← resolveAdaptiveCaptureConfig adaptiveCapture
  if adaptive.enabled then return (adaptive, adaptive.base)
  else
    let mode ← resolveCaptureMode captureMode
    return (adaptive, mode)

theorem resolveCaptureModeSelection_spec {input : AdaptiveCaptureConfig}
    {captureMode : Option String} {adaptive : ResolvedAdaptiveCaptureConfig} {mode : CaptureMode}
    (h : resolveCaptureModeSelection input captureMode = .ok (adaptive, mode)) :
    adaptive.Valid ∧ (adaptive.enabled → mode = adaptive.base) := by
  unfold resolveCaptureModeSelection at h
  cases hadaptive : resolveAdaptiveCaptureConfig input with
  | error => simp [hadaptive, bind, Except.bind] at h
  | ok resolved =>
      simp only [hadaptive, bind, Except.bind] at h
      have hvalid : resolved.Valid := resolveAdaptiveCaptureConfig_valid hadaptive
      split at h
      · simp only [pure, Except.pure, Except.ok.injEq, Prod.mk.injEq] at h
        obtain ⟨rfl, rfl⟩ := h
        exact ⟨hvalid, fun _ => rfl⟩
      · next hdisabled =>
          cases hmode : resolveCaptureMode captureMode with
          | error => simp [hmode] at h
          | ok =>
              simp only [hmode, pure, Except.pure, Except.ok.injEq, Prod.mk.injEq] at h
              obtain ⟨rfl, -⟩ := h
              exact ⟨hvalid, fun henabled => absurd henabled hdisabled⟩

end ErrorCore
