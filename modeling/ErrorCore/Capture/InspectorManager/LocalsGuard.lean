import ErrorCore.Capture.CaptureMode
import ErrorCore.Capture.InspectorManager
import Mathlib.Data.Rat.Defs

/-!
# The locals guard

`InspectorManager` of `src/capture/inspector-manager.ts` arms the debugger to
pause on exceptions, and its guard disarms it when the pauses exceed a budget:
a rate of pauses, checked each second, or a wall time, checked after each pause.
A tripped guard recovers after five quiet minutes.

Timers fire and the debugger pauses at any time. An oracle says which calls of
the inspector session throw. `Date.now()` is read by the steps that say so; wall
times are exact.
-/

namespace ErrorCore.InspectorManager

def LOCALS_GUARD_RECOVERY_MS : Int := 5 * 60 * 1000

/-- The states of `Debugger.setPauseOnExceptions`. -/
inductive PauseState
  | all
  | none
  deriving DecidableEq, Repr

/-- Which calls of the inspector succeed: setting up the session, and posting to it. -/
structure Oracle where
  connects : Bool
  posts : Bool
  deriving DecidableEq, Repr

/-- What `applyModeState` reads of a `ModeState`. -/
structure InspectorModeState where
  captureLocalVariables : Bool
  localVariablesMode : LocalVariablesMode
  localsGuard : LocalsGuard
  maxLocalsCollectionsPerSecond : Int
  maxCachedLocals : Nat
  deriving DecidableEq, Repr

structure Manager where
  locals : State
  captureLocalVariables : Bool
  maxCollectionsPerSecond : Int
  available : Bool
  initialized : Bool
  /-- There is a session. -/
  session : Bool
  collectionCountThisSecond : Nat
  pauseOnExceptionsActive : Bool
  pausesThisSecond : Nat
  overLimitSeconds : Nat
  pauseWallTimeMsWindow : Rat
  pauseWindowStartedAtMs : Int
  guardTripped : Bool
  guardTrippedAtMs : Option Int
  localsGuard : LocalsGuard
  /-- What was posted to the session, in order. -/
  posted : List PauseState
  deriving DecidableEq, Repr

namespace Manager

/-- The constructor. -/
def new (config : InspectorModeState) (ttlMs : Nat) : Manager where
  locals := InspectorManager.new config.maxCachedLocals ttlMs
  captureLocalVariables := config.captureLocalVariables
  maxCollectionsPerSecond := config.maxLocalsCollectionsPerSecond
  available := config.captureLocalVariables
  initialized := false
  session := false
  collectionCountThisSecond := 0
  pauseOnExceptionsActive := false
  pausesThisSecond := 0
  overLimitSeconds := 0
  pauseWallTimeMsWindow := 0
  pauseWindowStartedAtMs := 0
  guardTripped := false
  guardTrippedAtMs := none
  localsGuard := config.localsGuard
  posted := []

variable (oracle : Oracle) (m : Manager)

/-! ## Arming and disarming -/

/-- `_initSession`. -/
def initSession : Manager :=
  if m.initialized then m
  else if oracle.connects then { m with initialized := true, session := true }
  else { m with initialized := true, session := false, available := false }

/-- The post of `ensureDebuggerActive` is not caught: the second component says that it threw. -/
def ensureDebuggerActive : Manager × Bool :=
  if m.guardTripped then (m, false)
  else if !m.available then (m, false)
  else
    let m := m.initSession oracle
    if !m.session then (m, false)
    else if m.pauseOnExceptionsActive then (m, false)
    else if oracle.posts then
      ({ m with posted := m.posted ++ [.all], pauseOnExceptionsActive := true }, false)
    else (m, true)

/-- A post of `none` whose error is caught. -/
def postNone : Manager :=
  if m.session && m.pauseOnExceptionsActive && oracle.posts then
    { m with posted := m.posted ++ [.none] }
  else m

def disarmDebugger : Manager := { m.postNone oracle with pauseOnExceptionsActive := false }

/-- The timer of `deactivateAfterIdle`. -/
def deactivate : Manager :=
  if !m.pauseOnExceptionsActive || !m.session then m
  else { m.postNone oracle with pauseOnExceptionsActive := false }

def shutdown : Manager :=
  { m.postNone oracle with session := false, pauseOnExceptionsActive := false, available := false }

/-! ## The guard -/

def resetGuardTrip (now : Int) : Manager :=
  { m with
    guardTripped := false
    guardTrippedAtMs := none
    overLimitSeconds := 0
    pausesThisSecond := 0
    pauseWallTimeMsWindow := 0
    pauseWindowStartedAtMs := now }

def tripGuard (now : Int) : Manager :=
  if m.guardTripped then m
  else
    let m := { m with guardTripped := true, guardTrippedAtMs := some now }
    if m.session && m.pauseOnExceptionsActive then
      { m.postNone oracle with pauseOnExceptionsActive := false }
    else m

/-- The end of `rearmAfterAdaptiveGuard` and of a recovery. -/
def rearm (now : Int) : Manager :=
  let m := m.resetGuardTrip now
  if m.captureLocalVariables then ({ m with available := true }.ensureDebuggerActive oracle).1
  else m

def rearmAfterAdaptiveGuard (now : Int) : Manager := m.rearm oracle now

/-- The budgets of a tripped guard. -/
def OverBudget : Prop :=
  m.localsGuard.maxPausesPerSecond < m.pausesThisSecond ∨
    (m.localsGuard.maxPauseMsPerMinute : Rat) < m.pauseWallTimeMsWindow

instance : Decidable m.OverBudget :=
  inferInstanceAs (Decidable (m.localsGuard.maxPausesPerSecond < m.pausesThisSecond ∨
    (m.localsGuard.maxPauseMsPerMinute : Rat) < m.pauseWallTimeMsWindow))

def evaluateGuardRecovery (now : Int) : Manager :=
  match m.guardTripped, m.guardTrippedAtMs with
  | true, some trippedAt =>
      if m.OverBudget then
        { m with
          guardTrippedAtMs := some now
          pausesThisSecond := 0
          pauseWallTimeMsWindow := 0
          pauseWindowStartedAtMs := now }
      else
        let m := { m with pausesThisSecond := 0 }
        if LOCALS_GUARD_RECOVERY_MS ≤ now - trippedAt then m.rearm oracle now else m
  | _, _ => { m with pausesThisSecond := 0 }

/-- A second that is counted, before the guard looks at the count. -/
def countSecond : Manager :=
  { m with
    overLimitSeconds :=
      if m.localsGuard.maxPausesPerSecond < m.pausesThisSecond then m.overLimitSeconds + 1 else 0
    pausesThisSecond := 0 }

def evaluatePauseRateGuard (now : Int) : Manager :=
  if !m.localsGuard.enabled then { m with pausesThisSecond := 0 }
  else if m.guardTripped then m.evaluateGuardRecovery oracle now
  else if 10 ≤ m.countSecond.overLimitSeconds then m.countSecond.tripGuard oracle now
  else m.countSecond

/-- The timer of each second. -/
def everySecond (now : Int) : Manager :=
  { m with collectionCountThisSecond := 0 }.evaluatePauseRateGuard oracle now

/-- The window of wall time that a pause is counted in. -/
def countWallTime (elapsedMs : Rat) (now : Int) : Manager :=
  let m :=
    if 60000 < now - m.pauseWindowStartedAtMs then
      { m with pauseWindowStartedAtMs := now, pauseWallTimeMsWindow := 0 }
    else m
  { m with pauseWallTimeMsWindow := m.pauseWallTimeMsWindow + elapsedMs }

/-- The window exceeds its bound. -/
def OverWallTime : Prop := (m.localsGuard.maxPauseMsPerMinute : Rat) < m.pauseWallTimeMsWindow

instance : Decidable m.OverWallTime :=
  inferInstanceAs (Decidable ((m.localsGuard.maxPauseMsPerMinute : Rat) <
    m.pauseWallTimeMsWindow))

def recordPauseWallTime (elapsedMs : Rat) (now trippedAt : Int) : Manager :=
  if !m.localsGuard.enabled || m.guardTripped then m
  else if (m.countWallTime elapsedMs now).OverWallTime then
    (m.countWallTime elapsedMs now).tripGuard oracle trippedAt
  else m.countWallTime elapsedMs now

/-- A pause up to the frames: only exceptions are captured, and no more than the limit. A pause
without frames of the application allocates no id. -/
def startCapture (exception selected : Bool) (prunedAt : Int) : Manager :=
  if !exception then m
  else if m.maxCollectionsPerSecond ≤ m.collectionCountThisSecond then m
  else if !selected then
    { m with locals := { m.locals with ringBuffer := m.locals.ringBuffer.pruneExpired prunedAt } }
  else { m with locals := m.locals.pause prunedAt }

/-- `_onPaused`. -/
def onPaused (exception selected : Bool) (elapsedMs : Rat) (prunedAt now trippedAt : Int) :
    Manager :=
  ({ m with pausesThisSecond := m.pausesThisSecond + 1 }.startCapture exception selected
    prunedAt).recordPauseWallTime oracle elapsedMs now trippedAt

def applyModeState (next : InspectorModeState) (now : Int) : Manager :=
  let m :=
    { m with
      captureLocalVariables :=
        next.captureLocalVariables && next.localVariablesMode ≠ LocalVariablesMode.none
      maxCollectionsPerSecond := next.maxLocalsCollectionsPerSecond
      locals := { m.locals with ringBuffer := m.locals.ringBuffer.resize next.maxCachedLocals }
      localsGuard := next.localsGuard }
  if !m.captureLocalVariables then { m.disarmDebugger oracle with available := false }
  else
    let m := { m with available := true }
    if !m.localsGuard.enabled && m.guardTripped then m.rearmAfterAdaptiveGuard oracle now else m

/-! ## Lookups -/

section Lookup

variable (sha1 : Text → Text)

/-- The conditions that are checked before the debugger is armed again. -/
def reachesDebugger (mainThread object : Bool) : Bool :=
  m.captureLocalVariables && !m.guardTripped && m.available && mainThread && object

/-- The result is missing if arming the debugger threw. -/
def getLocalsWithDiagnostics (mainThread object : Bool) (requestId : Option Text)
    (error : LookedUpError) (clock : Nat → Int) : Option LocalsWithDiagnostics × Manager :=
  let (armed, threw) :=
    if m.reachesDebugger mainThread object then m.ensureDebuggerActive oracle else (m, false)
  if threw then
    (none,
      { armed with
        locals := { m.locals with ringBuffer := m.locals.ringBuffer.pruneExpired (clock 0) } })
  else
    let ready : Readiness :=
      { captureLocalVariables := m.captureLocalVariables
        guardTripped := m.guardTripped
        available := m.available
        mainThread
        object
        initialized := armed.initialized }
    let (result, locals) := m.locals.lookup sha1 ready requestId error clock
    (some result, { armed with locals })

end Lookup

end Manager

end ErrorCore.InspectorManager
