import ErrorCore.Foundation.InsertionMap
import ErrorCore.Foundation.Text
import ErrorCore.Foundation.Transition

/-!
# Tracked requests

`src/context/request-tracker.ts`: the map of the requests in progress, and the
cleanup that removes a request when its response or its connection ends. The
callbacks of both belong to the caller and can throw; what they do is the
environment's, and whether they throw comes with each call.

The state records, for the statements about runs, where every context that was
accepted has gone, and what each cleanup has called.
-/

namespace ErrorCore

/-- A `RequestContext`, as far as the tracker reads it. -/
structure TrackedContext where
  requestId : Text
  method : Text
  url : Text
  startTime : Int
  deriving DecidableEq, Repr

structure RequestSummary where
  requestId : Text
  method : Text
  url : Text
  startTime : Text
  deriving DecidableEq, Repr

/-- `value.toString()`. -/
def bigintText : Int → Text
  | .ofNat n => Nat.toDigits 10 n
  | .negSucc n => '-' :: Nat.toDigits 10 (n + 1)

structure RequestTrackerConfig where
  maxConcurrent : Nat
  ttlMs : Int
  /-- Whether `onRemove` throws for a context. -/
  onRemoveThrows : TrackedContext → Bool

structure RequestTracker where
  contexts : List (Text × TrackedContext)
  capacityWarningActive : Bool
  deriving DecidableEq, Repr

namespace RequestTracker

def empty : RequestTracker where
  contexts := []
  capacityWarningActive := false

section Methods

variable (config : RequestTrackerConfig) (tracker : RequestTracker)

def isFull : Bool := config.maxConcurrent ≤ tracker.contexts.length

def add (context : TrackedContext) : RequestTracker :=
  if tracker.isFull config then { tracker with capacityWarningActive := true }
  else { tracker with contexts := InsertionMap.set tracker.contexts context.requestId context }

def resetCapacityWarningIfAvailable : RequestTracker :=
  if tracker.contexts.length < config.maxConcurrent then
    { tracker with capacityWarningActive := false }
  else tracker

/-- Whether `remove` throws what `onRemove` throws. -/
def removeThrows (requestId : Text) : Bool :=
  (InsertionMap.get? tracker.contexts requestId).any config.onRemoveThrows

/-- The tracker, and the context that `onRemove` is called with. When it throws, the warning is not
reset. -/
def remove (requestId : Text) : RequestTracker × Option TrackedContext :=
  let context := InsertionMap.get? tracker.contexts requestId
  let removed := { tracker with contexts := InsertionMap.delete tracker.contexts requestId }
  if removeThrows config tracker requestId then (removed, context)
  else (removed.resetCapacityWarningIfAvailable config, context)

/-- `now - context.startTime > ttlNs`. -/
def isExpired (now : Int) (context : TrackedContext) : Bool :=
  config.ttlMs * 1000000 < now - context.startTime

/-- The loop of `sweepExpired` over the pairs: what it leaves, what it hands to `onRemove`, and
whether `onRemove` has thrown and ended it. -/
def sweepLoop (now : Int) : List (Text × TrackedContext) →
    List (Text × TrackedContext) × List TrackedContext × Bool
  | [] => ([], [], false)
  | pair :: rest =>
      if isExpired config now pair.2 then
        if config.onRemoveThrows pair.2 then (rest, [pair.2], true)
        else
          let (kept, handed, threw) := sweepLoop now rest
          (kept, pair.2 :: handed, threw)
      else
        let (kept, handed, threw) := sweepLoop now rest
        (pair :: kept, handed, threw)

def sweepExpired (now : Int) : RequestTracker × List TrackedContext :=
  let (kept, handed, threw) := sweepLoop config now tracker.contexts
  let swept := { tracker with contexts := kept }
  if threw then (swept, handed) else (swept.resetCapacityWarningIfAvailable config, handed)

def shutdown : RequestTracker := empty

def getSummaries : List RequestSummary :=
  tracker.contexts.map fun pair =>
    { requestId := pair.2.requestId, method := pair.2.method, url := pair.2.url
      startTime := bigintText pair.2.startTime }

def getCount : Nat := tracker.contexts.length

end Methods

end RequestTracker

/-! ## Cleanups -/

inductive CleanupEvent
  | responseFinish
  | responseClose
  | requestAborted
  | requestClose
  deriving DecidableEq, Repr

def CleanupEvent.ofResponse : CleanupEvent → Bool
  | .responseFinish | .responseClose => true
  | .requestAborted | .requestClose => false

/-- A call of `registerRequestCleanup`: the listeners it could add, each with whether the emitter
calls it only once, and its two flags. -/
structure Cleanup where
  requestId : Text
  listeners : List (CleanupEvent × Bool)
  cleaned : Bool
  responseCompleted : Bool
  /-- How often it has called `onResponseComplete`, `remove` and `onCleanup`. -/
  completions : Nat
  removals : Nat
  cleanups : Nat
  deriving DecidableEq, Repr

def registerRequestCleanup (requestId : Text) (listeners : List (CleanupEvent × Bool)) :
    Cleanup where
  requestId := requestId
  listeners := listeners
  cleaned := false
  responseCompleted := false
  completions := 0
  removals := 0
  cleanups := 0

namespace Cleanup

variable (config : RequestTrackerConfig)

/-- The listener of an event, after which a `once` listener is gone. -/
def fire (cleanup : Cleanup) (event : CleanupEvent) : Option Cleanup :=
  if (event, true) ∈ cleanup.listeners then
    some { cleanup with listeners := cleanup.listeners.erase (event, true) }
  else if (event, false) ∈ cleanup.listeners then some cleanup
  else none

/-- `cleanup()`, with the context that `onRemove` is called with. -/
def run (cleanup : Cleanup) (tracker : RequestTracker) :
    Cleanup × RequestTracker × Option TrackedContext :=
  if cleanup.cleaned then (cleanup, tracker, none)
  else
    let called :=
      { cleanup with
        cleaned := true
        removals := cleanup.removals + 1
        cleanups :=
          if tracker.removeThrows config cleanup.requestId then cleanup.cleanups
          else cleanup.cleanups + 1 }
    (called, tracker.remove config cleanup.requestId)

/-- `responseCleanup()`; `throws` tells whether `onResponseComplete` throws. -/
def runResponse (throws : Bool) (cleanup : Cleanup) (tracker : RequestTracker) :
    Cleanup × RequestTracker × Option TrackedContext :=
  if cleanup.responseCompleted then cleanup.run config tracker
  else
    let completed :=
      { cleanup with responseCompleted := true, completions := cleanup.completions + 1 }
    if throws then (completed, tracker, none) else completed.run config tracker

/-- What an event does. -/
def handle (throws : Bool) (event : CleanupEvent) (cleanup : Cleanup) (tracker : RequestTracker) :
    Cleanup × RequestTracker × Option TrackedContext :=
  if event.ofResponse then cleanup.runResponse config throws tracker
  else cleanup.run config tracker

end Cleanup

end ErrorCore
