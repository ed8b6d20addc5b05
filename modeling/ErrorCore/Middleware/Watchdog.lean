import ErrorCore.Foundation.Json
import ErrorCore.Foundation.Transition

/-!
# The Lambda watchdog

`src/middleware/watchdog.ts`: the manager on the main thread tells a worker when
an invocation starts and ends and which errors were captured, by messages that
arrive in order. When an invocation comes close to its time limit, the worker
posts a report of it, which the main thread can no longer make.

The worker may stop at any time, and the manager learns of it later; it never
starts another one. The clock of the process is assumed not to be set back.

Invocations are numbered as the manager announces them, from one on. A message
carries the number of the invocation in progress, for the statements about runs;
no decision of the worker reads it.
-/

namespace ErrorCore.Watchdog

open Json (Value)

structure InvokeMeta where
  requestId : Text
  lambdaRequestId : Text
  traceId : Option Text
  timeoutMs : Int
  eventSource : Text
  deriving DecidableEq, Repr

structure CapturedError where
  name : Text
  message : Text
  stack : Text
  deriving DecidableEq, Repr

inductive Message
  | invokeStart (number : Nat) (info : InvokeMeta)
  | invokeEnd (number : Nat)
  | errorCaptured (number : Nat) (error : CapturedError)
  | shutdown
  deriving DecidableEq, Repr

/-- `invocationMeta`. -/
structure Invocation where
  number : Nat
  info : InvokeMeta
  startedAt : Nat
  deriving DecidableEq, Repr

/-- A report that the worker has posted. `ended` are the invocations whose end it had been told. -/
structure Report where
  invocation : Invocation
  error : Option (Nat × CapturedError)
  at_ : Nat
  ended : List Nat
  deriving DecidableEq, Repr

structure Config where
  collectorUrl : Option Text
  functionName : Text

/-- `workerAlive` tells whether the thread runs and its port is open, and `timer` is when the timer
is due. -/
structure State where
  managerHasWorker : Bool
  workerAlive : Bool
  queue : List Message
  timer : Option Nat
  invocationMeta : Option Invocation
  lastCapturedError : Option (Nat × CapturedError)
  clock : Nat
  announced : List InvokeMeta
  ended : List Nat
  reports : List Report
  deriving DecidableEq, Repr

/-- The manager after `start`; `starts` tells whether the worker could be made. -/
def State.start (starts : Bool) (clock : Nat) : State where
  managerHasWorker := starts
  workerAlive := starts
  queue := []
  timer := none
  invocationMeta := none
  lastCapturedError := none
  clock := clock
  announced := []
  ended := []
  reports := []

namespace State

variable (config : Config) (s : State)

/-! ## The manager -/

def postMessage (message : Message) : State :=
  if s.managerHasWorker then { s with queue := s.queue ++ [message] } else s

def notifyInvokeStart (info : InvokeMeta) : State :=
  if s.managerHasWorker then
    { s.postMessage (.invokeStart (s.announced.length + 1) info) with
      announced := s.announced ++ [info] }
  else s

def notifyInvokeEnd : State := s.postMessage (.invokeEnd s.announced.length)

def notifyErrorCaptured (error : CapturedError) : State :=
  s.postMessage (.errorCaptured s.announced.length error)

def shutdown : State := { s.postMessage .shutdown with managerHasWorker := false }

/-! ## The worker -/

/-- How long before the time limit the worker reports. -/
def marginMs : Int := 1500

/-- The listener of the worker's port. -/
def handle : Message → State
  | .invokeStart number info =>
      let deadline := info.timeoutMs - marginMs
      { s with
        invocationMeta := some ⟨number, info, s.clock⟩
        lastCapturedError := none
        timer := if 0 < deadline then some (s.clock + deadline.toNat) else none }
  | .invokeEnd number =>
      { s with
        timer := none
        invocationMeta := none
        lastCapturedError := none
        ended := s.ended ++ [number] }
  | .errorCaptured number error => { s with lastCapturedError := some (number, error) }
  | .shutdown => { s with timer := none, workerAlive := false }

def deliver : Option State :=
  match s.workerAlive, s.queue with
  | true, message :: rest => some ({ s with queue := rest }.handle message)
  | _, _ => none

/-- `onTimeout`. -/
def onTimeout : State :=
  let s := { s with timer := none }
  match s.invocationMeta, config.collectorUrl with
  | some invocation, some _ =>
      { s with
        reports := s.reports ++ [⟨invocation, s.lastCapturedError, s.clock, s.ended⟩] }
  | _, _ => s

/-- The timer runs, once it is due. -/
def fire : Option State :=
  match s.workerAlive, s.timer with
  | true, some due => if due ≤ s.clock then some (s.onTimeout config) else none
  | _, _ => none

end State

inductive Action
  | notifyInvokeStart (info : InvokeMeta)
  | notifyInvokeEnd
  | notifyErrorCaptured (error : CapturedError)
  | shutdown
  | deliver
  | fire
  | tick (ms : Nat)
  /-- The worker fails, exits or is terminated. -/
  | stop
  /-- The manager's listener for the end of the worker. -/
  | workerGone
  deriving DecidableEq, Repr

section Step

variable (config : Config)

def step (s : State) : Action → Option State
  | .notifyInvokeStart info => some (s.notifyInvokeStart info)
  | .notifyInvokeEnd => some s.notifyInvokeEnd
  | .notifyErrorCaptured error => some (s.notifyErrorCaptured error)
  | .shutdown => some s.shutdown
  | .deliver => s.deliver
  | .fire => s.fire config
  | .tick ms => some { s with clock := s.clock + ms }
  | .stop => some { s with workerAlive := false }
  | .workerGone => if s.workerAlive then none else some { s with managerHasWorker := false }

def system : Transition.System State Action where
  init s := ∃ starts clock, s = .start starts clock
  step := step config

end Step

/-! ## The report -/

section Report

variable (config : Config)

/-- What the runtime prints: `new Date(ms).toISOString()`, and numbers in texts and as JSON, of which
the safe integers print as their digits. -/
structure Printing where
  toISOString : Nat → Text
  number : Int → Text
  number_nat : ∀ n : Nat, n < 9007199254740992 → number n = Nat.toDigits 10 n

variable (printing : Printing) (report : Report)

def durationMs : Int := report.at_ - report.invocation.startedAt

def timeoutMessage : Text :=
  ("Function timed out: " : Text) ++ config.functionName ++ (" (" : Text) ++
    printing.number report.invocation.info.timeoutMs ++ ("ms limit)" : Text)

def reportError : Value :=
  match report.error with
  | some (_, error) =>
      .object [("name", .string error.name), ("message", .string error.message),
        ("stack", .string error.stack)]
  | none =>
      .object [("type", .string "LambdaTimeoutError"),
        ("message", .string (timeoutMessage config printing report)), ("stack", .string [])]

/-- `JSON.stringify` leaves out a field that is `undefined`. -/
def traceIdField : List (Text × Value) :=
  match report.invocation.info.traceId with
  | some traceId => [("traceId", .string traceId)]
  | none => []

def identityFields : List (Text × Value) :=
  [("functionName", .string config.functionName),
    ("requestId", .string report.invocation.info.requestId),
    ("lambdaRequestId", .string report.invocation.info.lambdaRequestId)]

def timingFields : List (Text × Value) :=
  [("eventSource", .string report.invocation.info.eventSource),
    ("startedAt", .string (printing.toISOString report.invocation.startedAt)),
    ("durationMs", .number (printing.number (durationMs report))),
    ("timeoutMs", .number (printing.number report.invocation.info.timeoutMs))]

def reportInvocation : Value :=
  .object (identityFields config report ++ (traceIdField report ++ timingFields printing report))

def reportPayload : Value :=
  .object
    [("watchdogPayloadVersion", .string "1.0.0"),
      ("capturedAt", .string (printing.toISOString report.at_)),
      ("source", .string "watchdog"),
      ("error", reportError config printing report),
      ("invocation", reportInvocation config printing report)]

/-- The body of the request. -/
def reportBody : Text := Json.stringify (reportPayload config printing report)

end Report

end ErrorCore.Watchdog
