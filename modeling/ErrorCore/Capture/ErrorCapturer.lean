import Mathlib.Data.List.Basic
import Mathlib.Logic.Function.Basic
import ErrorCore.Foundation.Transition

/-!
# Deliveries of the error capturer

The promises of `src/capture/error-capturer.ts`: how a capture gets its package
and the payload blobs of the package on their way, and how `flush` waits for
them. A promise is in `pendingTransportDispatches` from its creation until it
settles, so the set is also the list of the promises that have not settled.

A run resolves what the worker replies, how large the serialized envelopes are,
how each call of `transport.send` and of the dead-letter store ends, and in which
order promises settle. The callbacks of a promise that settles run in one step.
What is delivered does not matter here, only when and with which outcome.
-/

namespace ErrorCore.ErrorCapturer

/-- The calls of `capture` that were admitted, in their order. -/
abbrev CaptureId := Nat

/-- The promises that `pendingTransportDispatches` holds. -/
inductive Dispatch
  /-- `dispatchPackageAssembly`. -/
  | packageAssembly (capture : CaptureId)
  /-- `dispatchTransport` for the package. -/
  | package (capture : CaptureId)
  /-- `dispatchPayloadBlobsAfter`. -/
  | payloadBlobs (capture : CaptureId)
  /-- `dispatchTransport` for one blob. -/
  | payloadBlob (capture : CaptureId) (index : Nat)
  /-- `scheduleDeadLetterRecoveryDrain`. -/
  | deadLetterRecovery (drain : Nat)
  deriving DecidableEq, Repr

/-- The capture a dispatch originates from. -/
def Dispatch.capture? : Dispatch → Option CaptureId
  | packageAssembly capture | package capture | payloadBlobs capture => some capture
  | payloadBlob capture _ => some capture
  | deadLetterRecovery _ => none

/-- What the capturer was built with, as far as deliveries depend on it. -/
structure CapturerConfig where
  hardCapBytes : Nat
  piiScrubber : Bool
  payloadSpool : Bool
  deadLetterStore : Bool
  deriving DecidableEq, Repr

structure CaptureCall where
  workerAvailable : Bool
  useWorkerAssembly : Bool
  deferredDelivery : Bool
  isUncaught : Bool
  /-- The bytes of the envelope that inline assembly would make, or an error of it. -/
  inlineAssembly : Option Nat
  deriving DecidableEq, Repr

/-- How `assemble` settles; after an error the package is assembled inline, which can fail too. -/
inductive AssemblyReply
  | result (serializedBytes : Nat)
  | error (fallback : Option Nat) (deferredDelivery : Bool)
  deriving DecidableEq, Repr

/-- What `appendPayloadSync` does. -/
inductive Append
  | stored
  | declined
  | threw
  deriving DecidableEq, Repr

/-- How a call of `transport.send` ends, and what the dead-letter store, if there is one, would
then do. -/
inductive SendOutcome
  | sent
  | failed (append : Append)
  deriving DecidableEq, Repr

/-- What becomes of a payload. -/
inductive Fate
  | sent
  | deadLettered
  | dropped
  deriving DecidableEq, Repr

def SendOutcome.fate (deadLetterStore : Bool) : SendOutcome → Fate
  | sent => .sent
  | failed .stored => if deadLetterStore then .deadLettered else .dropped
  | failed .declined | failed .threw => .dropped

structure CaptureDeliveryDiagnostics where
  sent : Nat
  deadLettered : Nat
  dropped : Nat
  deriving DecidableEq, Repr

def CaptureDeliveryDiagnostics.zero : CaptureDeliveryDiagnostics where
  sent := 0
  deadLettered := 0
  dropped := 0

def CaptureDeliveryDiagnostics.add (a b : CaptureDeliveryDiagnostics) :
    CaptureDeliveryDiagnostics where
  sent := a.sent + b.sent
  deadLettered := a.deadLettered + b.deadLettered
  dropped := a.dropped + b.dropped

/-- The counters of `HealthMetrics` that deliveries move. -/
structure HealthCounters where
  captured : Nat
  droppedCaptureFailed : Nat
  droppedDlqWriteFailed : Nat
  transportFailures : Nat
  deriving DecidableEq, Repr

/-- One blob id of the package in the loop of `dispatchPayloadBlobs`. -/
inductive BlobAssembly
  /-- `buildEnvelope` returns `null`. -/
  | unresolved
  | envelope (serializedBytes : Nat)
  /-- `finalizePayloadBlobAssemblyResult` throws. -/
  | failed
  deriving DecidableEq, Repr

/-- What a call of `flush` waits for. -/
inductive FlushPhase
  /-- The promises that were pending when it began. -/
  | snapshot (dispatches : List Dispatch)
  /-- The deliveries that it took from the buffer. -/
  | buffered (dispatches : List Dispatch)
  | resolved
  deriving DecidableEq, Repr

structure Flush where
  /-- How many captures had returned before it began. -/
  captured : CaptureId
  phase : FlushPhase
  deriving DecidableEq, Repr

structure State where
  captured : CaptureId
  pendingTransportDispatches : List Dispatch
  /-- With the bytes of the serialized payload. -/
  pendingBufferedTransportPayloads : List (CaptureId × Nat)
  /-- The result of each package dispatch that has settled. -/
  packageWasSent : CaptureId → Option Bool
  /-- The captures whose `dispatchPayloadBlobs` waits for its dispatches. -/
  awaitsBlobs : CaptureId → Bool
  transportFailedSinceLastSuccess : Bool
  deadLetterRecoveryDrain : Option Nat
  drains : Nat
  flushes : List Flush
  deliveryDiagnostics : CaptureDeliveryDiagnostics
  healthMetrics : HealthCounters
  /-- The sum of what the reads of the diagnostics have returned. -/
  reported : CaptureDeliveryDiagnostics
  /-- What has become of the payloads whose `dispatchTransport` has settled. -/
  fates : List Fate

inductive Action
  | capture (call : CaptureCall)
  | assembled (capture : CaptureId) (reply : AssemblyReply)
  /-- `hasPending` is what the dead-letter store answers afterwards. -/
  | packageSettled (capture : CaptureId) (outcome : SendOutcome) (hasPending : Bool)
  /-- The continuation of `dispatchPayloadBlobsAfter`. -/
  | dispatchPayloadBlobs (capture : CaptureId) (blobs : List BlobAssembly)
  | blobSettled (capture : CaptureId) (index : Nat) (outcome : SendOutcome) (hasPending : Bool)
  | payloadBlobsSettled (capture : CaptureId)
  | recoverySettled (drain : Nat) (recovered : Bool)
  | flush
  | snapshotSettled (flush : Nat)
  | bufferedSettled (flush : Nat)
  | getDiagnostics
  deriving DecidableEq, Repr

variable (cfg : CapturerConfig)

def CaptureCall.usesWorker (call : CaptureCall) : Bool :=
  call.workerAvailable && call.useWorkerAssembly && !call.deferredDelivery && !call.isUncaught &&
    !cfg.piiScrubber

namespace State

/-- `pendingTransportDispatches.add`. -/
def register (s : State) (dispatch : Dispatch) : State :=
  { s with pendingTransportDispatches := s.pendingTransportDispatches ++ [dispatch] }

/-- The promise settles and is taken out of the set. -/
def settle (s : State) (dispatch : Dispatch) : State :=
  { s with
    pendingTransportDispatches := s.pendingTransportDispatches.filter (· ≠ dispatch) }

/-- `dispatchPayloadBlobsAfter`. -/
def dispatchPayloadBlobsAfter (s : State) (c : CaptureId) : State :=
  if cfg.payloadSpool then s.register (.payloadBlobs c) else s

def recordDropped (s : State) : State :=
  { s with
    deliveryDiagnostics.dropped := s.deliveryDiagnostics.dropped + 1
    fates := s.fates ++ [.dropped] }

/-- A payload over the cap is dropped at once. -/
def dispatchTransport (s : State) (dispatch : Dispatch) (serializedBytes : Nat) : State :=
  if cfg.hardCapBytes < serializedBytes then
    { s.recordDropped with
      healthMetrics.droppedCaptureFailed := s.healthMetrics.droppedCaptureFailed + 1 }
  else
    { s.register dispatch with healthMetrics.captured := s.healthMetrics.captured + 1 }

/-- `dispatchTransport` of a package, and `dispatchPayloadBlobsAfter`. -/
def dispatchPackage (s : State) (c : CaptureId) (serializedBytes : Nat) : State :=
  let dispatched := s.dispatchTransport cfg (.package c) serializedBytes
  let s :=
    if cfg.hardCapBytes < serializedBytes then
      { dispatched with
        packageWasSent := Function.update dispatched.packageWasSent c (some false) }
    else dispatched
  s.dispatchPayloadBlobsAfter cfg c

/-- `captureInline` after the package was built. -/
def captureInline (s : State) (c : CaptureId) (serializedBytes : Nat) (deferredDelivery : Bool) :
    State :=
  if deferredDelivery then
    { s with
      pendingBufferedTransportPayloads :=
        s.pendingBufferedTransportPayloads ++ [(c, serializedBytes)] }
  else s.dispatchPackage cfg c serializedBytes

def capture (s : State) (call : CaptureCall) : State :=
  let c := s.captured
  let s := { s with captured := s.captured + 1 }
  if call.usesWorker cfg then s.register (.packageAssembly c)
  else
    match call.inlineAssembly with
    | none =>
        { s with
          healthMetrics.droppedCaptureFailed := s.healthMetrics.droppedCaptureFailed + 1 }
    | some serializedBytes => s.captureInline cfg c serializedBytes call.deferredDelivery

/-- `dispatchPackageAssembly` after `assemble` settled. -/
def assembled (s : State) (c : CaptureId) : AssemblyReply → State
  | .result serializedBytes => (s.settle (.packageAssembly c)).dispatchPackage cfg c serializedBytes
  | .error none _ => s.settle (.packageAssembly c)
  | .error (some serializedBytes) deferredDelivery =>
      (s.settle (.packageAssembly c)).captureInline cfg c serializedBytes deferredDelivery

def scheduleDeadLetterRecoveryDrain (s : State) (hasPending : Bool) : State :=
  if cfg.deadLetterStore && s.deadLetterRecoveryDrain.isNone && hasPending then
    { s.register (.deadLetterRecovery s.drains) with
      deadLetterRecoveryDrain := some s.drains
      drains := s.drains + 1 }
  else s

/-- A payload that has failed and is not stored. -/
def recordWriteFailed (s : State) : State :=
  { s.recordDropped with
    healthMetrics.droppedDlqWriteFailed := s.healthMetrics.droppedDlqWriteFailed + 1 }

/-- What `dispatchTransport` does when `transport.send` settles. The branch that stores the payload
moves none of the counters. -/
def afterSend (s : State) (hasPending : Bool) : SendOutcome → State
  | .sent =>
      let s :=
        { s with
          deliveryDiagnostics.sent := s.deliveryDiagnostics.sent + 1
          fates := s.fates ++ [Fate.sent] }
      if s.transportFailedSinceLastSuccess then
        { s with transportFailedSinceLastSuccess := false }.scheduleDeadLetterRecoveryDrain cfg
          hasPending
      else s
  | .failed append =>
      let s :=
        { s with
          transportFailedSinceLastSuccess := true
          healthMetrics.transportFailures := s.healthMetrics.transportFailures + 1 }
      if cfg.deadLetterStore then
        match append with
        | .stored =>
            { s with fates := s.fates ++ [Fate.deadLettered] }.scheduleDeadLetterRecoveryDrain cfg
              hasPending
        | .declined | .threw => s.recordWriteFailed
      else s.recordWriteFailed

def packageSettled (s : State) (c : CaptureId) (outcome : SendOutcome) (hasPending : Bool) :
    State :=
  let s := (s.settle (.package c)).afterSend cfg hasPending outcome
  { s with packageWasSent := Function.update s.packageWasSent c (some (outcome = .sent)) }

/-- The loop of `dispatchPayloadBlobs`, and whether it ends with an error. -/
def dispatchBlobs (c : CaptureId) : State → Nat → List BlobAssembly → State × Bool
  | s, _, [] => (s, false)
  | s, index, .unresolved :: blobs => dispatchBlobs c s (index + 1) blobs
  | s, index, .envelope serializedBytes :: blobs =>
      dispatchBlobs c (s.dispatchTransport cfg (.payloadBlob c index) serializedBytes)
        (index + 1) blobs
  | s, _, .failed :: _ => (s, true)

/-- An error of the loop rejects the promise; the blobs dispatched before it stay on their way. -/
def dispatchPayloadBlobs (s : State) (c : CaptureId) (blobs : List BlobAssembly) : State :=
  let (s, failed) := dispatchBlobs cfg c s 0 blobs
  if failed then s.settle (.payloadBlobs c)
  else { s with awaitsBlobs := Function.update s.awaitsBlobs c true }

/-- No blob of the capture is on its way. -/
def blobsSettled (s : State) (c : CaptureId) : Bool :=
  s.pendingTransportDispatches.all fun dispatch =>
    match dispatch with
    | .payloadBlob capture _ => capture ≠ c
    | _ => true

def recoverySettled (s : State) (drain : Nat) (recovered : Bool) : State :=
  let s := s.settle (.deadLetterRecovery drain)
  { s with
    deadLetterRecoveryDrain :=
      if s.deadLetterRecoveryDrain = some drain then none else s.deadLetterRecoveryDrain
    transportFailedSinceLastSuccess := !recovered && s.transportFailedSinceLastSuccess }

def dispatchBuffered : State → List (CaptureId × Nat) → State
  | s, [] => s
  | s, (c, serializedBytes) :: pending =>
      dispatchBuffered (s.dispatchPackage cfg c serializedBytes) pending

/-- The promise that `flush` keeps of a buffered delivery. -/
def bufferedDispatch (c : CaptureId) : Dispatch :=
  if cfg.payloadSpool then .payloadBlobs c else .package c

/-- The second half of `flush`: the state after it took the buffer, and what it waits for. -/
def takeBuffered (s : State) : State × FlushPhase :=
  if s.pendingBufferedTransportPayloads = [] then (s, .resolved)
  else
    let pending := s.pendingBufferedTransportPayloads
    (dispatchBuffered cfg { s with pendingBufferedTransportPayloads := [] } pending,
      .buffered (pending.map fun delivery => bufferedDispatch cfg delivery.1))

def flush (s : State) : State :=
  if s.pendingTransportDispatches = [] then
    let (t, phase) := s.takeBuffered cfg
    { t with flushes := t.flushes ++ [{ captured := s.captured, phase }] }
  else
    { s with
      flushes := s.flushes ++
        [{ captured := s.captured, phase := .snapshot s.pendingTransportDispatches }] }

/-- `Promise.allSettled` of the dispatches has settled. -/
def allSettled (s : State) (dispatches : List Dispatch) : Bool :=
  dispatches.all (· ∉ s.pendingTransportDispatches)

def setPhase (s : State) (flush : Nat) (phase : FlushPhase) : State :=
  { s with flushes := s.flushes.modify flush ({ · with phase }) }

/-- What `getDiagnostics` returns, and the state after it has reset the counters. -/
def getDiagnostics (s : State) : CaptureDeliveryDiagnostics × State :=
  (s.deliveryDiagnostics, { s with deliveryDiagnostics := .zero })

def step (s : State) : Action → Option State
  | .capture call => some (s.capture cfg call)
  | .assembled c reply =>
      if .packageAssembly c ∈ s.pendingTransportDispatches then some (s.assembled cfg c reply)
      else none
  | .packageSettled c outcome hasPending =>
      if .package c ∈ s.pendingTransportDispatches then
        some (s.packageSettled cfg c outcome hasPending)
      else none
  | .dispatchPayloadBlobs c blobs =>
      if .payloadBlobs c ∈ s.pendingTransportDispatches ∧ ¬ s.awaitsBlobs c then
        match s.packageWasSent c with
        | none => none
        | some false => some (s.settle (.payloadBlobs c))
        | some true => some (s.dispatchPayloadBlobs cfg c blobs)
      else none
  | .blobSettled c index outcome hasPending =>
      if .payloadBlob c index ∈ s.pendingTransportDispatches then
        some ((s.settle (.payloadBlob c index)).afterSend cfg hasPending outcome)
      else none
  | .payloadBlobsSettled c =>
      if .payloadBlobs c ∈ s.pendingTransportDispatches ∧ s.awaitsBlobs c ∧ s.blobsSettled c then
        some (s.settle (.payloadBlobs c))
      else none
  | .recoverySettled drain recovered =>
      if .deadLetterRecovery drain ∈ s.pendingTransportDispatches then
        some (s.recoverySettled drain recovered)
      else none
  | .flush => some (s.flush cfg)
  | .snapshotSettled flush =>
      match s.flushes[flush]? with
      | some { captured := _, phase := .snapshot dispatches } =>
          if s.allSettled dispatches then
            let (t, phase) := s.takeBuffered cfg
            some (t.setPhase flush phase)
          else none
      | _ => none
  | .bufferedSettled flush =>
      match s.flushes[flush]? with
      | some { captured := _, phase := .buffered dispatches } =>
          if s.allSettled dispatches then some (s.setPhase flush .resolved) else none
      | _ => none
  | .getDiagnostics =>
      let (snapshot, t) := s.getDiagnostics
      some { t with reported := t.reported.add snapshot }

end State

/-- A new capturer. -/
def initial : State where
  captured := 0
  pendingTransportDispatches := []
  pendingBufferedTransportPayloads := []
  packageWasSent _ := none
  awaitsBlobs _ := false
  transportFailedSinceLastSuccess := false
  deadLetterRecoveryDrain := none
  drains := 0
  flushes := []
  deliveryDiagnostics := .zero
  healthMetrics :=
    { captured := 0, droppedCaptureFailed := 0, droppedDlqWriteFailed := 0, transportFailures := 0 }
  reported := .zero
  fates := []

def system : Transition.System State Action where
  init s := s = initial
  step s a := s.step cfg a

end ErrorCore.ErrorCapturer
