import ErrorCore.Foundation.InsertionMap
import ErrorCore.Foundation.Transition
import ErrorCore.Recording.BodyCapture

/-!
# Payload spool

`src/spool/payload-spool.ts`. The spool keeps bodies that are too large for their
slots until some time after their request is complete. It counts the bytes it
holds, in total and for each request, and decides by these counts and by the
pressure on the process whether a body is kept or only a preview of it.

The readings of the clock, of the memory and of the transport queue come with
each call. Ratios are compared as quotients of integers.
-/

namespace ErrorCore

inductive PayloadPressureLevel
  | normal
  | degraded
  | critical
  deriving DecidableEq, Repr

inductive PayloadPreviewReason
  | per_blob_cap
  | per_request_cap
  | global_cap
  | pressure
  | incomplete
  deriving DecidableEq, Repr

def PayloadPreviewReason.text : PayloadPreviewReason → Text
  | .per_blob_cap => ("per_blob_cap" : Text)
  | .per_request_cap => ("per_request_cap" : Text)
  | .global_cap => ("global_cap" : Text)
  | .pressure => ("pressure" : Text)
  | .incomplete => ("incomplete" : Text)

structure PayloadSpoolOptions where
  globalMaxBytes : Nat
  perRequestMaxBytes : Nat
  perBlobMaxBytes : Nat
  previewBytes : Nat
  completedTtlMs : Nat
  deriving DecidableEq, Repr

inductive PayloadSpoolEntryState
  | active
  | sweepable
  deriving DecidableEq, Repr

structure PayloadSpoolEntry where
  ref : PayloadBlobRef
  bytes : List UInt8
  createdAtMs : Int
  completedAtMs : Option Int
  state : PayloadSpoolEntryState
  deriving DecidableEq, Repr

/-- What `memoryUsage` and `getTransportQueueDepth` return during a call. -/
structure PressureReading where
  heapUsed : Nat
  heapTotal : Nat
  transportQueueDepth : Nat
  deriving DecidableEq, Repr

inductive PayloadSpoolWarning
  | degraded
  | preview (reason : PayloadPreviewReason) (requestId : Option Text) (originalSize : Nat)
  deriving DecidableEq, Repr

namespace PayloadSpoolWarning

def code : PayloadSpoolWarning → Text
  | degraded | preview .pressure _ _ => ("EC_PAYLOAD_SPOOL_PRESSURE" : Text)
  | preview _ _ _ => ("EC_PAYLOAD_SPOOL_PREVIEW" : Text)

def message : PayloadSpoolWarning → Text
  | degraded =>
      ("Payload spool entered degraded pressure; reducing full capture budget." : Text)
  | preview reason _ _ =>
      ("Payload stored as preview only (" : Text) ++ reason.text ++ (")." : Text)

end PayloadSpoolWarning

structure PayloadSpoolStats where
  blobCount : Nat
  usedBytes : Int
  globalMaxBytes : Nat
  previewOnlyCount : Nat
  pressure : PayloadPressureLevel
  deriving DecidableEq, Repr

/-- A request without a counter reads as zero, as in the source. -/
structure PayloadSpool where
  entries : List (Text × PayloadSpoolEntry)
  requestBytes : Text → Nat
  usedBytes : Int
  nextBlobId : Nat
  previewOnlyCount : Nat

/-- What a call of `store` returns and the warnings it emits. -/
structure PayloadSpoolStoreOutcome where
  spool : PayloadSpool
  result : PayloadSpoolStoreResult
  warnings : List PayloadSpoolWarning

namespace PayloadSpool

def DEGRADED_TRANSPORT_QUEUE_DEPTH : Nat := 500

def DEGRADED_PER_REQUEST_BYTES : Nat := 512 * 1024

def requestKeyOf (requestId : Option Text) : Text := requestId.getD ("__ambient__" : Text)

def blobName (n : Nat) : Text := ("blob_" : Text) ++ Nat.toDigits 10 n

def new : PayloadSpool where
  entries := []
  requestBytes _ := 0
  usedBytes := 0
  nextBlobId := 1
  previewOnlyCount := 0

variable (options : PayloadSpoolOptions) (s : PayloadSpool)

/-- `usageRatio >= percent / 100`, where a spool without capacity is full. -/
def usageReaches (percent : Nat) : Bool :=
  if options.globalMaxBytes ≤ 0 then percent ≤ 100
  else (percent * options.globalMaxBytes : Int) ≤ 100 * s.usedBytes

/-- `heapRatio >= percent / 100`, where the ratio is zero without a heap size. -/
def heapReaches (reading : PressureReading) (percent : Nat) : Bool :=
  if 0 < reading.heapTotal then percent * reading.heapTotal ≤ 100 * reading.heapUsed
  else percent = 0

def getPressureLevel (reading : PressureReading) : PayloadPressureLevel :=
  if heapReaches reading 85 || s.usageReaches options 95 then .critical
  else if heapReaches reading 70 || s.usageReaches options 80 ||
      DEGRADED_TRANSPORT_QUEUE_DEPTH ≤ reading.transportQueueDepth then .degraded
  else .normal

def getMaxCaptureBytes : Nat := options.perBlobMaxBytes

def get (blobId : Text) : Option PayloadSpoolEntry := InsertionMap.get? s.entries blobId

def getStats (reading : PressureReading) : PayloadSpoolStats where
  blobCount := s.entries.length
  usedBytes := s.usedBytes
  globalMaxBytes := options.globalMaxBytes
  previewOnlyCount := s.previewOnlyCount
  pressure := s.getPressureLevel options reading

/-! ## Sweeping -/

def deleteEntry (blobId : Text) (entry : PayloadSpoolEntry) : PayloadSpool :=
  let requestKey := requestKeyOf entry.ref.requestId
  { s with
    entries := InsertionMap.delete s.entries blobId
    usedBytes := s.usedBytes - entry.bytes.length
    requestBytes :=
      Function.update s.requestBytes requestKey
        (s.requestBytes requestKey - entry.bytes.length) }

/-- The condition on which `sweep` deletes an entry. -/
def expired (now : Int) (entry : PayloadSpoolEntry) : Bool :=
  entry.state = .sweepable &&
    entry.completedAtMs.any fun completedAtMs => options.completedTtlMs < now - completedAtMs

/-- The loop of `sweep` over the entries still to come. -/
def sweepEntries (now : Int) : List (Text × PayloadSpoolEntry) → PayloadSpool → PayloadSpool
  | [], s => s
  | (blobId, entry) :: rest, s =>
      sweepEntries now rest (if expired options now entry then s.deleteEntry blobId entry else s)

def sweep (now : Int) : PayloadSpool := sweepEntries options now s.entries s

/-- An entry after `markRequestComplete`. -/
def completedEntry (requestId : Text) (completedAtMs : Int) (entry : PayloadSpoolEntry) :
    PayloadSpoolEntry :=
  if entry.ref.requestId ≠ some requestId then entry
  else { entry with state := .sweepable, completedAtMs := some completedAtMs }

def markRequestComplete (requestId : Text) (completedAtMs : Int) : PayloadSpool :=
  { s with
    entries := s.entries.map fun (blobId, entry) =>
      (blobId, completedEntry requestId completedAtMs entry) }

/-! ## Storing -/

def effectivePerRequestCap (pressure : PayloadPressureLevel) : Nat :=
  if pressure = .degraded then min options.perRequestMaxBytes DEGRADED_PER_REQUEST_BYTES
  else options.perRequestMaxBytes

/-- The checks of `store` for a body of `size` bytes of the request `requestKey`, which may hold
`perRequestCap` bytes. -/
def capReason (requestKey : Text) (perRequestCap size : Nat) (complete : Bool) :
    Option PayloadPreviewReason :=
  if options.perBlobMaxBytes < size then some .per_blob_cap
  else if complete = false then some .incomplete
  else if perRequestCap < s.requestBytes requestKey + size then some .per_request_cap
  else if options.globalMaxBytes < s.usedBytes + size then some .global_cap
  else none

/-- Why only a preview is kept; `none` when the whole body is. -/
def previewReason (reading : PressureReading) (input : PayloadSpoolStoreInput) :
    Option PayloadPreviewReason :=
  let pressure := s.getPressureLevel options reading
  if pressure = .critical then some .pressure
  else
    s.capReason options (requestKeyOf input.requestId) (effectivePerRequestCap options pressure)
      input.originalSize input.complete

def buildRef (input : PayloadSpoolStoreInput) (blobId : Text) (storage : PayloadStorageMode)
    (previewLength : Nat) (reason : Option PayloadPreviewReason) : PayloadBlobRef where
  blobId := blobId
  storage := storage
  requestId := input.requestId
  lineageId := input.requestId
  mimeType := input.mimeType
  size := input.originalSize
  capturedSize := if storage = .spool then input.bytes.length else previewLength
  sha256 := input.sha256
  previewBytes := previewLength
  previewTruncated := previewLength < input.originalSize
  reason := reason.map (·.text)

/-- The spool after an entry for the whole body was added to it. -/
def keep (input : PayloadSpoolStoreInput) (blobId : Text) (ref : PayloadBlobRef)
    (createdAtMs : Int) : PayloadSpool :=
  let requestKey := requestKeyOf input.requestId
  { s with
    entries :=
      InsertionMap.set s.entries blobId
        { ref, bytes := input.bytes, createdAtMs, completedAtMs := none, state := .active }
    usedBytes := s.usedBytes + input.bytes.length
    requestBytes :=
      Function.update s.requestBytes requestKey
        (s.requestBytes requestKey + input.bytes.length) }

/-- `store` after its sweep. -/
def storeSwept (createdAtMs : Int) (reading : PressureReading) (input : PayloadSpoolStoreInput) :
    PayloadSpoolStoreOutcome :=
  let preview := input.bytes.take options.previewBytes
  let blobId := blobName s.nextBlobId
  let numbered := { s with nextBlobId := s.nextBlobId + 1 }
  let warnings :=
    if s.getPressureLevel options reading = .degraded then [PayloadSpoolWarning.degraded] else []
  match s.previewReason options reading input with
  | some reason =>
      { spool := { numbered with previewOnlyCount := numbered.previewOnlyCount + 1 }
        result :=
          { ref := buildRef input blobId .preview preview.length (some reason)
            preview := preview }
        warnings := warnings ++ [.preview reason input.requestId input.originalSize] }
  | none =>
      let ref := buildRef input blobId .spool preview.length none
      { spool := numbered.keep input blobId ref createdAtMs
        result := { ref, preview }
        warnings := warnings }

/-- `store`, which reads the clock for its sweep and again for the entry. -/
def store (sweptAt createdAtMs : Int) (reading : PressureReading)
    (input : PayloadSpoolStoreInput) : PayloadSpoolStoreOutcome :=
  (s.sweep options sweptAt).storeSwept options createdAtMs reading input

/-! ## Runs -/

inductive Action
  | store (sweptAt createdAtMs : Int) (reading : PressureReading)
      (input : PayloadSpoolStoreInput)
  | markRequestComplete (requestId : Text) (now : Int)
  | sweep (now : Int)
  deriving DecidableEq, Repr

def step : Action → PayloadSpool
  | .store sweptAt createdAtMs reading input =>
      (s.store options sweptAt createdAtMs reading input).spool
  | .markRequestComplete requestId now => s.markRequestComplete requestId now
  | .sweep now => s.sweep options now

/-- A spool from its construction on. -/
def system : Transition.System PayloadSpool Action where
  init s := s = new
  step s a := some (s.step options a)

end PayloadSpool

end ErrorCore
