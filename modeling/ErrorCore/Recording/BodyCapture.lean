import ErrorCore.Buffer.IOEventBuffer
import ErrorCore.Pii.ContentType

/-!
# Body capture

`src/recording/body-capture.ts`. A capture accumulates the chunks of one body of
one slot. The accumulators are objects that are pooled and used again, possibly
while a handler of their former owner still holds them, so they live in a heap
of their own and slots, handlers and the pool hold references.

The scrubber and the payload spool are interfaces of the source and parameters
here, as are the decoding of buffers and SHA-256. What the spool answers may
differ from call to call and comes with each call.
-/

namespace ErrorCore

inductive BodyKey
  | requestBody
  | responseBody
  deriving DecidableEq, Repr

namespace IOEventSlot

/-- `slot[bodyKey]`. -/
def body (slot : IOEventSlot) : BodyKey → Option Body
  | .requestBody => slot.requestBody
  | .responseBody => slot.responseBody

def setBody (slot : IOEventSlot) (key : BodyKey) (body : Option Body) : IOEventSlot :=
  match key with
  | .requestBody => { slot with requestBody := body }
  | .responseBody => { slot with responseBody := body }

/-- `slot[digestKey] = digest`. -/
def setDigest (slot : IOEventSlot) (key : BodyKey) (digest : Option Text) : IOEventSlot :=
  match key with
  | .requestBody => { slot with requestBodyDigest := digest }
  | .responseBody => { slot with responseBodyDigest := digest }

/-- `slot[refKey] = ref`. -/
def setPayloadRef (slot : IOEventSlot) (key : BodyKey) (ref : PayloadBlobRef) : IOEventSlot :=
  match key with
  | .requestBody => { slot with requestPayloadRef := some ref }
  | .responseBody => { slot with responsePayloadRef := some ref }

/-- `slot[truncatedKey] = truncated`. -/
def setTruncated (slot : IOEventSlot) (key : BodyKey) (truncated : Bool) : IOEventSlot :=
  match key with
  | .requestBody => { slot with requestBodyTruncated := truncated }
  | .responseBody => { slot with responseBodyTruncated := truncated }

/-- `slot[originalSizeKey] = size`. -/
def setOriginalSize (slot : IOEventSlot) (key : BodyKey) (size : Option Nat) : IOEventSlot :=
  match key with
  | .requestBody => { slot with requestBodyOriginalSize := size }
  | .responseBody => { slot with responseBodyOriginalSize := size }

/-- `slot.estimatedBytes = estimateBytes(slot)`. -/
def withEstimatedBytes (slot : IOEventSlot) : IOEventSlot :=
  { slot with estimatedBytes := estimateBytes slot.requestBody slot.responseBody }

end IOEventSlot

/-- A `createHash('sha256')` object: what it was fed, and whether `digest` was called on it. -/
structure Sha256Hash where
  data : List UInt8
  closed : Bool
  deriving DecidableEq, Repr

structure AccumulatorState where
  chunks : List (List UInt8)
  totalBytesSeen : Nat
  capturedBytes : Nat
  truncated : Bool
  finalized : Bool
  contentTypeChecked : Bool
  digest : Option Sha256Hash
  digestHex : Option Text
  headers : Option Headers
  deriving DecidableEq, Repr

/-- A reference to an `AccumulatorState` object. -/
abbrev StateId := Nat

structure SlotCaptureState where
  request : Option StateId
  response : Option StateId
  deriving DecidableEq, Repr

namespace SlotCaptureState

def get (captures : SlotCaptureState) : BodyKey → Option StateId
  | .requestBody => captures.request
  | .responseBody => captures.response

def set (captures : SlotCaptureState) (key : BodyKey) (state : Option StateId) :
    SlotCaptureState :=
  match key with
  | .requestBody => { captures with request := state }
  | .responseBody => { captures with response := state }

end SlotCaptureState

structure BodyCaptureConfig where
  maxPayloadSize : Nat
  captureDigest : Bool
  bodyCaptureContentTypes : List Text
  /-- `payloadSpool.getMaxCaptureBytes()`, where there is a spool. -/
  maxCaptureBytes : Option Nat
  deriving DecidableEq, Repr

/-- What `materializeBody` hands to `payloadSpool.store`. -/
structure PayloadSpoolStoreInput where
  requestId : Option Text
  mimeType : Option Text
  bytes : List UInt8
  originalSize : Nat
  sha256 : Text
  complete : Bool
  deriving DecidableEq, Repr

structure PayloadSpoolStoreResult where
  ref : PayloadBlobRef
  preview : List UInt8
  deriving DecidableEq, Repr

/-- The functions `BodyCapture` calls and does not define. -/
structure BodyCaptureDeps where
  scrubBodyBuffer : List UInt8 → Option Headers → List UInt8
  scrubKeyValueAssignments : Text → Text
  toString : BufferEncoding → List UInt8 → Text
  ofString : BufferEncoding → Text → List UInt8
  sha256 : List UInt8 → Text

/-- `headers?.['content-type']`. -/
def contentTypeOf (headers : Option Headers) : Option Text :=
  headers.bind fun headers => headers.lookup ("content-type" : Text)

structure CaptureState extends BufferState where
  config : BodyCaptureConfig
  states : StateId → AccumulatorState
  nextState : StateId
  captures : SlotId → SlotCaptureState
  statePool : List StateId

namespace BodyCaptureConfig

variable (config : BodyCaptureConfig)

def shouldHashBodies : Bool := config.captureDigest || config.maxCaptureBytes.isSome

def getCaptureByteLimit : Nat := config.maxCaptureBytes.getD config.maxPayloadSize

def shouldSpoolPayload (state : AccumulatorState) : Bool :=
  config.maxCaptureBytes.isSome && config.maxPayloadSize < state.totalBytesSeen

/-- On a header that is a string or missing. -/
def shouldCaptureContentTypeHeader (contentType : Option Text) : Bool :=
  if config.bodyCaptureContentTypes.isEmpty then true
  else
    let normalized := mediaType (contentType.getD [])
    if normalized.isEmpty then false
    else config.bodyCaptureContentTypes.any fun candidate => normalized.startsWith candidate

def shouldCaptureHeaders (headers : Option Headers) : Bool :=
  config.shouldCaptureContentTypeHeader (contentTypeOf headers)

end BodyCaptureConfig

def scrubPlainTextKeyValues (deps : BodyCaptureDeps) (buffer : List UInt8)
    (contentType : Option Text) : List UInt8 :=
  if isPlainTextContentType contentType then
    let encoding := getBodyEncoding contentType
    let decoded := deps.toString encoding buffer
    let scrubbed := deps.scrubKeyValueAssignments decoded
    if scrubbed = decoded then buffer else deps.ofString encoding scrubbed
  else
    buffer

/-- Textual content is decoded, other content stays a buffer. -/
def decodeBody (deps : BodyCaptureDeps) (contentType : Option Text) (bytes : List UInt8) : Body :=
  if isTextualContentType contentType then
    .string (deps.toString (getBodyEncoding contentType) bytes)
  else
    .buffer bytes

namespace AccumulatorState

/-- A new state, or a pooled one after `createState` has reset it. -/
def fresh (config : BodyCaptureConfig) (headers : Option Headers) : AccumulatorState where
  chunks := []
  totalBytesSeen := 0
  capturedBytes := 0
  truncated := false
  finalized := false
  contentTypeChecked := false
  digest := if config.shouldHashBodies then some { data := [], closed := false } else none
  digestHex := none
  headers := headers

/-- A state as `releaseState` leaves it. -/
def released : AccumulatorState where
  chunks := []
  totalBytesSeen := 0
  capturedBytes := 0
  truncated := false
  finalized := false
  contentTypeChecked := false
  digest := none
  digestHex := none
  headers := none

/-- The digest is due: there is a hash, no digest yet, and something was captured. -/
def digestDue (state : AccumulatorState) : Bool :=
  state.digest.isSome && state.digestHex.isNone && 0 < state.capturedBytes

/-- Take the digest that is due; only a finalized state gives its hash up for it. -/
def takeDigest (deps : BodyCaptureDeps) (state : AccumulatorState) : AccumulatorState :=
  if state.digestDue then
    { state with
      digestHex := state.digest.map fun digest => deps.sha256 digest.data
      digest := state.digest.map fun digest =>
        { digest with closed := digest.closed || state.finalized } }
  else
    state

end AccumulatorState

namespace CaptureState

variable (deps : BodyCaptureDeps) (hrtime : Nat → Int)

def maxStatePoolSize : Nat := 200

def writeSlot (s : CaptureState) (id : SlotId) (slot : IOEventSlot) : CaptureState :=
  { s with heap := Function.update s.heap id slot }

def writeState (s : CaptureState) (id : StateId) (state : AccumulatorState) : CaptureState :=
  { s with states := Function.update s.states id state }

/-- `getState(slot)[bodyType] = state`, or its deletion. -/
def setCapture (s : CaptureState) (slot : SlotId) (key : BodyKey) (state : Option StateId) :
    CaptureState :=
  { s with captures := Function.update s.captures slot ((s.captures slot).set key state) }

/-- `onBytesChanged`: every recorder passes the slot on. -/
def onBytesChanged (s : CaptureState) (slot : SlotId) (oldBytes newBytes : Nat) : CaptureState :=
  { s with buffer := s.buffer.updatePayloadBytes hrtime s.heap oldBytes newBytes (some slot) }

/-- The state `createState` returns and what it leaves. -/
def createState (s : CaptureState) (headers : Option Headers) : StateId × CaptureState :=
  match s.statePool with
  | id :: statePool =>
      (id, { s with statePool }.writeState id (.fresh s.config headers))
  | [] =>
      (s.nextState,
        { s with nextState := s.nextState + 1 }.writeState s.nextState (.fresh s.config headers))

/-- `createState` and `setState`, as at the start of each capture. -/
def beginCapture (s : CaptureState) (slot : SlotId) (key : BodyKey) (headers : Option Headers) :
    CaptureState :=
  let (state, s) := s.createState headers
  s.setCapture slot key (some state)

def releaseState (s : CaptureState) (id : StateId) : CaptureState :=
  let s := s.writeState id .released
  if s.statePool.length < maxStatePoolSize then { s with statePool := id :: s.statePool } else s

/-- `delete this.getState(slot)[bodyType]` and `releaseState`. -/
def discardCapture (s : CaptureState) (slot : SlotId) (key : BodyKey) (state : StateId) :
    CaptureState :=
  (s.setCapture slot key none).releaseState state

/-- A chunk that `toBufferView` made a buffer of. A hash whose digest was taken throws on
`update`, before anything changes. -/
def captureChunk (s : CaptureState) (id : StateId) (slot : SlotId) (key : BodyKey)
    (buffer : List UInt8) : CaptureState :=
  let state := s.states id
  if state.digest.any (·.closed) then s
  else
    let state :=
      { state with
        digest := state.digest.map fun digest => { digest with data := digest.data ++ buffer }
        totalBytesSeen := state.totalBytesSeen + buffer.length }
    let sized := (s.heap slot).setOriginalSize key (some state.totalBytesSeen)
    if state.truncated then
      (s.writeState id state).writeSlot slot sized
    else
      let limit := s.config.getCaptureByteLimit
      if limit ≤ state.capturedBytes then
        (s.writeState id { state with truncated := true }).writeSlot slot
          (sized.setTruncated key true)
      else
        let remaining := limit - state.capturedBytes
        let captured := buffer.take remaining
        let state :=
          { state with
            chunks := state.chunks ++ [captured]
            capturedBytes := state.capturedBytes + captured.length }
        if buffer.length ≤ remaining then
          s.writeState id state
        else
          (s.writeState id { state with truncated := true }).writeSlot slot
            (sized.setTruncated key true)

def recordMultipartMarker (s : CaptureState) (id : SlotId) (key : BodyKey) : CaptureState :=
  let oldBytes := (s.heap id).estimatedBytes
  let slot := (((s.heap id).setBody key (some (.string MULTIPART_REDACTED))).setDigest key
    none).setOriginalSize key none |>.withEstimatedBytes
  (s.writeSlot id slot).onBytesChanged hrtime id oldBytes slot.estimatedBytes

/-- The slot as `finalizeCapture` leaves it. -/
def finalizedSlot (s : CaptureState) (slot : IOEventSlot) (key : BodyKey)
    (state : AccumulatorState) : IOEventSlot :=
  { (slot.setBody key none).setDigest key state.digestHex with
    estimatedBytes := slot.estimatedBytes + min state.capturedBytes s.config.maxPayloadSize }

def finalizeCapture (s : CaptureState) (id : SlotId) (seq : Nat) (key : BodyKey)
    (stateId : StateId) (headers : Option Headers) : CaptureState :=
  if (s.heap id).seq ≠ seq then
    s.discardCapture id key stateId
  else
    let oldBytes := (s.heap id).estimatedBytes
    let state := { s.states stateId with finalized := true, headers }.takeDigest deps
    let slot := s.finalizedSlot (s.heap id) key state
    let s := ((s.writeState stateId state).writeSlot id slot).onBytesChanged hrtime id oldBytes
      slot.estimatedBytes
    if state.capturedBytes = 0 ∧ ¬ state.truncated then s.discardCapture id key stateId else s

/-- The branch of `materializeBody` for content that is not to be captured. -/
def rejectedSlot (slot : IOEventSlot) (key : BodyKey) (state : AccumulatorState) : IOEventSlot :=
  let estimatedBytes :=
    if 0 < state.capturedBytes then
      max (estimateBytes slot.requestBody slot.responseBody)
        (slot.estimatedBytes - state.capturedBytes)
    else slot.estimatedBytes
  { slot with estimatedBytes }.setDigest key none

/-- The branch of `materializeBody` that stores the body in the spool. -/
def spooledSlot (slot : IOEventSlot) (key : BodyKey) (state : AccumulatorState)
    (contentType : Option Text) (digest : Text) (result : PayloadSpoolStoreResult) :
    IOEventSlot :=
  let slot := (slot.setPayloadRef key result.ref).setBody key
    (some (decodeBody deps contentType result.preview))
  let slot := (slot.setDigest key (some digest)).setTruncated key result.ref.previewTruncated
  (slot.setOriginalSize key (some state.totalBytesSeen)).withEstimatedBytes

/-- The branch of `materializeBody` that keeps the whole body in the slot. -/
def inlineSlot (slot : IOEventSlot) (key : BodyKey) (state : AccumulatorState)
    (contentType : Option Text) (scrubbed : List UInt8) : IOEventSlot :=
  (slot.setBody key (some (decodeBody deps contentType scrubbed))).setDigest key state.digestHex

/-- The captured bytes, scrubbed by the headers they came with. -/
def scrubbedBody (state : AccumulatorState) (headers : Option Headers) : List UInt8 :=
  scrubPlainTextKeyValues deps (deps.scrubBodyBuffer state.chunks.flatten headers)
    (contentTypeOf headers)

/-- What is stored in the spool, with the digest the slot will carry. -/
def storeInput (slot : IOEventSlot) (state : AccumulatorState) (headers : Option Headers) :
    PayloadSpoolStoreInput :=
  let scrubbed := scrubbedBody deps state headers
  { requestId := slot.requestId
    mimeType := contentTypeOf headers
    bytes := scrubbed
    originalSize := state.totalBytesSeen
    sha256 := state.digestHex.getD (deps.sha256 scrubbed)
    complete := state.totalBytesSeen ≤ state.capturedBytes }

/-- The slot after `materializeBody` found `state`, whose digest is taken by then. -/
def materializedSlot (s : CaptureState) (slot : IOEventSlot) (key : BodyKey)
    (state : AccumulatorState) (headers : Option Headers)
    (store : PayloadSpoolStoreInput → PayloadSpoolStoreResult) : IOEventSlot :=
  if ¬ s.config.shouldCaptureHeaders headers then rejectedSlot slot key state
  else if s.config.shouldSpoolPayload state then
    let input := storeInput deps slot state headers
    spooledSlot deps slot key state (contentTypeOf headers) input.sha256 (store input)
  else
    inlineSlot deps slot key state (contentTypeOf headers) (scrubbedBody deps state headers)

/-- Each of `materializeSlotBodies`, `captureUndiciResponseStream` and
`captureUndiciResponseBuffer` ends in one or two of these calls. -/
def materializeBody (s : CaptureState) (id : SlotId) (key : BodyKey) (headers : Option Headers)
    (store : PayloadSpoolStoreInput → PayloadSpoolStoreResult) : CaptureState :=
  if ((s.heap id).body key).isSome then s
  else
    match (s.captures id).get key with
    | none => s
    | some stateId =>
        let state := (s.states stateId).takeDigest deps
        let slot := s.materializedSlot deps (s.heap id) key state (headers.or state.headers) store
        (s.writeSlot id slot).discardCapture id key stateId

def releaseCapture (s : CaptureState) : Option StateId → CaptureState
  | none => s
  | some state => s.releaseState state

def releaseSlotBodies (s : CaptureState) (id : SlotId) : CaptureState :=
  let captures := s.captures id
  let s := (s.releaseCapture captures.request).releaseCapture captures.response
  { s with captures := Function.update s.captures id { request := none, response := none } }

/-! ## The buffer operations, which recorders call with `releaseSlotBodies` -/

/-- The loop of `compactCompletedRequest`. -/
def compactFrom (requestId : Text) : CaptureState → List Nat → CaptureState
  | s, [] => s
  | s, cursor :: cursors =>
      match s.completedAt requestId cursor with
      | none => compactFrom requestId s cursors
      | some id =>
          let s := s.releaseSlotBodies id
          compactFrom requestId { s with toBufferState := s.compactStored id } cursors

def compactCompletedRequest (s : CaptureState) (requestId : Text) : CaptureState :=
  s.compactFrom requestId s.buffer.cursors

/-- The loop of `releaseCompletedRequest`. -/
def releaseFrom (requestId : Text) : CaptureState → List Nat → CaptureState
  | s, [] => s
  | s, cursor :: cursors =>
      match s.completedAt requestId cursor with
      | none => releaseFrom requestId s cursors
      | some id =>
          let s := s.releaseSlotBodies id
          releaseFrom requestId { s with toBufferState := s.releaseStored hrtime cursor id } cursors

def releaseCompletedRequest (s : CaptureState) (requestId : Text) : CaptureState :=
  let s := { s with buffer := { s.buffer with requestIdIndex := none } }
  s.releaseFrom hrtime requestId s.buffer.cursors

def compactDetachedSlot (s : CaptureState) (id : SlotId) : CaptureState :=
  if (s.heap id).successful then
    let s := s.releaseSlotBodies id
    { s with toBufferState := s.toBufferState.compactDetachedSlot id }
  else
    s

end CaptureState

end ErrorCore
