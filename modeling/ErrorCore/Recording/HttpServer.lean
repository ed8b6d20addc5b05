import ErrorCore.Foundation.ObjectPool
import ErrorCore.Recording.ByteAccounting

/-!
# Inbound HTTP requests

`src/recording/http-server.ts` over `src/recording/body-capture.ts`. A request
and its response are one exchange. What the source hangs on the two objects
under symbols is a field of the exchange: the two capture handlers, whose
wrapped methods the application calls, and the finalizer of the response. The
finalizers are pooled like the accumulators, and a handler keeps the callback of
the finalizer it was made with.

What Node and the application decide comes with each action: the chunk that
`toBufferView` made of an argument, the status code and the content type that the
response has by then, and how far the response got.

The last four fields of the state are not in the source. `writers` are the
captures that put chunks into an accumulator since it was made or reset,
`poolFilled` says that the pool of accumulators was full at some time, after
which some are left to the garbage collector, `thrown` are the exchanges whose
wrapped method threw, and `crossed` those whose callback ran on a finalizer that
worked for another request by then.
-/

namespace ErrorCore

/-- A reference to a `RequestFinalizer` object. -/
abbrev FinalizerId := Nat

/-- A request with its response. -/
abbrev ExchangeId := Nat

/-- An initialized finalizer; `reset` leaves none of the fields. -/
structure RequestFinalizer where
  slot : SlotId
  requestId : Text
  request : ExchangeId
  deriving DecidableEq, Repr

structure InboundRequestCaptureHandler where
  slot : SlotId
  seq : Nat
  state : Option StateId
  attached : Bool
  onBytesChanged : FinalizerId
  deriving DecidableEq, Repr

structure OutboundResponseCaptureHandler where
  slot : SlotId
  seq : Nat
  state : StateId
  onBytesChanged : FinalizerId
  deriving DecidableEq, Repr

structure Exchange where
  /-- `request[INBOUND_REQUEST_CAPTURE]`. -/
  inbound : Option InboundRequestCaptureHandler
  /-- `handleInboundRequestData` listens to the request. -/
  listening : Bool
  /-- `response[OUTBOUND_RESPONSE_CAPTURE]`. -/
  outbound : Option OutboundResponseCaptureHandler
  /-- `response[RESPONSE_FINALIZER]`. -/
  finalizer : Option FinalizerId
  /-- `FINALIZED_REQUESTS.has(request)`. -/
  finalized : Bool
  deriving DecidableEq, Repr

/-- What `finalize` reads of the response. -/
structure ResponseState where
  statusCode : Nat
  responseHeaders : Headers
  /-- `writableFinished` or `writableEnded`. -/
  completed : Bool
  deriving DecidableEq, Repr

/-- One call of a wrapped `write` or `end`. -/
structure ResponseCall where
  statusCode : Nat
  contentType : Option Text
  chunk : Option (List UInt8)
  deriving DecidableEq, Repr

structure RequestStart where
  startTime : Int
  requestId : Text
  target : Text
  requestHeaders : Headers
  deriving DecidableEq, Repr

/-- The event that `handleRequestStart` pushes. -/
def RequestStart.event (start : RequestStart) : PushableIOEvent where
  phase := .active
  startTime := start.startTime
  type := .httpServer
  direction := .inbound
  requestId := some start.requestId
  contextLost := false
  target := start.target
  requestHeaders := some start.requestHeaders
  responseHeaders := none
  requestBody := none
  responseBody := none
  requestBodyDigest := none
  responseBodyDigest := none
  requestPayloadRef := none
  responsePayloadRef := none
  requestBodyTruncated := false
  responseBodyTruncated := false
  requestBodyOriginalSize := none
  responseBodyOriginalSize := none
  error := none
  aborted := false
  dbMeta := none

/-- On a header that is a string or missing. -/
def snapshotContentTypeHeaders (contentType : Option Text) : Option Headers :=
  match contentType with
  | none => none
  | some contentType =>
      if (Text.trim contentType).isEmpty then none else some [("content-type", contentType)]

def shouldCaptureResponseStatus (statusCode : Nat) : Bool := 400 ≤ statusCode

/-- The direction of one slot that a capture belongs to. -/
abbrev Capture := SlotId × BodyKey

structure ServerState extends CaptureState where
  captureRequestBodies : Bool
  captureResponseBodies : Bool
  exchanges : ExchangeId → Option Exchange
  nextExchange : ExchangeId
  finalizers : FinalizerId → Option RequestFinalizer
  nextFinalizer : FinalizerId
  finalizerPool : List FinalizerId
  writers : StateId → List Capture
  poolFilled : Bool
  thrown : List ExchangeId
  crossed : List ExchangeId

namespace ServerState

variable (deps : BodyCaptureDeps) (hrtime : Nat → Int)

inductive Action
  | handleRequestStart (start : RequestStart)
  /-- `request.on('data', …)`. -/
  | requestOnData (exchange : ExchangeId)
  | requestData (exchange : ExchangeId) (chunk : Option (List UInt8))
  | requestEnd (exchange : ExchangeId)
  | responseWrite (exchange : ExchangeId) (call : ResponseCall)
  | responseEnd (exchange : ExchangeId) (call : ResponseCall)
  /-- The event `'finish'` of the response. -/
  | responseFinish (exchange : ExchangeId)
  /-- The event `'close'` of the response. -/
  | responseClose (exchange : ExchangeId) (response : ResponseState)
  /-- The diagnostics channel that reports a finished response. -/
  | handleResponseFinish (exchange : ExchangeId) (response : ResponseState)
  | materializeSlotBodies (slot : SlotId)
      (storeRequest storeResponse : PayloadSpoolStoreInput → PayloadSpoolStoreResult)
  | compactCompletedRequest (requestId : Text)
  | releaseCompletedRequest (requestId : Text)
  | compactDetachedSlot (slot : SlotId)
  /-- Any other recorder. -/
  | push (event : PushableIOEvent)
  | clear
  | applyModeState (captureRequestBodies captureResponseBodies captureDigest : Bool)
      (maxCaptureBytes : Option Nat)
  | tick
  | merge (received : Nat)

section Captures

def isRequestCaptureEnabled (s : ServerState) : Bool :=
  s.captureRequestBodies && 0 < s.config.maxPayloadSize

def isResponseCaptureEnabled (s : ServerState) : Bool :=
  s.captureResponseBodies && 0 < s.config.maxPayloadSize

def writeExchange (s : ServerState) (e : ExchangeId) (exchange : Exchange) : ServerState :=
  { s with exchanges := Function.update s.exchanges e (some exchange) }

/-- The state that the next `createState` returns. -/
def nextCaptured (s : ServerState) : StateId := s.statePool.headD s.nextState

/-- `createState` and `setState`. -/
def capture (s : ServerState) (slot : SlotId) (key : BodyKey) (headers : Option Headers) :
    ServerState :=
  { s with
    toCaptureState := s.beginCapture slot key headers
    writers := Function.update s.writers s.nextCaptured [] }

/-- `captureChunk` on what `toBufferView` returned. -/
def captureChunkInto (s : ServerState) (id : StateId) (slot : SlotId) (key : BodyKey)
    (chunk : Option (List UInt8)) : ServerState :=
  match chunk with
  | none => s
  | some buffer =>
      { s with
        toCaptureState := s.captureChunk id slot key buffer
        writers := Function.update s.writers id ((slot, key) :: s.writers id) }

/-- `captureChunk` throws on a hash whose digest was taken. -/
def chunkThrows (s : ServerState) (id : StateId) (chunk : Option (List UInt8)) : Bool :=
  chunk.isSome && (s.states id).digest.any (·.closed)

/-- `updateInboundPayloadBytes` and `updateOutboundPayloadBytes`; a finalizer that was reset has no
buffer. -/
def onBytesChangedOf (s : ServerState) (e : ExchangeId) (id : FinalizerId)
    (oldBytes newBytes : Nat) : Option ServerState :=
  match s.finalizers id with
  | none => none
  | some finalizer =>
      some { s with
        toCaptureState := s.onBytesChanged hrtime finalizer.slot oldBytes newBytes
        crossed := if finalizer.request = e then s.crossed else e :: s.crossed }

/-- `finalizeCapture` with the callback of a handler of the exchange. -/
def finalizeCaptureOf (s : ServerState) (e : ExchangeId) (slot : SlotId) (seq : Nat)
    (key : BodyKey) (stateId : StateId) (headers : Option Headers) (finalizer : FinalizerId) :
    ServerState :=
  if (s.heap slot).seq ≠ seq then
    { s with toCaptureState := s.discardCapture slot key stateId }
  else
    let oldBytes := (s.heap slot).estimatedBytes
    let state := { s.states stateId with finalized := true, headers }.takeDigest deps
    let finalizedSlot := s.finalizedSlot (s.heap slot) key state
    let s := { s with toCaptureState := (s.writeState stateId state).writeSlot slot finalizedSlot }
    match s.onBytesChangedOf hrtime e finalizer oldBytes finalizedSlot.estimatedBytes with
    | none => { s with thrown := e :: s.thrown }
    | some s =>
        if state.capturedBytes = 0 ∧ ¬ state.truncated then
          { s with toCaptureState := s.discardCapture slot key stateId }
        else
          s

/-- `request.on = handler.originalOn` and the deletion of the handler. -/
def dropInbound (s : ServerState) (e : ExchangeId) (exchange : Exchange) : ServerState :=
  s.writeExchange e { exchange with inbound := none }

/-- `restoreOutboundResponse` and the deletion of the handler. -/
def dropOutbound (s : ServerState) (e : ExchangeId) (exchange : Exchange) : ServerState :=
  s.writeExchange e { exchange with outbound := none }

/-- `releaseInboundRequest`. -/
def releaseInboundRequest (s : ServerState) (e : ExchangeId) : ServerState :=
  match s.exchanges e with
  | none => s
  | some exchange =>
      match exchange.inbound with
      | none => s
      | some handler =>
          let s := s.dropInbound e exchange
          match handler.state with
          | none => s
          | some state =>
              { s with toCaptureState := s.discardCapture handler.slot .requestBody state }

/-- `handleInboundRequestOn` for `'data'`. -/
def handleInboundRequestOn (s : ServerState) (e : ExchangeId) (exchange : Exchange)
    (handler : InboundRequestCaptureHandler) : ServerState :=
  if handler.attached then s
  else
    match handler.state with
    | some _ =>
        s.writeExchange e
          { exchange with inbound := some { handler with attached := true }, listening := true }
    | none =>
        (s.capture handler.slot .requestBody (s.heap handler.slot).requestHeaders).writeExchange e
          { exchange with
            inbound := some { handler with state := some s.nextCaptured, attached := true }
            listening := true }

/-- `shouldTrackAfterTruncation`. -/
def shouldTrackAfterTruncation (s : ServerState) (state : AccumulatorState) : Bool :=
  state.digest.isSome || s.config.maxCaptureBytes.isSome

/-- An error in a listener of the request is none of the wrapped methods'. -/
def handleInboundRequestData (s : ServerState) (e : ExchangeId) (exchange : Exchange)
    (handler : InboundRequestCaptureHandler) (state : StateId) (chunk : Option (List UInt8)) :
    ServerState :=
  if s.chunkThrows state chunk then s
  else
    let s := s.captureChunkInto state handler.slot .requestBody chunk
    if (s.states state).truncated && !s.shouldTrackAfterTruncation (s.states state) then
      s.writeExchange e { exchange with listening := false }
    else
      s

def handleInboundRequestEnd (s : ServerState) (e : ExchangeId) (exchange : Exchange)
    (handler : InboundRequestCaptureHandler) : ServerState :=
  let s := s.dropInbound e exchange
  match handler.state with
  | none => s
  | some state =>
      s.finalizeCaptureOf deps hrtime e handler.slot handler.seq .requestBody state
        (s.heap handler.slot).requestHeaders handler.onBytesChanged

/-- The verdict of `skipOutboundResponseCapture`. -/
def skips (s : ServerState) (handler : OutboundResponseCaptureHandler) (call : ResponseCall) :
    Bool :=
  !shouldCaptureResponseStatus call.statusCode ||
    (!(s.states handler.state).contentTypeChecked &&
      !s.config.shouldCaptureContentTypeHeader call.contentType)

/-- What `skipOutboundResponseCapture` does when it returns `true`. -/
def skipCapture (s : ServerState) (e : ExchangeId) (exchange : Exchange)
    (handler : OutboundResponseCaptureHandler) : ServerState :=
  let s := s.dropOutbound e exchange
  { s with toCaptureState := s.discardCapture handler.slot .responseBody handler.state }

/-- What `skipOutboundResponseCapture` does when it returns `false`. -/
def keepCapture (s : ServerState) (handler : OutboundResponseCaptureHandler)
    (call : ResponseCall) : ServerState :=
  if (s.states handler.state).contentTypeChecked then s
  else
    { s with
      toCaptureState :=
        s.checkContentType handler.state (snapshotContentTypeHeaders call.contentType) }

def handleOutboundResponseWrite (s : ServerState) (e : ExchangeId) (exchange : Exchange)
    (handler : OutboundResponseCaptureHandler) (call : ResponseCall) : ServerState :=
  if s.skips handler call then s.skipCapture e exchange handler
  else
    let s := s.keepCapture handler call
    if s.chunkThrows handler.state call.chunk then { s with thrown := e :: s.thrown }
    else s.captureChunkInto handler.state handler.slot .responseBody call.chunk

def handleOutboundResponseEnd (s : ServerState) (e : ExchangeId) (exchange : Exchange)
    (handler : OutboundResponseCaptureHandler) (call : ResponseCall) : ServerState :=
  if s.skips handler call then s.skipCapture e exchange handler
  else
    let s := s.keepCapture handler call
    if s.chunkThrows handler.state call.chunk then { s with thrown := e :: s.thrown }
    else
      let s := s.captureChunkInto handler.state handler.slot .responseBody call.chunk
      s.finalizeCaptureOf deps hrtime e handler.slot handler.seq .responseBody handler.state
        (s.heap handler.slot).responseHeaders handler.onBytesChanged

/-- `captureInboundRequest`; the finalizer was initialized just before. -/
def captureInboundRequest (s : ServerState) (slot : SlotId) (finalizer : FinalizerId) :
    Option InboundRequestCaptureHandler × ServerState :=
  if ¬ s.isRequestCaptureEnabled then (none, s)
  else if isMultipartContentType (contentTypeOf (s.heap slot).requestHeaders) then
    (none, { s with toCaptureState := s.recordMultipartMarker hrtime slot .requestBody })
  else if ¬ s.config.shouldCaptureHeaders (s.heap slot).requestHeaders then (none, s)
  else
    (some { slot, seq := (s.heap slot).seq, state := none, attached := false
            onBytesChanged := finalizer }, s)

def captureOutboundResponse (s : ServerState) (slot : SlotId) (finalizer : FinalizerId) :
    Option OutboundResponseCaptureHandler × ServerState :=
  if ¬ s.isResponseCaptureEnabled then (none, s)
  else
    (some { slot, seq := (s.heap slot).seq, state := s.nextCaptured, onBytesChanged := finalizer },
      s.capture slot .responseBody none)

end Captures

section Finalizers

/-- The finalizer that the next request gets. -/
def nextFinalizing (s : ServerState) : FinalizerId := s.finalizerPool.headD s.nextFinalizer

/-- `(this.finalizerPool.pop() ?? new RequestFinalizer()).initialize(…)`. -/
def takeFinalizer (s : ServerState) (finalizer : RequestFinalizer) : ServerState :=
  { s with
    finalizers := Function.update s.finalizers s.nextFinalizing (some finalizer)
    nextFinalizer :=
      if s.finalizerPool = [] then s.nextFinalizer + 1 else s.nextFinalizer
    finalizerPool := s.finalizerPool.tail }

def handleRequestStart (s : ServerState) (start : RequestStart) : ServerState :=
  let e := s.nextExchange
  let slot := s.nextSlot
  let finalizer := s.nextFinalizing
  let s := { s with
    toBufferState := s.toBufferState.push hrtime start.event
    nextExchange := s.nextExchange + 1 }
  let s := s.takeFinalizer { slot, requestId := start.requestId, request := e }
  let (inbound, s) := s.captureInboundRequest hrtime slot finalizer
  let (outbound, s) := s.captureOutboundResponse slot finalizer
  s.writeExchange e
    { inbound, listening := false, outbound, finalizer := some finalizer, finalized := false }

/-- What `finalize` records in the slot. -/
def finalizedEvent (slot : IOEventSlot) (aborted : Bool) (response : ResponseState) :
    IOEventSlot :=
  { slot with aborted, responseHeaders := some response.responseHeaders, phase := .done }

/-- `delete this.response[RESPONSE_FINALIZER]`, `reset` and the return to the pool. -/
def poolFinalizer (s : ServerState) (e : ExchangeId) (id : FinalizerId) : ServerState :=
  { s with
    exchanges :=
      Function.update s.exchanges e ((s.exchanges e).map ({ · with finalizer := none }))
    finalizers := Function.update s.finalizers id none
    finalizerPool := id :: s.finalizerPool }

/-- `finalize`, called through the response of the exchange. -/
def finalize (s : ServerState) (e : ExchangeId) (id : FinalizerId) (finalizer : RequestFinalizer)
    (aborted : Bool) (response : ResponseState) : ServerState :=
  let slot := finalizedEvent (s.heap finalizer.slot) aborted response
  let s := { s with toCaptureState := s.writeSlot finalizer.slot slot }
  let s := s.releaseInboundRequest finalizer.request
  let s :=
    if response.statusCode < 500 ∧ (¬ aborted ∨ response.completed) then
      { s with toCaptureState := s.releaseCompletedRequest hrtime finalizer.requestId }
    else s
  s.poolFinalizer e id

/-- `FINALIZED_REQUESTS.add(request)` and `finalize`, unless the request was finalized before or
the response has no finalizer. -/
def finalizeOnce (s : ServerState) (e : ExchangeId) (aborted : Bool) (response : ResponseState) :
    ServerState :=
  match s.exchanges e with
  | none => s
  | some exchange =>
      match exchange.finalizer with
      | none => s
      | some id =>
          match s.finalizers id with
          | none => s
          | some finalizer =>
              if exchange.finalized then s
              else
                (s.writeExchange e { exchange with finalized := true }).finalize hrtime e id
                  finalizer aborted response

/-- `handleResponseClose`. -/
def handleResponseClose (s : ServerState) (e : ExchangeId) (response : ResponseState) :
    ServerState :=
  s.finalizeOnce hrtime e (!response.completed) response

/-- `handleResponseFinish`. -/
def handleResponseFinish (s : ServerState) (e : ExchangeId) (response : ResponseState) :
    ServerState :=
  s.finalizeOnce hrtime e false response

end Finalizers

/-- A capture handler is called if it is still installed. -/
def onInbound (s : ServerState) (e : ExchangeId)
    (call : Exchange → InboundRequestCaptureHandler → ServerState) : ServerState :=
  match s.exchanges e with
  | none => s
  | some exchange =>
      match exchange.inbound with
      | none => s
      | some handler => call exchange handler

def onOutbound (s : ServerState) (e : ExchangeId)
    (call : Exchange → OutboundResponseCaptureHandler → ServerState) : ServerState :=
  match s.exchanges e with
  | none => s
  | some exchange =>
      match exchange.outbound with
      | none => s
      | some handler => call exchange handler

/-- The listener of `'data'`, while it is registered and has an accumulator. -/
def requestData (s : ServerState) (e : ExchangeId) (chunk : Option (List UInt8)) : ServerState :=
  s.onInbound e fun exchange handler =>
    match handler.state with
    | none => s
    | some state =>
        if exchange.listening then s.handleInboundRequestData e exchange handler state chunk else s

/-- The listener of `'end'` is registered together with the one of `'data'`. -/
def requestEnd (s : ServerState) (e : ExchangeId) : ServerState :=
  s.onInbound e fun exchange handler =>
    if handler.attached then s.handleInboundRequestEnd deps hrtime e exchange handler else s

/-- `materializeBody` of one direction, if that is captured at all. -/
def materializeIf (s : ServerState) (enabled : Bool) (slot : SlotId) (key : BodyKey)
    (headers : Option Headers) (store : PayloadSpoolStoreInput → PayloadSpoolStoreResult) :
    ServerState :=
  if enabled then { s with toCaptureState := s.materializeBody deps slot key headers store } else s

def materializeSlotBodies (s : ServerState) (slot : SlotId)
    (storeRequest storeResponse : PayloadSpoolStoreInput → PayloadSpoolStoreResult) :
    ServerState :=
  let s := s.materializeIf deps s.isRequestCaptureEnabled slot .requestBody
    (s.heap slot).requestHeaders storeRequest
  s.materializeIf deps s.isResponseCaptureEnabled slot .responseBody
    (s.heap slot).responseHeaders storeResponse

def act (s : ServerState) : Action → ServerState
  | .handleRequestStart start => s.handleRequestStart hrtime start
  | .requestOnData e => s.onInbound e (s.handleInboundRequestOn e)
  | .requestData e chunk => s.requestData e chunk
  | .requestEnd e => s.requestEnd deps hrtime e
  | .responseWrite e call =>
      s.onOutbound e fun exchange handler =>
        s.handleOutboundResponseWrite e exchange handler call
  | .responseEnd e call =>
      s.onOutbound e fun exchange handler =>
        s.handleOutboundResponseEnd deps hrtime e exchange handler call
  | .responseFinish e => s.onOutbound e fun exchange _ => s.dropOutbound e exchange
  | .responseClose e response => s.handleResponseClose hrtime e response
  | .handleResponseFinish e response => s.handleResponseFinish hrtime e response
  | .materializeSlotBodies slot storeRequest storeResponse =>
      s.materializeSlotBodies deps slot storeRequest storeResponse
  | .compactCompletedRequest requestId =>
      { s with toCaptureState := s.compactCompletedRequest requestId }
  | .releaseCompletedRequest requestId =>
      { s with toCaptureState := s.releaseCompletedRequest hrtime requestId }
  | .compactDetachedSlot slot => { s with toCaptureState := s.compactDetachedSlot slot }
  | .push event => { s with toBufferState := s.toBufferState.push hrtime event }
  | .clear => { s with buffer := s.buffer.clear }
  | .applyModeState captureRequestBodies captureResponseBodies captureDigest maxCaptureBytes =>
      { s with
        captureRequestBodies, captureResponseBodies
        config := { s.config with captureDigest, maxCaptureBytes } }
  | .tick => { s with clock := s.clock.tick }
  | .merge received => { s with clock := s.clock.merge received }

/-- Note that the pool of accumulators is full. -/
def noteFilled (s : ServerState) : ServerState :=
  { s with
    poolFilled := s.poolFilled || decide (CaptureState.maxStatePoolSize ≤ s.statePool.length) }

/-- A new buffer and recorder; the request and response bodies may be captured or not. -/
def Initial (s : ServerState) : Prop :=
  CaptureState.Initial s.toCaptureState ∧
  s.nextState = 0 ∧ s.statePool = [] ∧ (∀ slot, s.captures slot = ⟨none, none⟩) ∧
  (∀ e, s.exchanges e = none) ∧
  (∀ id, s.finalizers id = none) ∧ s.nextFinalizer = 0 ∧ s.finalizerPool = [] ∧
  s.poolFilled = false ∧ s.thrown = [] ∧ s.crossed = []

def system : Transition.System ServerState Action where
  init := Initial
  step s a := some (s.act deps hrtime a).noteFilled

def inboundOf (s : ServerState) (e : ExchangeId) : Option InboundRequestCaptureHandler :=
  (s.exchanges e).bind (·.inbound)

def outboundOf (s : ServerState) (e : ExchangeId) : Option OutboundResponseCaptureHandler :=
  (s.exchanges e).bind (·.outbound)

/-- The finalizer that a completed response will run. -/
def finalizing (s : ServerState) (e : ExchangeId) : Option RequestFinalizer :=
  (s.exchanges e).bind fun exchange =>
    if exchange.finalized then none else exchange.finalizer.bind s.finalizers

section Handlers

variable {s : ServerState} {e : ExchangeId} {P : ServerState → Prop}

/-- What holds without a call and after it holds. -/
theorem onInbound_of {call : Exchange → InboundRequestCaptureHandler → ServerState} (hs : P s)
    (hcall : ∀ exchange handler, s.exchanges e = some exchange → exchange.inbound = some handler →
      s.inboundOf e = some handler → P (call exchange handler)) :
    P (s.onInbound e call) := by
  rw [onInbound]
  cases hexchange : s.exchanges e with
  | none => exact hs
  | some exchange =>
      simp only
      cases hhandler : exchange.inbound with
      | none => exact hs
      | some handler =>
          exact hcall exchange handler hexchange hhandler
            (by simp only [inboundOf, hexchange, Option.bind_some, hhandler])

theorem onOutbound_of {call : Exchange → OutboundResponseCaptureHandler → ServerState} (hs : P s)
    (hcall : ∀ exchange handler, s.exchanges e = some exchange → exchange.outbound = some handler →
      s.outboundOf e = some handler → P (call exchange handler)) :
    P (s.onOutbound e call) := by
  rw [onOutbound]
  cases hexchange : s.exchanges e with
  | none => exact hs
  | some exchange =>
      simp only
      cases hhandler : exchange.outbound with
      | none => exact hs
      | some handler =>
          exact hcall exchange handler hexchange hhandler
            (by simp only [outboundOf, hexchange, Option.bind_some, hhandler])

theorem finalizeOnce_of {hrtime : Nat → Int} {aborted : Bool} {response : ResponseState} (hs : P s)
    (hcall : ∀ exchange id finalizer, s.exchanges e = some exchange →
      exchange.finalizer = some id → s.finalizers id = some finalizer →
      exchange.finalized = false → s.finalizing e = some finalizer →
      P ((s.writeExchange e { exchange with finalized := true }).finalize hrtime e id finalizer
        aborted response)) :
    P (s.finalizeOnce hrtime e aborted response) := by
  rw [finalizeOnce]
  cases hexchange : s.exchanges e with
  | none => exact hs
  | some exchange =>
      simp only
      cases hid : exchange.finalizer with
      | none => exact hs
      | some id =>
          simp only
          cases hfinalizer : s.finalizers id with
          | none => exact hs
          | some finalizer =>
              simp only
              split
              case isTrue => exact hs
              case isFalse hfinalized =>
                have hopen : exchange.finalized = false := Bool.eq_false_iff.mpr hfinalized
                have hfinalizing : s.finalizing e = some finalizer := by
                  simp only [finalizing, hexchange, Option.bind_some, hopen, hid, hfinalizer,
                    Bool.false_eq_true, if_false]
                have hcalled := hcall exchange id finalizer hexchange hid hfinalizer hopen
                  hfinalizing
                rwa [hid] at hcalled

end Handlers

end ServerState

end ErrorCore
