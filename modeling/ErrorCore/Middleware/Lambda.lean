import ErrorCore.Middleware.Common
import ErrorCore.Foundation.Json

/-!
# The Lambda and serverless wrappers

`src/middleware/lambda.ts`. `extractRequestContext` classifies an event by its
shape; `none` is the `TypeError` of reading a property of `null`. The event is a
JSON value, so that reading a property of anything else gives a value or
`undefined`.

The safety timer has no part in the outcome of an invocation and is left out.
-/

namespace ErrorCore

namespace Middleware

/-- What the wrapper reads of the Lambda context besides texts that it passes on. -/
structure LambdaContext (ε : Type) where
  functionName : Text
  getRemainingTimeInMs : Except ε Int

structure Extracted where
  method : Text
  url : Text
  headers : Headers
  eventSource : Text
  traceparent : Option Text
  tracestate : Option Text
  deriving DecidableEq

/-! ## Events -/

/-- `value != null && typeof value === 'object'`. -/
def isObjectLike : Json.Value → Bool
  | .array _ => true
  | .object _ => true
  | _ => false

def isTruthy : Json.Value → Bool
  | .null => false
  | .bool value => value
  | .number text => text != "0".toList
  | .string value => !value.isEmpty
  | _ => true

/-- `result[key] = value`; the setter of `__proto__` ignores a string. -/
def setHeader (key value : Text) : Headers → Headers
  | [] => if key = "__proto__".toList then [] else [(key, value)]
  | (name, old) :: headers =>
      if name = key then (name, value) :: headers else (name, old) :: setHeader key value headers

def stringItem : Json.Value → Option Text
  | .string value => some value
  | _ => none

/-- `value.filter((v) => typeof v === 'string').join(', ')`. -/
def joinStrings (items : List Json.Value) : Text := Text.join ", " (items.filterMap stringItem)

/-- `Object.entries(value)` of an object or an array. -/
def objectEntries : Json.Value → List (Text × Json.Value)
  | .object fields => fields
  | .array items => items.zipIdx.map fun (item, index) => ((toString index).toList, item)
  | _ => []

def normalizeHeader (headers : Headers) (entry : Text × Json.Value) : Headers :=
  match entry.2 with
  | .string value => setHeader (Text.toLowerCase entry.1) value headers
  | .array items => setHeader (Text.toLowerCase entry.1) (joinStrings items) headers
  | _ => headers

def normalizeHeaders (headers : Option Json.Value) : Headers :=
  match headers with
  | none => []
  | some headers => (objectEntries headers).foldl normalizeHeader []

def addMultiValueHeader (headers : Headers) (entry : Text × Json.Value) : Headers :=
  match entry.2 with
  | .array items => setHeader (Text.toLowerCase entry.1) (joinStrings items) headers
  | _ => headers

/-- The source of the first record, or what the event itself says. -/
def detectEventSource (event : Json.Value) : Option Text :=
  match event.get? "Records" with
  | some (.array (.null :: _)) => none
  | some (.array (first :: _)) =>
      if first.getString? "eventSource" = some "aws:sqs".toList then some "sqs"
      else if first.getString? "EventSource" = some "aws:sns".toList then some "sns"
      else if first.getString? "eventSource" = some "aws:s3".toList then some "s3"
      else if first.getString? "eventSource" = some "aws:dynamodb".toList then some "dynamodb"
      else if first.getString? "eventSource" = some "aws:kinesis".toList then some "kinesis"
      else some (eventBridgeOrInvoke event)
  | _ => some (eventBridgeOrInvoke event)
where
  eventBridgeOrInvoke (event : Json.Value) : Text :=
    if (event.get? "source").any isTruthy ∧ (event.get? "detail-type").any isTruthy then
      "eventbridge"
    else "invoke"

/-- `attrs[name].stringValue` of the first record's message attributes. -/
def messageAttribute (event : Json.Value) (name : Text) : Option Text :=
  match event.get? "Records" with
  | some (.array (first :: _)) =>
      (first.get? "messageAttributes").bind fun attrs =>
        (attrs.get? name).bind fun found => found.getString? "stringValue"
  | _ => none

/-- `event.requestContext.http`, if `requestContext` is an object. -/
def requestContextHttp (event : Json.Value) : Option Json.Value :=
  (event.get? "requestContext").bind fun requestContext => requestContext.get? "http"

def hasRequestContext (event : Json.Value) : Bool :=
  (event.get? "requestContext").any isObjectLike

section Extract

variable (event : Json.Value) (functionName : Text)

def extractHttpV2 (http : Json.Value) : Extracted :=
  let headers := normalizeHeaders (event.get? "headers")
  { method := (http.getString? "method").getD "GET"
    url := ((event.getString? "rawPath").or (event.getString? "path")).getD "/"
    headers
    eventSource := "apigateway-v2"
    traceparent := headers.lookup "traceparent".toList
    tracestate := headers.lookup "tracestate".toList }

def extractHttpV1 (method : Text) : Extracted :=
  let headers := ((event.get? "multiValueHeaders").elim [] objectEntries).foldl addMultiValueHeader
    (normalizeHeaders (event.get? "headers"))
  let isAlb := ((event.get? "requestContext").bind fun requestContext =>
    requestContext.get? "elb").any fun elb => match elb with | .null => false | _ => true
  { method
    url := (event.getString? "path").getD "/"
    headers
    eventSource := if isAlb then "alb" else "apigateway-v1"
    traceparent := headers.lookup "traceparent".toList
    tracestate := headers.lookup "tracestate".toList }

def extractInvoke (eventSource : Text) : Extracted :=
  let isSqs := eventSource = "sqs".toList
  { method := "INVOKE"
    url := eventSource ++ '/' :: functionName
    headers := []
    eventSource
    traceparent := if isSqs then messageAttribute event "traceparent" else none
    tracestate := if isSqs then messageAttribute event "tracestate" else none }

/-- Without an HTTP block of version 2. -/
def extractOther : Option Extracted :=
  match event.getString? "httpMethod" with
  | some method =>
      if hasRequestContext event then some (extractHttpV1 event method)
      else (detectEventSource event).map (extractInvoke event functionName)
  | none => (detectEventSource event).map (extractInvoke event functionName)

/-- `typeof null` is `'object'`, so that an `http` of `null` is taken for an HTTP block. -/
def extractRequestContext : Option Extracted :=
  if isObjectLike event then
    match requestContextHttp event with
    | some .null => none
    | some (.array items) => some (extractHttpV2 event (.array items))
    | some (.object fields) => some (extractHttpV2 event (.object fields))
    | _ => extractOther event functionName
  else
    some
      { method := "INVOKE"
        url := "invoke/".toList ++ functionName
        headers := []
        eventSource := "invoke"
        traceparent := none
        tracestate := none }

end Extract

/-! ## The wrappers -/

section Wrappers

variable {ε ρ κ V : Type} (values : HostValues ε V) (sdk : SDKInstance ε κ)

def RequestInput.ofExtracted (extracted : Extracted) (headers : Headers) : RequestInput :=
  { method := extracted.method
    url := extracted.url
    headers
    traceparent := extracted.traceparent
    tracestate := extracted.tracestate }

/-- The guarded creation of the context. -/
def createLambdaContext (extracted : Extracted) : Except ε κ :=
  (filterHeaders sdk extracted.headers).bind fun headers =>
    sdk.createRequestContext (.ofExtracted extracted headers)

/-- `instance.captureError(error)`, guarded, and the exception again. -/
def captureAndRethrow (thrown : Thrown ε) : Effect ε ρ V := do
  guardedCall sdk.captureError.join
  Effect.throw thrown

/-- `statusCodeForCleanup` after the `try` block. -/
def lambdaStatus (result : V) : Except ε (Option Int) :=
  if sdk.captureError.isSome ∧ values.isObject result then values.statusCode result else .ok none

/-- A status of 500 or above is captured. -/
def captureServerError (statusCode : Option Int) : Effect ε ρ Unit :=
  if statusCode.any (fun code => decide (500 ≤ code)) then guardedCall sdk.captureError.join
  else pure ()

def observeLambdaResult (result : V) : Effect ε ρ V := do
  let statusCode ← Effect.lift (lambdaStatus values sdk result)
  captureServerError sdk statusCode
  pure result

/-- The status that the cleanup sees: `undefined` after an exception. -/
def statusAfter (status : V → Except ε (Option Int)) : Except (Thrown ε) V → Option Int
  | .ok result => (status result).toOption.join
  | .error _ => none

def notifyInvokeEnd (watchdog : Option (Watchdog ε κ)) : Effect ε ρ Unit :=
  call (watchdog.bind Watchdog.notifyInvokeEnd)

def finishInvocation (context : κ) (watchdog : Option (Watchdog ε κ))
    (outcome : Except (Thrown ε) V) : Effect ε ρ Unit := do
  releaseCompletedRequestIfSuccessful sdk context (statusAfter (lambdaStatus values sdk) outcome)
  call (sdk.remove context)
  notifyInvokeEnd watchdog
  guardedCall sdk.flush.join

/-- `watchdog?.notifyInvokeStart({ … })`: without a watchdog the argument is not evaluated. -/
def notifyInvokeStart (watchdog : Option (Watchdog ε κ)) (context : κ)
    (lambdaContext : LambdaContext ε) (eventSource : Text) : Except ε Unit :=
  match watchdog with
  | none => .ok ()
  | some watchdog =>
      lambdaContext.getRemainingTimeInMs.bind fun timeoutMs =>
        returns (watchdog.notifyInvokeStart context timeoutMs eventSource)

/-- `instance.getWatchdog?.()`. -/
def watchdogOf : Except ε (Option (Watchdog ε κ)) := sdk.getWatchdog.getD (.ok none)

/-- The invocation once it has a request context. -/
def trackedInvocation (handler : ρ → Except ε V) (arguments : ρ)
    (lambdaContext : LambdaContext ε) (eventSource : Text) (context : κ) : Effect ε ρ V := do
  optionalCall sdk.setServerlessMetadata
  call (sdk.add context)
  let watchdog ← Effect.lift (watchdogOf sdk)
  Effect.lift (notifyInvokeStart watchdog context lambdaContext eventSource)
  -- the delay of the safety timer
  let _ ← Effect.lift lambdaContext.getRemainingTimeInMs
  Effect.ensure
    (Effect.attempt
      (Effect.within (sdk.runWithContext context) (Effect.invoke handler arguments) >>=
        observeLambdaResult values sdk)
      (captureAndRethrow sdk))
    (finishInvocation values sdk context watchdog)

/-- Reading a property of `null` throws a `TypeError`. -/
def orTypeError {α : Type} (typeError : ε) : Option α → Except ε α
  | some a => .ok a
  | none => .error typeError

def wrapLambda (typeError : ε) (passed : Option (SDKInstance ε κ))
    (moduleInstance : Except ε (Option (SDKInstance ε κ)))
    (handler : Json.Value × LambdaContext ε → Except ε V) (event : Json.Value)
    (lambdaContext : LambdaContext ε) : Effect ε (Json.Value × LambdaContext ε) V := do
  match ← Effect.lift (activeSDK (currentSDK passed moduleInstance)) with
  | none => Effect.invoke handler (event, lambdaContext)
  | some sdk =>
      prepareForRequestStart sdk
      let extracted ← Effect.lift
        (orTypeError typeError (extractRequestContext event lambdaContext.functionName))
      match createLambdaContext sdk extracted with
      | .error _ => Effect.invoke handler (event, lambdaContext)
      | .ok context =>
          trackedInvocation values sdk handler (event, lambdaContext) lambdaContext
            extracted.eventSource context

/-- What the host's `extractContext` gives. -/
structure ServerlessRequest where
  method : Text
  url : Text
  headers : Option Headers

/-- The host's options, called with the arguments of the handler. -/
structure ServerlessOptions (ε ρ : Type) where
  extractContext : Option (ρ → Except ε (Option ServerlessRequest))
  getTimeoutMs : Option (ρ → Except ε (Option Int))

def extractServerless (options : ServerlessOptions ε ρ) (arguments : ρ) :
    Except ε ServerlessRequest :=
  match options.extractContext with
  | none => .ok ⟨"INVOKE", "serverless", some []⟩
  | some extractContext =>
      (extractContext arguments).map fun request =>
        request.getD ⟨"INVOKE", "serverless", some []⟩

/-- The guarded creation of the context; reading a header of `undefined` throws in it. -/
def createServerlessContext (typeError : ε) (request : ServerlessRequest) : Except ε κ :=
  (orTypeError typeError request.headers).bind fun headers =>
    (filterHeaders sdk headers).bind fun filtered =>
      sdk.createRequestContext
        { method := request.method
          url := request.url
          headers := filtered
          traceparent := headers.lookup "traceparent".toList
          tracestate := headers.lookup "tracestate".toList }

def serverlessStatus (result : V) : Except ε (Option Int) :=
  if values.isObject result then values.statusCode result else .ok none

def observeServerlessResult (result : V) : Effect ε ρ V := do
  let _ ← Effect.lift (serverlessStatus values result)
  pure result

def finishServerless (context : κ) (outcome : Except (Thrown ε) V) : Effect ε ρ Unit := do
  releaseCompletedRequestIfSuccessful sdk context (statusAfter (serverlessStatus values) outcome)
  call (sdk.remove context)
  guardedCall sdk.flush.join

/-- `options?.getTimeoutMs?.(...args)`. -/
def serverlessTimeout (options : ServerlessOptions ε ρ) (arguments : ρ) : Except ε (Option Int) :=
  match options.getTimeoutMs with
  | none => .ok none
  | some getTimeoutMs => getTimeoutMs arguments

def trackedServerless (options : ServerlessOptions ε ρ) (handler : ρ → Except ε V)
    (arguments : ρ) (context : κ) : Effect ε ρ V := do
  call (sdk.add context)
  let _ ← Effect.lift (serverlessTimeout options arguments)
  Effect.ensure
    (Effect.attempt
      (Effect.within (sdk.runWithContext context) (Effect.invoke handler arguments) >>=
        observeServerlessResult values)
      (captureAndRethrow sdk))
    (finishServerless values sdk context)

def wrapServerless (typeError : ε) (moduleInstance : Except ε (Option (SDKInstance ε κ)))
    (options : ServerlessOptions ε ρ) (handler : ρ → Except ε V) (arguments : ρ) :
    Effect ε ρ V := do
  match ← Effect.lift (activeSDK moduleInstance) with
  | none => Effect.invoke handler arguments
  | some sdk =>
      prepareForRequestStart sdk
      let request ← Effect.lift (extractServerless options arguments)
      match createServerlessContext sdk typeError request with
      | .error _ => Effect.invoke handler arguments
      | .ok context => trackedServerless values sdk options handler arguments context

end Wrappers

end Middleware

end ErrorCore
