import ErrorCore.Middleware.Common

/-!
# The Next.js and raw HTTP wrappers

`src/middleware/nextjs.ts` and `src/middleware/raw-http.ts`. A request is given
by what the wrapper reads of it; reading may run code of the host and throw.
-/

namespace ErrorCore

namespace Middleware

variable {ε ρ κ V : Type}

/-! ## Next.js -/

/-- `NextLikeRequest`, with the pairs that `headers.forEach` enumerates. -/
structure NextRequest (ε : Type) where
  method : Text
  url : Text
  headers : Except ε Headers

section Next

variable (values : HostValues ε V) (sdk : SDKInstance ε κ)

/-- Without `captureError` nothing is flushed either. -/
def captureAndFlush : Effect ε ρ Unit :=
  if sdk.captureError.isSome then do
    guardedCall sdk.captureError.join
    guardedCall sdk.flush.join
  else pure ()

/-- `await captureAndFlush(instance, error)`, and the exception again. -/
def captureFlushAndRethrow (thrown : Thrown ε) : Effect ε ρ V := do
  captureAndFlush sdk
  Effect.throw thrown

/-- Under an existing context the status is read for `captureError` only. -/
def nestedStatus (result : V) : Except ε (Option Int) :=
  if sdk.captureError.isSome ∧ values.isNullish result = false then values.status result
  else .ok none

/-- `result?.status`. -/
def routeStatus (result : V) : Except ε (Option Int) :=
  if values.isNullish result then .ok none else values.status result

/-- A status of 500 or above is captured before the result is returned. -/
def captureServerStatus (statusCode : Option Int) : Effect ε ρ Unit :=
  if statusCode.any (fun code => decide (500 ≤ code)) then captureAndFlush sdk else pure ()

def observeRouteResult (status : V → Except ε (Option Int)) (result : V) : Effect ε ρ V := do
  let statusCode ← Effect.lift (status result)
  captureServerStatus sdk statusCode
  pure result

/-- The handler, its result observed and its exception captured. -/
def capturedHandler (handler : ρ → Except ε V) (arguments : ρ)
    (status : V → Except ε (Option Int)) : Effect ε ρ V :=
  Effect.attempt (Effect.invoke handler arguments >>= observeRouteResult sdk status)
    (captureFlushAndRethrow sdk)

/-- The status that the cleanup sees: `undefined` after an exception. -/
def routeStatusAfter : Except (Thrown ε) V → Option Int
  | .ok result => (routeStatus values result).toOption.join
  | .error _ => none

def finishRoute (context : κ) (outcome : Except (Thrown ε) V) : Effect ε ρ Unit := do
  releaseCompletedRequestIfSuccessful sdk context (routeStatusAfter values outcome)
  call (sdk.remove context)

def createRouteContext (request : NextRequest ε) : Except ε κ :=
  request.headers.bind fun headers =>
    (filterHeaders sdk headers).bind fun filtered =>
      sdk.createRequestContext
        { method := request.method
          url := request.url
          headers := filtered
          traceparent := headers.lookup "traceparent".toList
          tracestate := headers.lookup "tracestate".toList }

def trackedRoute (handler : ρ → Except ε V) (arguments : ρ) (context : κ) : Effect ε ρ V := do
  call (sdk.add context)
  Effect.ensure
    (Effect.within (sdk.runWithContext context)
      (capturedHandler sdk handler arguments (routeStatus values)))
    (finishRoute values sdk context)

/-- `instance.als.getContext?.()`. -/
def currentContext : Except ε (Option κ) := sdk.getContext.getD (.ok none)

def withErrorcore (passed : Option (SDKInstance ε κ))
    (moduleInstance : Except ε (Option (SDKInstance ε κ))) (handler : ρ → Except ε V)
    (request : NextRequest ε) (arguments : ρ) : Effect ε ρ V := do
  match ← Effect.lift (activeSDK (currentSDK passed moduleInstance)) with
  | none => Effect.invoke handler arguments
  | some sdk =>
      prepareForRequestStart sdk
      match ← Effect.lift (currentContext sdk) with
      | some _ => capturedHandler sdk handler arguments (nestedStatus values sdk)
      | none =>
          match createRouteContext sdk request with
          | .error _ => Effect.invoke handler arguments
          | .ok context => trackedRoute values sdk handler arguments context

end Next

/-! ## Raw HTTP -/

/-- What `wrapHandler` reads of the request and the response, and whether registering the cleanup
listeners on them throws. -/
structure RawRequest (ε : Type) where
  method : Option Text
  url : Option Text
  headers : Except ε Headers
  finished : Bool
  registerRequestCleanup : Option ε

section Raw

variable (values : HostValues ε V) (sdk : SDKInstance ε κ)

def createRawContext (request : RawRequest ε) : Except ε κ :=
  request.headers.bind fun headers =>
    (filterHeaders sdk headers).bind fun filtered =>
      sdk.createRequestContext
        { method := request.method.getD "GET"
          url := request.url.getD []
          headers := filtered
          traceparent := headers.lookup "traceparent".toList
          tracestate := headers.lookup "tracestate".toList }

/-- `handler(req, res); return;`. -/
def callAndReturn (handler : ρ → Except ε V) (arguments : ρ) : Effect ε ρ V := do
  let _ ← Effect.invoke handler arguments
  pure values.undefined

/-- `res.finished === true || als.getContext?.() !== undefined`. -/
def passesThrough (request : RawRequest ε) : Except ε Bool :=
  if request.finished then .ok true else (currentContext sdk).map Option.isSome

/-- The guarded registration of the request. -/
def registerRequest (request : RawRequest ε) (context : κ) : Except ε Unit :=
  (returns (sdk.add context)).bind fun _ => returns request.registerRequestCleanup

def wrapHandler (passed : Option (SDKInstance ε κ))
    (moduleInstance : Except ε (Option (SDKInstance ε κ))) (handler : ρ → Except ε V)
    (request : RawRequest ε) (arguments : ρ) : Effect ε ρ V := do
  match ← Effect.lift (activeSDK (currentSDK passed moduleInstance)) with
  | none => callAndReturn values handler arguments
  | some sdk =>
      prepareForRequestStart sdk
      match ← Effect.lift (passesThrough sdk request) with
      | true => callAndReturn values handler arguments
      | false =>
          match createRawContext sdk request with
          | .error _ => callAndReturn values handler arguments
          | .ok context =>
              match registerRequest sdk request context with
              | .error _ => callAndReturn values handler arguments
              | .ok _ =>
                  Effect.within (sdk.runWithContext context)
                    (callAndReturn values handler arguments)

end Raw

end Middleware

end ErrorCore
