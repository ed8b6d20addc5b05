import ErrorCore.Foundation.HostCalls
import ErrorCore.Foundation.Text

/-!
# What the request wrappers share

An SDK instance is given by what each of its calls does: `none` is a call that
returns, `some error` one that throws, and the outer `Option` of an optional
method says whether the instance has it. The host's handler is called through
`Effect.invoke`, so that its calls are on record.
-/

namespace ErrorCore

namespace Middleware

abbrev Headers := List (Text × Text)

structure RequestInput where
  method : Text
  url : Text
  headers : Headers
  traceparent : Option Text
  tracestate : Option Text
  deriving DecidableEq

structure Watchdog (ε κ : Type) where
  notifyInvokeStart : κ → Int → Text → Option ε
  notifyInvokeEnd : Option ε

/-- `SDKInstanceLike`, with `κ` for `RequestContext`. -/
structure SDKInstance (ε κ : Type) where
  isActive : Except ε Bool
  captureError : Option (Option ε)
  flush : Option (Option ε)
  prepareForRequestStart : Option (Option ε)
  createRequestContext : RequestInput → Except ε κ
  getContext : Option (Except ε (Option κ))
  runWithContext : κ → Effect.Treatment ε
  add : κ → Option ε
  remove : κ → Option ε
  filterAndNormalizeHeaders : Headers → Except ε Headers
  setServerlessMetadata : Option (Option ε)
  getWatchdog : Option (Except ε (Option (Watchdog ε κ)))
  releaseCompletedRequestContext : Option (κ → Option ε)

/-- What a wrapper reads of the handler's result; a getter may throw. -/
structure HostValues (ε V : Type) where
  undefined : V
  isNullish : V → Bool
  isObject : V → Bool
  statusCode : V → Except ε (Option Int)
  status : V → Except ε (Option Int)

variable {ε ρ κ V : Type}

/-- A call that returns nothing. -/
def returns : Option ε → Except ε Unit
  | none => .ok ()
  | some error => .error error

def call (throws : Option ε) : Effect ε ρ Unit := Effect.lift (returns throws)

/-- `try { call } catch {}`. -/
def guardedCall (throws : Option ε) : Effect ε ρ Unit :=
  Effect.attempt (call throws) fun _ => pure ()

/-- `method?.()`. -/
def optionalCall (method : Option (Option ε)) : Effect ε ρ Unit := call method.join

section Common

variable (sdk : SDKInstance ε κ)

def prepareForRequestStart : Effect ε ρ Unit := guardedCall sdk.prepareForRequestStart.join

def filterHeaders (headers : Headers) : Except ε Headers := sdk.filterAndNormalizeHeaders headers

def releaseCompletedRequestIfSuccessful (context : κ) (statusCode : Option Int) :
    Effect ε ρ Unit :=
  if statusCode.any (fun code => decide (500 ≤ code)) then pure ()
  else guardedCall (sdk.releaseCompletedRequestContext.bind fun release => release context)

/-- The module's instance, if it is live; else the one that was passed, or the module's. -/
def moduleFallback (passed : Option (SDKInstance ε κ))
    (moduleInstance : Except ε (Option (SDKInstance ε κ))) :
    Except ε (Option (SDKInstance ε κ)) :=
  match moduleInstance with
  | .error error => .error error
  | .ok none => .ok passed
  | .ok (some live) =>
      match live.isActive with
      | .error error => .error error
      | .ok true => .ok (some live)
      | .ok false => .ok (passed.or (some live))

def resolveLiveSDK (passed : Option (SDKInstance ε κ))
    (moduleInstance : Except ε (Option (SDKInstance ε κ))) :
    Except ε (Option (SDKInstance ε κ)) :=
  match passed with
  | none => moduleFallback none moduleInstance
  | some sdk =>
      match sdk.isActive with
      | .error error => .error error
      | .ok true => .ok (some sdk)
      | .ok false => moduleFallback (some sdk) moduleInstance

/-- `resolveLiveSDK(sdk ?? getModuleInstance())`. -/
def currentSDK (passed : Option (SDKInstance ε κ))
    (moduleInstance : Except ε (Option (SDKInstance ε κ))) :
    Except ε (Option (SDKInstance ε κ)) :=
  match passed, moduleInstance with
  | some sdk, _ => resolveLiveSDK (some sdk) moduleInstance
  | none, .error error => .error error
  | none, .ok live => resolveLiveSDK live moduleInstance

/-- The instance, unless it is `null` or not active. -/
def activeSDK (resolved : Except ε (Option (SDKInstance ε κ))) :
    Except ε (Option (SDKInstance ε κ)) :=
  match resolved with
  | .error error => .error error
  | .ok none => .ok none
  | .ok (some sdk) =>
      match sdk.isActive with
      | .error error => .error error
      | .ok true => .ok (some sdk)
      | .ok false => .ok none

end Common

end Middleware

end ErrorCore
