import ErrorCore.Foundation.HostCalls
import ErrorCore.Foundation.Text
import Mathlib.Data.List.Forall2

/-!
# Patched methods around a driver's method

What the patched methods of the four drivers have in common. A patched method
reads the host's values, calls the driver's own method with the host's arguments,
one of which it may replace by a wrapper around it, and records how the call
ends. Reading a property of a value, or converting it, may run code of the host
and throw.

The driver is given by what its method does with a call: the invocations of the
callback before and after it returns, and how it returns.
-/

namespace ErrorCore.Patches

open Effect

/-- What JavaScript computes from a value of the host. -/
structure HostValues (V : Type) where
  undefined : V
  isUndefined : V → Bool
  /-- The value is `undefined` or `null`. -/
  isNullish : V → Bool
  isTrue : V → Bool
  /-- `typeof value === 'object' && value !== null`. -/
  isObject : V → Bool
  isFunction : V → Bool
  string : V → Option Text
  /-- A number, as `String` has it. -/
  number : V → Option Text
  array : V → Option (List V)
  ofArray : List V → V
  /-- `value instanceof Error`. -/
  isError : V → Except V Bool
  /-- `name in value`. -/
  has : V → Text → Except V Bool
  /-- `value[name]`; of a nullish value it is a `TypeError`. -/
  get : V → Text → Except V V
  /-- `Object.keys(value)`. -/
  keys : V → Except V (List Text)
  /-- `JSON.stringify(value)`. -/
  stringify : V → Except V (Option Text)
  /-- `String(value)`. -/
  toText : V → Except V Text
  /-- The value in a template. -/
  interpolate : V → Except V Text
  /-- `Object.defineProperty(value, name, …)`. -/
  define : V → Text → Except V Unit
  /-- `value[name] = …`. -/
  assign : V → Text → Except V Unit

/-- A field of an event: a value of the host, or a text. -/
inductive Field (V : Type)
  | read (value : V)
  | text (text : Text)

structure ErrorFields (V : Type) where
  type : Field V
  message : Field V

structure DbEvent (V : Type) where
  target : Text
  method : Text
  query : Option Text
  params : Option Text
  collection : Option (Field V)
  /-- The number, as `String` has it. -/
  rowCount : Option Text
  error : Option (ErrorFields V)

/-- The components of the recorder that a patched method uses; `κ` is `RequestContext`. -/
structure Deps (V κ : Type) where
  getContext : Except V (Option κ)
  ensureTraceMaterialized : κ → Except V Unit
  push : DbEvent V → Except V Unit
  pushIOEvent : κ → Except V Unit
  captureDbBindParams : Bool
  scrubValue : V → V
  scrubKeyValueAssignments : Text → Text
  redactSensitiveQueryText : Text → Text
  scrubCacheKey : Text → Text
  toUpperCase : Text → Text
  /-- A pool query with this signature is in flight. -/
  hasActivePoolQuery : Option κ → Text → Bool
  /-- A recorded call on this instance is on the stack. -/
  isRecording : V → Bool

/-- The error that an event is finished with. -/
inductive RecordedError (V : Type)
  | host (error : V)
  | fresh (message : Text)

section Reading

variable {V κ : Type} (values : HostValues V) (deps : Deps V κ)

/-- `value?.[name]`. -/
def getOptional (value : V) (name : Text) : Except V V :=
  if values.isNullish value then .ok values.undefined else values.get value name

/-- `args[index]`. -/
def argument (args : List V) (index : Nat) : V := (args[index]?).getD values.undefined

/-- `JSON.stringify(value) ?? String(value)`, and `String(value)` if that throws. -/
def stringifyParams (value : V) : Except V Text :=
  match values.stringify value with
  | .ok (some text) => .ok text
  | _ => values.toText value

def stringifyParam (value : V) : Except V Text :=
  match values.string value with
  | some text => .ok text
  | none => stringifyParams values value

/-- `stringifyParam(scrubParam(value, scrubber))`. -/
def formatParam (value : V) : Except V Text :=
  match values.string (deps.scrubValue value) with
  | some text => .ok (deps.scrubKeyValueAssignments text)
  | none => stringifyParam values (deps.scrubValue value)

/-- `[PARAM_1]`, `[PARAM_2]` and so on. -/
def placeholders (params : List V) : List Text :=
  (List.range params.length).map fun index => s!"[PARAM_{index + 1}]"

def formatParams (params : List V) : Except V (Option Text) :=
  if params.isEmpty then .ok none
  else if deps.captureDbBindParams then do
    let texts ← params.mapM (formatParam values deps)
    pure (some (Text.join ", " texts))
  else .ok (some (Text.join ", " (placeholders params)))

/-- `error instanceof Error ? error : new Error(String(error))`. -/
def recordedError (error : V) : Except V (RecordedError V) := do
  if ← values.isError error then pure (.host error)
  else do
    let message ← values.toText error
    pure (.fresh message)

/-- `{ type: error.name, message: error.message }`. -/
def errorFields : RecordedError V → Except V (ErrorFields V)
  | .fresh message => .ok ⟨.text "Error", .text message⟩
  | .host error => do
      let type ← values.get error "name"
      let message ← values.get error "message"
      pure ⟨.read type, .read message⟩

/-- The frames that the error has already are read; the rest is guarded. -/
def attachSupplementalLocals : RecordedError V → Except V Unit
  | .fresh _ => .ok ()
  | .host error => do
      let _ ← values.get error "Symbol(errorcore.v1.supplementalLocals)"
      pure ()

def pushEvent (context : Option κ) (event : DbEvent V) : Except V Unit :=
  match context with
  | none => deps.push event
  | some context => do
      deps.ensureTraceMaterialized context
      deps.push event
      deps.pushIOEvent context

/-- What is read of the error that an event is finished with. -/
def finishedError (supplemental : Bool) :
    Option (RecordedError V) → Except V (Option (ErrorFields V))
  | none => .ok none
  | some error => do
      let fields ← errorFields values error
      if supplemental then attachSupplementalLocals values error
      pure (some fields)

/-- The recording of a finished call: the drivers differ in what they read of the result. -/
def finalizeEvent (context : Option κ) (event : DbEvent V) (supplemental : Bool)
    (rowCount : V → Except V (Option Text)) (result : V) (error : Option (RecordedError V)) :
    Except V Unit := do
  let fields ← finishedError values supplemental error
  let rows ← rowCount result
  pushEvent deps context { event with error := fields, rowCount := rows }

end Reading

/-! ## The driver -/

/-- An argument that the driver's method receives: the host's own, or a wrapper around it. -/
inductive Passed (V : Type)
  | same (value : V)
  | wrapped (callback : V)

/-- A callback is invoked. What the host's function does may depend on the time. -/
structure Invocation (V : Type) where
  receiver : V
  args : List V
  callback : V × List V → Except V V

/-- What a method gives back: a promise and how it settles, if it does, or any other value. -/
inductive Returned (V : Type)
  | value (value : V)
  | promise (settles : Option (Except V V))

/-- What the driver's method does with a call. -/
structure Run (V : Type) where
  during : List (Invocation V)
  outcome : Except V (Returned V)
  after : List (Invocation V)

/-- What the caller gets; a rejection remembers whose exception it is. -/
inductive Seen (V : Type)
  | value (value : V)
  | promise (settles : Option (Except (Thrown V) V))

def thrownValue {V : Type} : Thrown V → V
  | .host error => error
  | .other error => error

abbrev Original (V : Type) := V × List (Passed V) → Run V

section Calls

variable {V κ : Type}

def Returned.seen : Returned V → Seen V
  | .value found => .value found
  | .promise settles => .promise (settles.map fun outcome => outcome.mapError .host)

def Run.seen (run : Run V) : Except V (Seen V) := run.outcome.map Returned.seen

def Run.invocations (run : Run V) : List (Invocation V) := run.during ++ run.after

/-- `args[index] = wrapper`. -/
def replaceCallback (index : Option Nat) (args : List V) : List (Passed V) :=
  args.mapIdx fun i arg => if index = some i then .wrapped arg else .same arg

/-- `original.apply(this, args)`. -/
def applyOriginal (original : Original V) (call : V × List (Passed V)) :
    Effect V (V × List (Passed V)) (Seen V) :=
  invoke (fun call => (original call).seen) call

/-- An invocation of the host's own function. -/
def invokeCallback (invocation : Invocation V) : Effect V (V × List V) V :=
  invoke invocation.callback (invocation.receiver, invocation.args)

/-! ## The recorder -/

/-- What a patched method does besides calling the driver's. -/
structure Recorder (V : Type) where
  callbackIndex : Option Nat
  /-- How many arguments the wrapper hands to the callback, unless it hands on what it gets. -/
  arity : Option Nat
  finish : V → Option (RecordedError V) → Except V Unit
  /-- A stream or a cursor, which is recorded before it ends. -/
  isOpen : V → Except V Bool
  pushOpen : Except V Unit

namespace Recorder

variable (values : HostValues V) (r : Recorder V)

/-- What the wrapper hands to the callback: so many arguments, or the error and the others. -/
def forward (args : List V) : List V :=
  match r.arity with
  | some arity => (List.range arity).map (argument values args)
  | none => argument values args 0 :: args.drop 1

/-- `error ?? undefined` of the callback's first argument. -/
def callbackError (args : List V) : Option (RecordedError V) :=
  if values.isNullish (argument values args 0) then none else some (.host (argument values args 0))

/-- `finish`, whose first call is the only one that does anything. -/
def finishOnce (finished : Bool) (result : V) (error : Option (RecordedError V)) : Except V Unit :=
  if finished then .ok () else r.finish result error

/-- The wrapper around the callback. -/
def wrappedCallback (finished : Bool) (invocation : Invocation V) :
    Effect V (V × List V) V := do
  lift (r.finishOnce finished (argument values invocation.args 1)
    (callbackError values invocation.args))
  invoke invocation.callback (invocation.receiver, r.forward values invocation.args)

/-- The invocations of the wrapper, one after the other. -/
def answers (finished : Bool) : List (Invocation V) → List (Effect V (V × List V) V)
  | [] => []
  | invocation :: invocations =>
      r.wrappedCallback values finished invocation :: answers true invocations

/-- What the `catch` block does before it throws the exception again. -/
def finishFailed (finished : Bool) (error : V) : Except V Unit := do
  let recorded ← recordedError values error
  r.finishOnce finished values.undefined (some recorded)

/-- A step of the `try` block; `finished` says whether `finish` has been called when it throws. -/
def tryStep {α : Type} (finished : Bool) (step : Effect V (V × List (Passed V)) α) :
    Effect V (V × List (Passed V)) α :=
  attempt step fun thrown => do
    lift (r.finishFailed values finished (thrownValue thrown))
    throw thrown

/-- `finish` has been called when the driver's method comes back. -/
def finishedDuring (run : Run V) : Bool := r.callbackIndex.isSome && !run.during.isEmpty

/-- `finish` has been called when the patched method comes back. -/
def finishedAfter (run : Run V) : Bool :=
  !run.during.isEmpty ||
    match run.outcome with
    | .ok _ => false
    | .error error =>
        match recordedError values error with
        | .ok _ => true
        | .error _ => false

/-- The handlers of `result.then`. -/
def settled : Except (Thrown V) V → Except (Thrown V) V
  | .ok resolved =>
      match r.finish resolved none with
      | .ok _ => .ok resolved
      | .error error => .error (.other error)
  | .error thrown =>
      match r.finishFailed values false (thrownValue thrown) with
      | .ok _ => .error thrown
      | .error error => .error (.other error)

/-- The `try` block after the call of the driver's method, without a callback. -/
def finishResult : Seen V → Effect V (V × List (Passed V)) (Seen V)
  | .promise settles => pure (.promise (settles.map (r.settled values)))
  | .value result => do
      -- `isPromiseLike(result)`: a `then` that is no function
      let _ ← r.tryStep values false (lift (getOptional values result "then"))
      if ← r.tryStep values false (lift (r.isOpen result)) then
        r.tryStep values false (lift r.pushOpen)
        pure (.value result)
      else
        r.tryStep values true (lift (r.finish result none))
        pure (.value result)

/-- The `try` block. -/
def tryBlock (original : Original V) (call : V × List (Passed V)) :
    Effect V (V × List (Passed V)) (Seen V) := do
  let result ← r.tryStep values (r.finishedDuring (original call)) (applyOriginal original call)
  if r.callbackIndex.isSome then pure result else r.finishResult values result

/-- Every invocation of the callback: without a wrapper it is the host's own function. -/
def invocationsOf (run : Run V) : List (Effect V (V × List V) V) :=
  if r.callbackIndex.isSome then
    r.answers values false run.during ++ r.answers values (finishedAfter values run) run.after
  else run.invocations.map invokeCallback

end Recorder

/-- A patched method: what precedes the call of the driver's either throws, or has no recorder, or
has one. -/
def patchedMethod (values : HostValues V) (prepared : Except V (Option (Recorder V)))
    (original : Original V) (receiver : V) (args : List V) :
    Effect V (V × List (Passed V)) (Seen V) := do
  match ← lift prepared with
  | none => applyOriginal original (receiver, replaceCallback none args)
  | some r => r.tryBlock values original (receiver, replaceCallback r.callbackIndex args)

/-- The invocations of the callback that the host has passed. -/
def invocationsOf (values : HostValues V) (prepared : Except V (Option (Recorder V)))
    (run : Run V) : List (Effect V (V × List V) V) :=
  match prepared with
  | .ok (some r) => r.invocationsOf values run
  | _ => run.invocations.map invokeCallback

end Calls

end ErrorCore.Patches
