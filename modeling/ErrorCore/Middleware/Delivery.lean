import ErrorCore.Middleware.Lambda
import ErrorCore.Middleware.RequestHandlers

/-!
# When a wrapper delivers the handler's outcome

Some of a wrapper's calls are guarded and some are not. For each wrapper the
calls and reads that are not, on the path that it takes, make up a condition, and
the wrapper calls the handler once and has its outcome exactly when the condition
holds.
-/

namespace ErrorCore

namespace Middleware

open Effect

variable {ε ρ κ V : Type}

/-! ## Steps that never throw -/

theorem settled_call (throws : Option ε) :
    Settled (call throws : Effect ε ρ Unit) (returns throws) :=
  settled_lift _

theorem settled_guardedCall (throws : Option ε) :
    Settled (guardedCall throws : Effect ε ρ Unit) (.ok ()) :=
  (settled_call throws).attempt

section Steps

variable (sdk : SDKInstance ε κ) (values : HostValues ε V)

theorem settled_prepareForRequestStart :
    Settled (prepareForRequestStart sdk : Effect ε ρ Unit) (.ok ()) :=
  settled_guardedCall _

theorem settled_release (context : κ) (statusCode : Option Int) :
    Settled (releaseCompletedRequestIfSuccessful sdk context statusCode : Effect ε ρ Unit)
      (.ok ()) := by
  unfold releaseCompletedRequestIfSuccessful
  split
  · exact settled_pure ()
  · exact settled_guardedCall _

theorem settled_captureServerError (statusCode : Option Int) :
    Settled (captureServerError sdk statusCode : Effect ε ρ Unit) (.ok ()) := by
  unfold captureServerError
  split
  · exact settled_guardedCall _
  · exact settled_pure ()

theorem settled_captureAndFlush : Settled (captureAndFlush sdk : Effect ε ρ Unit) (.ok ()) := by
  unfold captureAndFlush
  split
  · exact (settled_guardedCall _).bind fun _ => settled_guardedCall _
  · exact settled_pure ()

theorem settled_captureServerStatus (statusCode : Option Int) :
    Settled (captureServerStatus sdk statusCode : Effect ε ρ Unit) (.ok ()) := by
  unfold captureServerStatus
  split
  · exact settled_captureAndFlush sdk
  · exact settled_pure ()

/-- After a computation that succeeds, an exception is thrown as it is. -/
theorem run_throw_after {effect : Effect ε ρ Unit} (h : Settled effect (.ok ()))
    (thrown : Thrown ε) (calls : List ρ) :
    run (effect >>= fun _ => (Effect.throw thrown : Effect ε ρ V)) calls =
      (.error thrown, calls) := by
  have heffect : effect calls = (.ok (), calls) := h calls
  simp only [run, Bind.bind, heffect, Effect.throw]

theorem captureAndRethrow_rethrows (thrown : Thrown ε) (calls : List ρ) :
    run (captureAndRethrow sdk thrown : Effect ε ρ V) calls = (.error thrown, calls) :=
  run_throw_after (settled_guardedCall _) thrown calls

theorem captureFlushAndRethrow_rethrows (thrown : Thrown ε) (calls : List ρ) :
    run (captureFlushAndRethrow sdk thrown : Effect ε ρ V) calls = (.error thrown, calls) :=
  run_throw_after (settled_captureAndFlush sdk) thrown calls

/-- The computation reads the status of the handler's result and gives the result back. -/
def Observes (status : V → Except ε (Option Int)) (observe : V → Effect ε ρ V) : Prop :=
  ∀ result, Settled (observe result) ((status result).bind fun _ => .ok result)

theorem observes_lambda :
    Observes (lambdaStatus values sdk) (observeLambdaResult values sdk : V → Effect ε ρ V) :=
  fun result => (settled_lift _).bind fun code =>
    (settled_captureServerError sdk code).bind fun _ => settled_pure result

theorem observes_serverless :
    Observes (serverlessStatus values) (observeServerlessResult values : V → Effect ε ρ V) :=
  fun result => (settled_lift _).bind fun _ => settled_pure result

theorem observes_route (status : V → Except ε (Option Int)) :
    Observes status (observeRouteResult sdk status : V → Effect ε ρ V) :=
  fun result => (settled_lift _).bind fun code =>
    (settled_captureServerStatus sdk code).bind fun _ => settled_pure result

/-- The status of the handler's result can be read. -/
def StatusReadable (status : V → Except ε (Option Int)) (outcome : Except ε V) : Prop :=
  ∀ result, outcome = .ok result → ∃ code, status result = .ok code

theorem delivers_observe {arguments : ρ} {outcome : Except ε V} {effect : Effect ε ρ V}
    {status : V → Except ε (Option Int)} {observe : V → Effect ε ρ V}
    (h : Observes status observe) :
    Delivers arguments outcome (effect >>= observe) ↔
      Delivers arguments outcome effect ∧ StatusReadable status outcome := by
  have hback : ∀ a b, ((status a).bind fun _ => (.ok a : Except ε V)) = .ok b → b = a := by
    intro a b hab
    cases hstatus : status a with
    | error error => rw [hstatus] at hab; cases hab
    | ok code => rw [hstatus] at hab; exact (Except.ok.inj hab).symm
  rw [delivers_bind_settled h hback]
  refine and_congr_right fun _ => forall₂_congr fun result _ => ?_
  cases status result with
  | error error =>
      constructor
      · intro h
        cases h
      · rintro ⟨code, h⟩
        cases h
  | ok code => exact ⟨fun _ => ⟨code, rfl⟩, fun _ => rfl⟩

end Steps

/-! ## Calls that may throw -/

theorem returns_eq_ok {throws : Option ε} {u : Unit} : returns throws = .ok u ↔ throws = none := by
  cases throws with
  | none => exact ⟨fun _ => rfl, fun _ => rfl⟩
  | some error =>
      constructor
      · intro h
        cases h
      · intro h
        cases h

section Rules

variable {arguments : ρ} {outcome : Except ε V}

theorem delivers_call_bind {throws : Option ε} {next : Unit → Effect ε ρ V} :
    Delivers arguments outcome (call throws >>= next) ↔
      throws = none ∧ Delivers arguments outcome (next ()) := by
  rw [delivers_settled_bind (settled_call throws)]
  constructor
  · rintro ⟨u, hreturns, h⟩
    exact ⟨returns_eq_ok.mp hreturns, h⟩
  · rintro ⟨hthrows, h⟩
    exact ⟨(), returns_eq_ok.mpr hthrows, h⟩

theorem delivers_quiet_bind {first : Effect ε ρ Unit} {next : Unit → Effect ε ρ V}
    (h : Settled first (.ok ())) :
    Delivers arguments outcome (first >>= next) ↔ Delivers arguments outcome (next ()) := by
  rw [delivers_settled_bind h]
  refine ⟨?_, fun h => ⟨(), rfl, h⟩⟩
  rintro ⟨_, _, h⟩
  exact h

theorem delivers_lift_bind {β : Type} {result : Except ε β} {next : β → Effect ε ρ V} :
    Delivers arguments outcome (Effect.lift result >>= next) ↔
      ∃ b, result = .ok b ∧ Delivers arguments outcome (next b) :=
  delivers_settled_bind (settled_lift result)

end Rules

/-! ## Malformed events -/

/-- The event is taken for an HTTP request of API Gateway. -/
def IsHttpEvent (event : Json.Value) : Prop :=
  (requestContextHttp event).any isObjectLike ∨
    (event.getString? "httpMethod").isSome ∧ hasRequestContext event

/-- The classifier reads a property of `null`. -/
def IsMalformed (event : Json.Value) : Prop :=
  requestContextHttp event = some .null ∨
    ¬ IsHttpEvent event ∧ ∃ rest, event.get? "Records" = some (.array (.null :: rest))

theorem detectEventSource_eq_none_iff (event : Json.Value) :
    detectEventSource event = none ↔
      ∃ rest, event.get? "Records" = some (.array (.null :: rest)) := by
  unfold detectEventSource
  split
  · rename_i rest hrecords
    exact ⟨fun _ => ⟨rest, hrecords⟩, fun _ => rfl⟩
  · rename_i first rest hfirst hrecords
    refine ⟨fun h => ?_, ?_⟩
    · repeat' split at h
      all_goals exact absurd h (Option.some_ne_none _)
    · rintro ⟨rest', hnull⟩
      rw [hnull] at hrecords
      exact absurd (List.cons.inj (Json.Value.array.inj (Option.some.inj hrecords))).1.symm hfirst
  · rename_i hnull hother
    refine ⟨fun h => absurd h (Option.some_ne_none _), ?_⟩
    rintro ⟨rest, hrecords⟩
    exact absurd hrecords (hnull rest)

/-- Outside the HTTP branches the first record decides. -/
theorem extractInvoke_eq_none_iff (event : Json.Value) (functionName : Text)
    (hhttp : ¬ IsHttpEvent event) (hnull : requestContextHttp event ≠ some .null) :
    (detectEventSource event).map (extractInvoke event functionName) = none ↔
      IsMalformed event := by
  rw [Option.map_eq_none_iff, detectEventSource_eq_none_iff]
  exact ⟨fun h => .inr ⟨hhttp, h⟩, fun h => (h.resolve_left hnull).2⟩

theorem get?_eq_none {event : Json.Value} (h : ¬ isObjectLike event = true) (name : Text) :
    event.get? name = none := by
  cases event with
  | array items => exact absurd rfl h
  | object fields => exact absurd rfl h
  | null | bool | number | string => rfl

theorem extractOther_eq_none_iff (event : Json.Value) (functionName : Text)
    (hhttp : ¬ (requestContextHttp event).any isObjectLike = true)
    (hnull : requestContextHttp event ≠ some .null) :
    extractOther event functionName = none ↔ IsMalformed event := by
  unfold extractOther
  split
  · rename_i method hmethod
    split
    · rename_i hcontext
      refine ⟨fun h => absurd h (Option.some_ne_none _), fun h => ?_⟩
      exact absurd (.inr ⟨hmethod ▸ rfl, hcontext⟩) (h.resolve_left hnull).1
    · rename_i hcontext
      refine extractInvoke_eq_none_iff event functionName ?_ hnull
      exact fun h => h.elim hhttp fun h => hcontext h.2
  · rename_i hmethod
    refine extractInvoke_eq_none_iff event functionName ?_ hnull
    exact fun h => h.elim hhttp fun h => absurd h.1 (by rw [hmethod]; exact Bool.false_ne_true)

/-- The classifier throws exactly on the malformed events. -/
theorem extractRequestContext_eq_none_iff (event : Json.Value) (functionName : Text) :
    extractRequestContext event functionName = none ↔ IsMalformed event := by
  unfold extractRequestContext
  split
  · split
    · rename_i hnull
      exact ⟨fun _ => .inl hnull, fun _ => rfl⟩
    · rename_i items hhttp
      refine ⟨fun h => absurd h (Option.some_ne_none _), fun h => ?_⟩
      rcases h with h | h
      · rw [hhttp] at h
        cases h
      · exact absurd (.inl (by rw [hhttp]; rfl)) h.1
    · rename_i fields hhttp
      refine ⟨fun h => absurd h (Option.some_ne_none _), fun h => ?_⟩
      rcases h with h | h
      · rw [hhttp] at h
        cases h
      · exact absurd (.inl (by rw [hhttp]; rfl)) h.1
    · rename_i hnull harray hobject
      refine extractOther_eq_none_iff event functionName (fun h => ?_) hnull
      obtain ⟨http, hhttp, hlike⟩ := (Option.any_eq_true _ _).mp h
      cases http with
      | array items => exact harray items hhttp
      | object fields => exact hobject fields hhttp
      | null | bool | number | string => exact absurd hlike Bool.false_ne_true
  · rename_i hobject
    refine ⟨fun h => absurd h (Option.some_ne_none _), ?_⟩
    rintro (h | ⟨-, rest, h⟩)
    · unfold requestContextHttp at h
      rw [get?_eq_none hobject] at h
      exact absurd h.symm (Option.some_ne_none _)
    · rw [get?_eq_none hobject] at h
      exact absurd h.symm (Option.some_ne_none _)

theorem returns_bind_isOk {throws : Option ε} {next : Unit → Except ε Unit} :
    (∃ b, (returns throws).bind next = .ok b) ↔ throws = none ∧ ∃ b, next () = .ok b := by
  cases throws with
  | none => exact ⟨fun h => ⟨rfl, h⟩, fun h => h.2⟩
  | some error =>
      constructor
      · rintro ⟨b, h⟩
        cases h
      · rintro ⟨h, -⟩
        cases h

section Paths

variable {arguments : ρ} {outcome : Except ε V} {bypass : Effect ε ρ V} {B : Prop}

/-- What holds on the path without a live instance, and on the path with one. -/
def WhenActive (active : Except ε (Option (SDKInstance ε κ))) (B : Prop)
    (P : SDKInstance ε κ → Prop) : Prop :=
  match active with
  | .error _ => False
  | .ok none => B
  | .ok (some sdk) => P sdk

/-- What holds on the path without a result, and on the path with one. -/
def WhenCreated {β : Type} (created : Except ε β) (B : Prop) (P : β → Prop) : Prop :=
  match created with
  | .error _ => B
  | .ok result => P result

theorem delivers_active {active : Except ε (Option (SDKInstance ε κ))}
    {next : SDKInstance ε κ → Effect ε ρ V} {P : SDKInstance ε κ → Prop}
    (hbypass : Delivers arguments outcome bypass ↔ B)
    (hnext : ∀ sdk, Delivers arguments outcome (next sdk) ↔ P sdk) :
    Delivers arguments outcome (Effect.lift active >>= fun found =>
        match found with
        | none => bypass
        | some sdk => next sdk) ↔ WhenActive active B P := by
  rw [delivers_lift_bind]
  cases active with
  | error error =>
      refine ⟨?_, False.elim⟩
      rintro ⟨_, h, -⟩
      cases h
  | ok found =>
      cases found with
      | none =>
          refine ⟨?_, fun h => ⟨none, rfl, hbypass.mpr h⟩⟩
          rintro ⟨_, h, hdelivers⟩
          rw [← Except.ok.inj h] at hdelivers
          exact hbypass.mp hdelivers
      | some sdk =>
          refine ⟨?_, fun h => ⟨some sdk, rfl, (hnext sdk).mpr h⟩⟩
          rintro ⟨_, h, hdelivers⟩
          rw [← Except.ok.inj h] at hdelivers
          exact (hnext sdk).mp hdelivers

theorem delivers_create {β : Type} {created : Except ε β} {next : β → Effect ε ρ V} {P : β → Prop}
    (hbypass : Delivers arguments outcome bypass ↔ B)
    (hnext : ∀ result, Delivers arguments outcome (next result) ↔ P result) :
    Delivers arguments outcome
        (match created with
        | .error _ => bypass
        | .ok result => next result) ↔ WhenCreated created B P := by
  cases created with
  | error error => exact hbypass
  | ok result => exact hnext result

theorem whenActive_and {active : Except ε (Option (SDKInstance ε κ))}
    {P : SDKInstance ε κ → Prop} :
    WhenActive active B (fun sdk => B ∧ P sdk) ↔ B ∧ WhenActive active True P := by
  cases active with
  | error error => exact ⟨False.elim, fun h => h.2⟩
  | ok found =>
      cases found with
      | none => exact ⟨fun h => ⟨h, trivial⟩, fun h => h.1⟩
      | some sdk => exact Iff.rfl

theorem whenCreated_and {β : Type} {created : Except ε β} {P : β → Prop} :
    WhenCreated created B (fun result => B ∧ P result) ↔ B ∧ WhenCreated created True P := by
  cases created with
  | error error => exact ⟨fun h => ⟨h, trivial⟩, fun h => h.1⟩
  | ok result => exact Iff.rfl

theorem orTypeError_eq_ok {α : Type} {typeError : ε} {found : Option α} {a : α} :
    orTypeError typeError found = .ok a ↔ found = some a := by
  cases found with
  | none =>
      constructor
      · intro h
        cases h
      · intro h
        cases h
  | some b =>
      exact ⟨fun h => congrArg some (Except.ok.inj h), fun h => congrArg _ (Option.some.inj h)⟩

end Paths

/-! ## The Lambda wrapper -/

section Lambda

variable {values : HostValues ε V} {sdk : SDKInstance ε κ} {handler : ρ → Except ε V}
  {arguments : ρ} {context : κ}

/-- Nothing that `wrapLambda` calls or reads outside a guard throws, once there is a context. -/
structure InvocationQuiet (values : HostValues ε V) (sdk : SDKInstance ε κ) (context : κ)
    (lambdaContext : LambdaContext ε) (eventSource : Text) (outcome : Except ε V) : Prop where
  metadata : sdk.setServerlessMetadata.join = none
  add : sdk.add context = none
  watchdog : ∃ watchdog, watchdogOf sdk = .ok watchdog ∧
    notifyInvokeStart watchdog context lambdaContext eventSource = .ok () ∧
      watchdog.bind Watchdog.notifyInvokeEnd = none
  remaining : ∃ remainingMs, lambdaContext.getRemainingTimeInMs = .ok remainingMs
  run : sdk.runWithContext context = .calls
  status : StatusReadable (lambdaStatus values sdk) outcome
  remove : sdk.remove context = none

theorem settled_finishInvocation (watchdog : Option (Watchdog ε κ))
    (ending : Except (Thrown ε) V) :
    Settled (finishInvocation values sdk context watchdog ending : Effect ε ρ Unit)
      ((returns (sdk.remove context)).bind fun _ =>
        (returns (watchdog.bind Watchdog.notifyInvokeEnd)).bind fun _ => .ok ()) :=
  (settled_release sdk context _).bind fun _ => (settled_call _).bind fun _ =>
    (settled_call _).bind fun _ => settled_guardedCall _

/-- The call inside `runWithContext`, with what the wrapper does with its outcome. -/
theorem delivers_observed {status : V → Except ε (Option Int)} {observe : V → Effect ε ρ V}
    (h : Observes status observe) :
    Delivers arguments (handler arguments)
        (within (sdk.runWithContext context) (invoke handler arguments) >>= observe) ↔
      sdk.runWithContext context = .calls ∧ StatusReadable status (handler arguments) := by
  rw [delivers_observe h, delivers_within]
  exact and_congr_left fun _ => and_iff_left (delivers_invoke handler arguments)

theorem invocation_delivers_iff (watchdog : Option (Watchdog ε κ)) :
    Delivers arguments (handler arguments)
        (ensure
          (attempt
            (within (sdk.runWithContext context) (invoke handler arguments) >>=
              observeLambdaResult values sdk)
            (captureAndRethrow sdk))
          (finishInvocation values sdk context watchdog)) ↔
      (sdk.runWithContext context = .calls ∧
        StatusReadable (lambdaStatus values sdk) (handler arguments)) ∧
        sdk.remove context = none ∧ watchdog.bind Watchdog.notifyInvokeEnd = none := by
  rw [delivers_ensure (settled_finishInvocation watchdog),
    delivers_attempt_rethrow (captureAndRethrow_rethrows sdk), returns_bind_isOk,
    returns_bind_isOk]
  refine and_congr (delivers_observed (observes_lambda sdk values)) ?_
  exact and_congr_right fun _ => and_iff_left ⟨(), rfl⟩

theorem trackedInvocation_delivers_iff (lambdaContext : LambdaContext ε) (eventSource : Text) :
    Delivers arguments (handler arguments)
        (trackedInvocation values sdk handler arguments lambdaContext eventSource context) ↔
      InvocationQuiet values sdk context lambdaContext eventSource (handler arguments) := by
  unfold trackedInvocation optionalCall
  simp only [delivers_call_bind, delivers_lift_bind, invocation_delivers_iff]
  constructor
  · rintro ⟨hmetadata, hadd, watchdog, hwatchdog, _, hstart, _, hremaining, ⟨hrun, hstatus⟩,
      hremove, hend⟩
    exact ⟨hmetadata, hadd, ⟨watchdog, hwatchdog, hstart, hend⟩, ⟨_, hremaining⟩, hrun, hstatus,
      hremove⟩
  · rintro ⟨hmetadata, hadd, ⟨watchdog, hwatchdog, hstart, hend⟩, ⟨_, hremaining⟩, hrun, hstatus,
      hremove⟩
    exact ⟨hmetadata, hadd, watchdog, hwatchdog, _, hstart, _, hremaining, ⟨hrun, hstatus⟩,
      hremove, hend⟩

end Lambda

/-- The condition for `wrapLambda`: finding the instance does not throw, the event is not malformed,
and an invocation with a context is quiet. -/
def LambdaQuiet (values : HostValues ε V) (passed : Option (SDKInstance ε κ))
    (moduleInstance : Except ε (Option (SDKInstance ε κ))) (event : Json.Value)
    (lambdaContext : LambdaContext ε) (outcome : Except ε V) : Prop :=
  WhenActive (activeSDK (currentSDK passed moduleInstance)) True fun sdk =>
    ¬ IsMalformed event ∧
      ∀ extracted, extractRequestContext event lambdaContext.functionName = some extracted →
        WhenCreated (createLambdaContext sdk extracted) True fun context =>
          InvocationQuiet values sdk context lambdaContext extracted.eventSource outcome

theorem wrapLambda_delivers_iff (values : HostValues ε V) (typeError : ε)
    (passed : Option (SDKInstance ε κ)) (moduleInstance : Except ε (Option (SDKInstance ε κ)))
    (handler : Json.Value × LambdaContext ε → Except ε V) (event : Json.Value)
    (lambdaContext : LambdaContext ε) :
    Delivers (event, lambdaContext) (handler (event, lambdaContext))
        (wrapLambda values typeError passed moduleInstance handler event lambdaContext) ↔
      LambdaQuiet values passed moduleInstance event lambdaContext
        (handler (event, lambdaContext)) := by
  have hbypass := iff_true_intro (delivers_invoke handler (event, lambdaContext))
  refine delivers_active hbypass fun sdk => ?_
  rw [delivers_quiet_bind (settled_prepareForRequestStart sdk), delivers_lift_bind,
    ← extractRequestContext_eq_none_iff event lambdaContext.functionName]
  have hnext : ∀ extracted, Delivers (event, lambdaContext) (handler (event, lambdaContext))
      (match createLambdaContext sdk extracted with
      | .error _ => invoke handler (event, lambdaContext)
      | .ok context =>
          trackedInvocation values sdk handler (event, lambdaContext) lambdaContext
            extracted.eventSource context) ↔
      WhenCreated (createLambdaContext sdk extracted) True fun context =>
        InvocationQuiet values sdk context lambdaContext extracted.eventSource
          (handler (event, lambdaContext)) := fun extracted =>
    delivers_create hbypass fun context =>
      trackedInvocation_delivers_iff lambdaContext extracted.eventSource
  cases extractRequestContext event lambdaContext.functionName with
  | none =>
      refine ⟨?_, fun h => absurd rfl h.1⟩
      rintro ⟨_, h, -⟩
      exact absurd (orTypeError_eq_ok.mp h).symm (Option.some_ne_none _)
  | some extracted =>
      constructor
      · rintro ⟨_, h, hdelivers⟩
        refine ⟨Option.some_ne_none _, fun extracted' h' => ?_⟩
        obtain rfl := Option.some.inj ((orTypeError_eq_ok.mp h).symm.trans h')
        exact (hnext _).mp hdelivers
      · exact fun h => ⟨extracted, rfl, (hnext extracted).mpr (h.2 extracted rfl)⟩

/-! ## The serverless wrapper -/

/-- Nothing that `wrapServerless` calls or reads outside a guard throws, once there is a context. -/
structure ServerlessInvocationQuiet (values : HostValues ε V) (sdk : SDKInstance ε κ) (context : κ)
    (options : ServerlessOptions ε ρ) (arguments : ρ) (outcome : Except ε V) : Prop where
  add : sdk.add context = none
  timeout : ∃ timeoutMs, serverlessTimeout options arguments = .ok timeoutMs
  run : sdk.runWithContext context = .calls
  status : StatusReadable (serverlessStatus values) outcome
  remove : sdk.remove context = none

theorem settled_finishServerless (values : HostValues ε V) (sdk : SDKInstance ε κ) (context : κ)
    (ending : Except (Thrown ε) V) :
    Settled (finishServerless values sdk context ending : Effect ε ρ Unit)
      ((returns (sdk.remove context)).bind fun _ => .ok ()) :=
  (settled_release sdk context _).bind fun _ => (settled_call _).bind fun _ =>
    settled_guardedCall _

theorem trackedServerless_delivers_iff (values : HostValues ε V) (sdk : SDKInstance ε κ)
    (options : ServerlessOptions ε ρ) (handler : ρ → Except ε V) (arguments : ρ) (context : κ) :
    Delivers arguments (handler arguments)
        (trackedServerless values sdk options handler arguments context) ↔
      ServerlessInvocationQuiet values sdk context options arguments (handler arguments) := by
  unfold trackedServerless
  simp only [delivers_call_bind, delivers_lift_bind,
    delivers_ensure (settled_finishServerless values sdk context),
    delivers_attempt_rethrow (captureAndRethrow_rethrows sdk),
    delivers_observed (observes_serverless values), returns_bind_isOk]
  constructor
  · rintro ⟨hadd, _, htimeout, ⟨hrun, hstatus⟩, hremove, -⟩
    exact ⟨hadd, ⟨_, htimeout⟩, hrun, hstatus, hremove⟩
  · rintro ⟨hadd, ⟨_, htimeout⟩, hrun, hstatus, hremove⟩
    exact ⟨hadd, _, htimeout, ⟨hrun, hstatus⟩, hremove, (), trivial⟩

/-- The condition for `wrapServerless`. -/
def ServerlessQuiet (values : HostValues ε V) (typeError : ε)
    (moduleInstance : Except ε (Option (SDKInstance ε κ))) (options : ServerlessOptions ε ρ)
    (arguments : ρ) (outcome : Except ε V) : Prop :=
  WhenActive (activeSDK moduleInstance) True fun sdk =>
    ∃ request, extractServerless options arguments = .ok request ∧
      WhenCreated (createServerlessContext sdk typeError request) True fun context =>
        ServerlessInvocationQuiet values sdk context options arguments outcome

theorem wrapServerless_delivers_iff (values : HostValues ε V) (typeError : ε)
    (moduleInstance : Except ε (Option (SDKInstance ε κ))) (options : ServerlessOptions ε ρ)
    (handler : ρ → Except ε V) (arguments : ρ) :
    Delivers arguments (handler arguments)
        (wrapServerless values typeError moduleInstance options handler arguments) ↔
      ServerlessQuiet values typeError moduleInstance options arguments (handler arguments) := by
  have hbypass := iff_true_intro (delivers_invoke handler arguments)
  refine delivers_active hbypass fun sdk => ?_
  rw [delivers_quiet_bind (settled_prepareForRequestStart sdk), delivers_lift_bind]
  refine exists_congr fun request => and_congr_right fun _ => ?_
  exact delivers_create hbypass fun context =>
    trackedServerless_delivers_iff values sdk options handler arguments context

/-! ## The Next.js wrapper -/

theorem capturedHandler_delivers_iff (sdk : SDKInstance ε κ) (handler : ρ → Except ε V)
    (arguments : ρ) (status : V → Except ε (Option Int)) :
    Delivers arguments (handler arguments) (capturedHandler sdk handler arguments status) ↔
      StatusReadable status (handler arguments) := by
  unfold capturedHandler
  rw [delivers_attempt_rethrow (captureFlushAndRethrow_rethrows sdk),
    delivers_observe (observes_route sdk status)]
  exact and_iff_right (delivers_invoke handler arguments)

/-- Nothing that `withErrorcore` calls or reads outside a guard throws, once there is a context. -/
structure RouteInvocationQuiet (values : HostValues ε V) (sdk : SDKInstance ε κ) (context : κ)
    (outcome : Except ε V) : Prop where
  add : sdk.add context = none
  run : sdk.runWithContext context = .calls
  status : StatusReadable (routeStatus values) outcome
  remove : sdk.remove context = none

theorem settled_finishRoute (values : HostValues ε V) (sdk : SDKInstance ε κ) (context : κ)
    (ending : Except (Thrown ε) V) :
    Settled (finishRoute values sdk context ending : Effect ε ρ Unit)
      (returns (sdk.remove context)) :=
  (settled_release sdk context _).bind fun _ => settled_call _

theorem trackedRoute_delivers_iff (values : HostValues ε V) (sdk : SDKInstance ε κ)
    (handler : ρ → Except ε V) (arguments : ρ) (context : κ) :
    Delivers arguments (handler arguments)
        (trackedRoute values sdk handler arguments context) ↔
      RouteInvocationQuiet values sdk context (handler arguments) := by
  unfold trackedRoute
  simp only [delivers_call_bind, delivers_ensure (settled_finishRoute values sdk context),
    delivers_within, capturedHandler_delivers_iff, returns_eq_ok]
  constructor
  · rintro ⟨hadd, ⟨hrun, hstatus⟩, _, hremove⟩
    exact ⟨hadd, hrun, hstatus, hremove⟩
  · rintro ⟨hadd, hrun, hstatus, hremove⟩
    exact ⟨hadd, ⟨hrun, hstatus⟩, (), hremove⟩

/-- The condition for `withErrorcore`: under an existing context only the status is read. -/
def RouteQuiet (values : HostValues ε V) (passed : Option (SDKInstance ε κ))
    (moduleInstance : Except ε (Option (SDKInstance ε κ))) (request : NextRequest ε)
    (outcome : Except ε V) : Prop :=
  WhenActive (activeSDK (currentSDK passed moduleInstance)) True fun sdk =>
    ∃ current, currentContext sdk = .ok current ∧
      match current with
      | some _ => StatusReadable (nestedStatus values sdk) outcome
      | none =>
          WhenCreated (createRouteContext sdk request) True fun context =>
            RouteInvocationQuiet values sdk context outcome

theorem withErrorcore_delivers_iff (values : HostValues ε V) (passed : Option (SDKInstance ε κ))
    (moduleInstance : Except ε (Option (SDKInstance ε κ))) (handler : ρ → Except ε V)
    (request : NextRequest ε) (arguments : ρ) :
    Delivers arguments (handler arguments)
        (withErrorcore values passed moduleInstance handler request arguments) ↔
      RouteQuiet values passed moduleInstance request (handler arguments) := by
  have hbypass := iff_true_intro (delivers_invoke handler arguments)
  refine delivers_active hbypass fun sdk => ?_
  rw [delivers_quiet_bind (settled_prepareForRequestStart sdk), delivers_lift_bind]
  refine exists_congr fun current => and_congr_right fun _ => ?_
  cases current with
  | some _ => exact capturedHandler_delivers_iff sdk handler arguments _
  | none =>
      exact delivers_create hbypass fun context =>
        trackedRoute_delivers_iff values sdk handler arguments context

/-! ## The raw HTTP wrapper -/

/-- `wrapHandler` drops what the handler returns. -/
def ReturnsUndefined (values : HostValues ε V) (outcome : Except ε V) : Prop :=
  ∀ result, outcome = .ok result → result = values.undefined

theorem callAndReturn_delivers_iff (values : HostValues ε V) (handler : ρ → Except ε V)
    (arguments : ρ) :
    Delivers arguments (handler arguments) (callAndReturn values handler arguments) ↔
      ReturnsUndefined values (handler arguments) := by
  unfold Delivers callAndReturn ReturnsUndefined
  cases hresult : handler arguments with
  | error error =>
      have hrun : run (invoke handler arguments >>= fun _ =>
          (pure values.undefined : Effect ε ρ V)) [] = (.error (.host error), [arguments]) := by
        simp only [run, Bind.bind, invoke, hresult, mapError_error, List.nil_append]
      refine ⟨fun _ result h => ?_, fun _ => hrun⟩
      cases h
  | ok result =>
      have hrun : run (invoke handler arguments >>= fun _ =>
          (pure values.undefined : Effect ε ρ V)) [] = (.ok values.undefined, [arguments]) := by
        simp only [run, Bind.bind, invoke, hresult, mapError_ok, List.nil_append]
        rfl
      rw [hrun]
      constructor
      · intro h _ hother
        rw [← Except.ok.inj hother]
        exact (Except.ok.inj (congrArg Prod.fst h)).symm
      · intro h
        rw [h result rfl]
        rfl

/-- The condition for `wrapHandler`. -/
def RawQuiet (values : HostValues ε V) (passed : Option (SDKInstance ε κ))
    (moduleInstance : Except ε (Option (SDKInstance ε κ))) (request : RawRequest ε)
    (outcome : Except ε V) : Prop :=
  ReturnsUndefined values outcome ∧
    WhenActive (activeSDK (currentSDK passed moduleInstance)) True fun sdk =>
      ∃ passes, passesThrough sdk request = .ok passes ∧
        (passes = false →
          WhenCreated (createRawContext sdk request) True fun context =>
            WhenCreated (registerRequest sdk request context) True fun _ =>
              sdk.runWithContext context = .calls)

theorem wrapHandler_delivers_iff (values : HostValues ε V) (passed : Option (SDKInstance ε κ))
    (moduleInstance : Except ε (Option (SDKInstance ε κ))) (handler : ρ → Except ε V)
    (request : RawRequest ε) (arguments : ρ) :
    Delivers arguments (handler arguments)
        (wrapHandler values passed moduleInstance handler request arguments) ↔
      RawQuiet values passed moduleInstance request (handler arguments) := by
  have hbypass := callAndReturn_delivers_iff values handler arguments
  unfold RawQuiet
  rw [← whenActive_and]
  refine delivers_active hbypass fun sdk => ?_
  rw [delivers_quiet_bind (settled_prepareForRequestStart sdk), delivers_lift_bind,
    ← exists_and_left]
  refine exists_congr fun passes => ?_
  rw [and_left_comm]
  refine and_congr_right fun _ => ?_
  cases passes with
  | true => exact hbypass.trans (and_iff_left fun h => absurd h Bool.noConfusion).symm
  | false =>
      rw [forall_prop_of_true rfl, ← whenCreated_and]
      refine delivers_create hbypass fun context => ?_
      rw [← whenCreated_and]
      cases registerRequest sdk request context with
      | error error => exact hbypass
      | ok registered =>
          exact delivers_within.trans ((and_congr_right fun _ => hbypass).trans and_comm)

/-- Each wrapper calls the handler once with the host's arguments and has its outcome exactly when
its condition holds. -/
theorem wrappers_deliver_iff (values : HostValues ε V) (typeError : ε)
    (passed : Option (SDKInstance ε κ)) (moduleInstance : Except ε (Option (SDKInstance ε κ))) :
    (∀ (handler : Json.Value × LambdaContext ε → Except ε V) event lambdaContext,
      Delivers (event, lambdaContext) (handler (event, lambdaContext))
          (wrapLambda values typeError passed moduleInstance handler event lambdaContext) ↔
        LambdaQuiet values passed moduleInstance event lambdaContext
          (handler (event, lambdaContext))) ∧
    (∀ (options : ServerlessOptions ε ρ) (handler : ρ → Except ε V) (arguments : ρ),
      Delivers arguments (handler arguments)
          (wrapServerless values typeError moduleInstance options handler arguments) ↔
        ServerlessQuiet values typeError moduleInstance options arguments (handler arguments)) ∧
    (∀ (handler : ρ → Except ε V) (request : NextRequest ε) (arguments : ρ),
      Delivers arguments (handler arguments)
          (withErrorcore values passed moduleInstance handler request arguments) ↔
        RouteQuiet values passed moduleInstance request (handler arguments)) ∧
    ∀ (handler : ρ → Except ε V) (request : RawRequest ε) (arguments : ρ),
      Delivers arguments (handler arguments)
          (wrapHandler values passed moduleInstance handler request arguments) ↔
        RawQuiet values passed moduleInstance request (handler arguments) :=
  ⟨wrapLambda_delivers_iff values typeError passed moduleInstance,
    wrapServerless_delivers_iff values typeError moduleInstance,
    withErrorcore_delivers_iff values passed moduleInstance,
    wrapHandler_delivers_iff values passed moduleInstance⟩

/-- A live instance whose calls all return. -/
def quietSDK : SDKInstance Unit Unit :=
  { isActive := .ok true
    captureError := some none
    flush := some none
    prepareForRequestStart := some none
    createRequestContext := fun _ => .ok ()
    getContext := some (.ok none)
    runWithContext := fun _ => .calls
    add := fun _ => none
    remove := fun _ => none
    filterAndNormalizeHeaders := .ok
    setServerlessMetadata := some none
    getWatchdog := none
    releaseCompletedRequestContext := none }

/-- Results without a status. -/
def plainValues : HostValues Unit Unit :=
  { undefined := ()
    isNullish := fun _ => true
    isObject := fun _ => false
    statusCode := fun _ => .ok none
    status := fun _ => .ok none }

/-- A quiet instance does not help against a record that is `null`, and a tracker that throws when
the request is removed replaces the handler's result. -/
theorem wrappers_throw :
    ¬ Delivers (.object [("Records".toList, .array [.null])], ⟨"f".toList, .ok 1000⟩) (.ok ())
        (wrapLambda plainValues () (some quietSDK) (.ok none) (fun _ => .ok ())
          (.object [("Records".toList, .array [.null])]) ⟨"f".toList, .ok 1000⟩) ∧
      ¬ Delivers () (.ok ())
        (withErrorcore plainValues (some { quietSDK with remove := fun _ => some () }) (.ok none)
          (fun _ => .ok ()) ⟨"GET".toList, "/".toList, .ok []⟩ ()) := by
  constructor
  · intro h
    have hmalformed : IsMalformed (.object [("Records".toList, .array [.null])]) := by
      refine .inr ⟨?_, [], rfl⟩
      rintro (h | h)
      · exact Bool.false_ne_true h
      · exact Bool.false_ne_true h.1
    exact ((wrapLambda_delivers_iff plainValues () (some quietSDK) (.ok none) (fun _ => .ok ())
      (.object [("Records".toList, .array [.null])]) ⟨"f".toList, .ok 1000⟩).mp h).1 hmalformed
  · intro h
    obtain ⟨_, hcurrent, hquiet⟩ := (withErrorcore_delivers_iff plainValues
      (some { quietSDK with remove := fun _ => some () }) (.ok none) (fun _ => .ok ())
      ⟨"GET".toList, "/".toList, .ok []⟩ ()).mp h
    obtain rfl := Except.ok.inj hcurrent
    exact absurd hquiet.remove (Option.some_ne_none _)

end Middleware

end ErrorCore
