import ErrorCore.Recording.Patches.Preparation

/-!
# When a patched method is transparent

A call of a patched method is transparent if the driver's method is called once
with the host's receiver and arguments, the caller gets what it gives, and every
invocation of the callback that it makes reaches the host's function with all
arguments. The recorder is noticed only where one of its steps throws, where a
wrapper hands on too few arguments, or where an argument is not passed on.
-/

namespace ErrorCore.Patches

open Effect
open Except (bind_eq_ok)

variable {V κ : Type}

/-! ## Transparent calls -/

/-- The arguments one by one; a function may be replaced by a wrapper around it. -/
def SameArguments (values : HostValues V) (args : List V) (passed : List (Passed V)) : Prop :=
  List.Forall₂
    (fun arg passed => passed = .same arg ∨ values.isFunction arg = true ∧ passed = .wrapped arg)
    args passed

/-- The host's function gets every argument of the invocation, and the driver its outcome. -/
def PassedOn (values : HostValues V) (i : Invocation V) (effect : Effect V (V × List V) V) : Prop :=
  ∃ n, Delivers (i.receiver, i.args ++ List.replicate n values.undefined)
    (i.callback (i.receiver, i.args ++ List.replicate n values.undefined)) effect

def Transparent (values : HostValues V) (original : Original V) (receiver : V) (args : List V)
    (effect : Effect V (V × List (Passed V)) (Seen V))
    (invocations : Run V → List (Effect V (V × List V) V)) : Prop :=
  ∃ passed, SameArguments values args passed ∧
    Delivers (receiver, passed) (original (receiver, passed)).seen effect ∧
    List.Forall₂ (PassedOn values) (original (receiver, passed)).invocations
      (invocations (original (receiver, passed)))

/-! ## Steps of the recorder -/

section Steps

variable (values : HostValues V) (r : Recorder V)

/-- What a step of the `try` block comes to. -/
def stepResult {α : Type} (finished : Bool) (result : Except V α) : Except V α :=
  match result with
  | .ok a => .ok a
  | .error error => (r.finishFailed values finished error).bind fun _ => .error error

theorem settled_tryStep {α : Type} (finished : Bool) (result : Except V α) :
    Settled (r.tryStep values finished (lift result)) (stepResult values r finished result) := by
  intro calls
  cases result with
  | ok a => rfl
  | error error =>
      unfold stepResult
      simp only [Recorder.tryStep, run, attempt, lift, mapError_error, Bind.bind, thrownValue]
      cases r.finishFailed values finished error with
      | ok _ => rfl
      | error error' => rfl

theorem stepResult_eq_ok {α : Type} {finished : Bool} {result : Except V α} {a : α} :
    stepResult values r finished result = .ok a ↔ result = .ok a := by
  cases result with
  | ok b => exact Iff.rfl
  | error error =>
      constructor
      · intro h
        obtain ⟨_, -, h⟩ := bind_eq_ok.mp h
        cases h
      · intro h
        cases h

/-- The call of the driver's method in the `try` block. -/
theorem delivers_tryStep_original {arguments : V × List (Passed V)} {outcome : Except V (Seen V)}
    {original : Original V} {finished : Bool} {called : V × List (Passed V)} :
    Delivers arguments outcome (r.tryStep values finished (applyOriginal original called)) ↔
      (called = arguments ∧ (original called).seen = outcome) ∧
        ∀ error, outcome = .error error → ∃ u, r.finishFailed values finished error = .ok u := by
  exact (delivers_attempt_cleanup fun _ => settled_lift _).trans
    (and_congr_left' delivers_invoke_iff)

/-- What the `try` block makes of what the driver's method gives. -/
def finishedResult : Seen V → Except V (Seen V)
  | .promise settles => .ok (.promise (settles.map (r.settled values)))
  | .value result =>
      stepResult values r false (getOptional values result "then") >>= fun _ =>
        stepResult values r false (r.isOpen result) >>= fun found =>
          if found then
            stepResult values r false r.pushOpen >>= fun _ => .ok (.value result)
          else
            stepResult values r true (r.finish result none) >>= fun _ => .ok (.value result)

theorem settled_finishResult (result : Seen V) :
    Settled (r.finishResult values result) (finishedResult values r result) := by
  cases result with
  | promise settles => exact settled_pure _
  | value result =>
      refine (settled_tryStep values r false _).bind fun _ =>
        (settled_tryStep values r false _).bind fun found => ?_
      cases found with
      | true => exact (settled_tryStep values r false _).bind fun _ => settled_pure _
      | false => exact (settled_tryStep values r true _).bind fun _ => settled_pure _

end Steps

/-! ## When nothing is noticed -/

section Quiet

variable (values : HostValues V) (r : Recorder V)

/-- An exception of the driver's method can be recorded. -/
def FailureQuiet (error : V) : Prop :=
  ∃ recorded, recordedError values error = .ok recorded ∧
    r.finish values.undefined (some recorded) = .ok ()

/-- Without a callback: what the driver's method gives can be recorded, now or when its promise
settles. -/
def ResultQuiet : Except V (Returned V) → Prop
  | .error error => FailureQuiet values r error
  | .ok (.promise none) => True
  | .ok (.promise (some (.ok resolved))) => r.finish resolved none = .ok ()
  | .ok (.promise (some (.error error))) => FailureQuiet values r error
  | .ok (.value result) =>
      (∃ found, getOptional values result "then" = .ok found) ∧
        ∃ found, r.isOpen result = .ok found ∧
          if found then r.pushOpen = .ok () else r.finish result none = .ok ()

/-- An invocation of the callback can be recorded. -/
def InvocationQuiet (i : Invocation V) : Prop :=
  r.finish (argument values i.args 1) (Recorder.callbackError values i.args) = .ok ()

/-- The invocation that is recorded, unless the driver's method throws before there is one. -/
def Run.recordedInvocation (run : Run V) : Option (Invocation V) :=
  match run.during, run.outcome with
  | i :: _, _ => some i
  | [], .ok _ => run.after.head?
  | [], .error _ => none

/-- With a callback: the wrapper hands on every argument, and whatever ends the call first can be
recorded. -/
structure CallbackQuiet (run : Run V) : Prop where
  arity : ∀ i ∈ run.invocations, ∀ arity, r.arity = some arity → i.args.length ≤ arity
  failure : ∀ error, run.outcome = .error error →
    ∃ recorded, recordedError values error = .ok recorded ∧
      (run.during = [] → r.finish values.undefined (some recorded) = .ok ())
  invocation : ∀ i, run.recordedInvocation = some i → InvocationQuiet values r i

def RecorderQuiet (run : Run V) : Prop :=
  if r.callbackIndex.isSome then CallbackQuiet values r run else ResultQuiet values r run.outcome

end Quiet

/-! ## Results -/

section Results

variable (values : HostValues V) (r : Recorder V)

theorem finishFailed_isOk {finished : Bool} {error : V} :
    (∃ u, r.finishFailed values finished error = .ok u) ↔
      ∃ recorded, recordedError values error = .ok recorded ∧
        (finished = false → r.finish values.undefined (some recorded) = .ok ()) := by
  constructor
  · rintro ⟨u, h⟩
    obtain ⟨recorded, hrecorded, h⟩ := bind_eq_ok.mp h
    refine ⟨recorded, hrecorded, ?_⟩
    rintro rfl
    exact h
  · rintro ⟨recorded, hrecorded, h⟩
    refine ⟨(), bind_eq_ok.mpr ⟨recorded, hrecorded, ?_⟩⟩
    cases finished with
    | true => rfl
    | false => exact h rfl

theorem settled_ok_iff {resolved : V} :
    r.settled values (.ok resolved) = .ok resolved ↔ r.finish resolved none = .ok () := by
  unfold Recorder.settled
  simp only
  cases r.finish resolved none with
  | ok _ => exact ⟨fun _ => rfl, fun _ => rfl⟩
  | error error =>
      constructor
      · intro h
        cases h
      · intro h
        cases h

theorem failureQuiet_iff {error : V} :
    FailureQuiet values r error ↔ ∃ u, r.finishFailed values false error = .ok u := by
  rw [finishFailed_isOk]
  exact exists_congr fun _ => and_congr_right fun _ => ⟨fun h _ => h, fun h => h rfl⟩

theorem settled_error_iff {error : V} :
    r.settled values (.error (.host error)) = .error (.host error) ↔
      FailureQuiet values r error := by
  rw [failureQuiet_iff]
  unfold Recorder.settled thrownValue
  simp only
  cases r.finishFailed values false error with
  | ok u => exact ⟨fun _ => ⟨u, rfl⟩, fun _ => rfl⟩
  | error error' =>
      constructor
      · intro h
        cases h
      · rintro ⟨u, h⟩
        cases h

/-- Without a callback the caller gets what the driver's method gives exactly if that is quiet. -/
theorem finishedResult_eq_ok {returned : Returned V} :
    finishedResult values r returned.seen = .ok returned.seen ↔
      ResultQuiet values r (.ok returned) := by
  cases returned with
  | promise settles =>
      cases settles with
      | none => exact iff_of_true rfl trivial
      | some outcome =>
          cases outcome with
          | ok resolved =>
              refine Iff.trans ?_ (settled_ok_iff values r)
              exact ⟨fun h => Option.some.inj (Seen.promise.inj (Except.ok.inj h)),
                fun h => congrArg (fun o => Except.ok (Seen.promise (some o))) h⟩
          | error error =>
              refine Iff.trans ?_ (settled_error_iff values r)
              exact ⟨fun h => Option.some.inj (Seen.promise.inj (Except.ok.inj h)),
                fun h => congrArg (fun o => Except.ok (Seen.promise (some o))) h⟩
  | value result =>
      unfold finishedResult Returned.seen ResultQuiet
      simp only [bind_eq_ok, stepResult_eq_ok]
      constructor
      · rintro ⟨then', hthen, found, hfound, h⟩
        refine ⟨⟨then', hthen⟩, found, hfound, ?_⟩
        cases found with
        | true =>
            obtain ⟨_, h, -⟩ := bind_eq_ok.mp h
            exact (stepResult_eq_ok values r).mp h
        | false =>
            obtain ⟨_, h, -⟩ := bind_eq_ok.mp h
            exact (stepResult_eq_ok values r).mp h
      · rintro ⟨⟨then', hthen⟩, found, hfound, h⟩
        refine ⟨then', hthen, found, hfound, ?_⟩
        cases found with
        | true => exact bind_eq_ok.mpr ⟨(), (stepResult_eq_ok values r).mpr h, rfl⟩
        | false => exact bind_eq_ok.mpr ⟨(), (stepResult_eq_ok values r).mpr h, rfl⟩

/-! ## The call -/

theorem seen_eq_error {run : Run V} {error : V} :
    run.seen = .error error ↔ run.outcome = .error error := by
  unfold Run.seen
  cases run.outcome with
  | error error' =>
      exact ⟨fun h => congrArg _ (Except.error.inj h), fun h => congrArg _ (Except.error.inj h)⟩
  | ok returned =>
      constructor
      · intro h
        cases h
      · intro h
        cases h

/-- The call of a recorded method, without the invocations of the callback. -/
theorem delivers_tryBlock {original : Original V} {receiver : V} {passed : List (Passed V)}
    {called : V × List (Passed V)} :
    Delivers (receiver, passed) (original (receiver, passed)).seen
        (r.tryBlock values original called) ↔
      called = (receiver, passed) ∧
        if r.callbackIndex.isSome then
          ∀ error, (original (receiver, passed)).outcome = .error error →
            ∃ u, r.finishFailed values (r.finishedDuring (original (receiver, passed))) error =
              .ok u
        else ResultQuiet values r (original (receiver, passed)).outcome := by
  unfold Recorder.tryBlock
  cases hindex : r.callbackIndex.isSome with
  | true =>
      simp only [if_true]
      rw [delivers_bind_settled (fun a => settled_pure a) (fun a b h => (Except.ok.inj h).symm),
        delivers_tryStep_original]
      constructor
      · rintro ⟨⟨⟨rfl, -⟩, h⟩, -⟩
        exact ⟨rfl, fun error herror => h error (seen_eq_error.mpr herror)⟩
      · rintro ⟨rfl, h⟩
        exact ⟨⟨⟨rfl, rfl⟩, fun error herror => h error (seen_eq_error.mp herror)⟩, fun _ _ => rfl⟩
  | false =>
      simp only [Bool.false_eq_true, if_false]
      rw [delivers_bind (settled_finishResult values r)]
      simp only [delivers_tryStep_original]
      have hduring (run : Run V) : r.finishedDuring run = false := by
        rw [Recorder.finishedDuring, hindex, Bool.false_and]
      simp only [hduring]
      cases houtcome : (original (receiver, passed)).outcome with
      | error error =>
          have hseen : (original (receiver, passed)).seen = .error error :=
            seen_eq_error.mpr houtcome
          simp only [hseen]
          constructor
          · rintro (⟨_, _, -, -, h⟩ | ⟨_, ⟨⟨rfl, -⟩, h⟩, herror⟩)
            · cases h
            · exact ⟨rfl, (failureQuiet_iff values r).mpr (h error herror.symm)⟩
          · rintro ⟨rfl, h⟩
            refine .inr ⟨error, ⟨⟨rfl, hseen⟩, fun error' herror => ?_⟩, rfl⟩
            rw [← Except.error.inj herror]
            exact (failureQuiet_iff values r).mp h
      | ok returned =>
          have hseen : (original (receiver, passed)).seen = .ok returned.seen := by
            rw [Run.seen, houtcome]
            rfl
          rw [hseen, ← finishedResult_eq_ok]
          constructor
          · rintro (⟨_, _, ⟨⟨rfl, h⟩, -⟩, hresult, ha⟩ | ⟨_, -, h⟩)
            · obtain rfl := Except.ok.inj ha
              obtain rfl := Except.ok.inj (hseen.symm.trans h)
              exact ⟨rfl, hresult⟩
            · cases h
          · rintro ⟨rfl, h⟩
            refine .inl ⟨_, _, ⟨⟨rfl, hseen⟩, fun error herror => ?_⟩, h, rfl⟩
            cases herror

/-! ## The callback -/

/-- The wrapper hands on every argument unless it has a limit. -/
theorem forward_iff (args : List V) :
    (∃ n, r.forward values args = args ++ List.replicate n values.undefined) ↔
      ∀ arity, r.arity = some arity → args.length ≤ arity := by
  unfold Recorder.forward
  cases harity : r.arity with
  | none =>
      refine iff_of_true ?_ fun arity h => absurd h.symm (Option.some_ne_none _)
      cases args with
      | nil => exact ⟨1, rfl⟩
      | cons arg args => exact ⟨0, (List.append_nil _).symm⟩
  | some arity =>
      constructor
      · rintro ⟨n, h⟩ arity' h'
        obtain rfl := Option.some.inj h'
        have hlength := congrArg List.length h
        simp only [List.length_map, List.length_range, List.length_append,
          List.length_replicate] at hlength
        omega
      · intro h
        refine ⟨arity - args.length, List.ext_getElem ?_ ?_⟩
        · have := h arity rfl
          simp only [List.length_map, List.length_range, List.length_append, List.length_replicate]
          omega
        · intro i hi hi'
          rw [List.getElem_map, List.getElem_range, List.getElem_append, argument]
          split
          · rename_i hlt
            rw [List.getElem?_eq_getElem hlt]
            rfl
          · rename_i hge
            rw [List.getElem?_eq_none (Nat.not_lt.mp hge), List.getElem_replicate]
            rfl

theorem passedOn_wrapped_iff (finished : Bool) (i : Invocation V) :
    PassedOn values i (r.wrappedCallback values finished i) ↔
      (∀ arity, r.arity = some arity → i.args.length ≤ arity) ∧
        (finished = false → InvocationQuiet values r i) := by
  unfold PassedOn Recorder.wrappedCallback
  simp only [delivers_settled_bind (settled_lift _), delivers_invoke_iff]
  rw [← forward_iff values]
  constructor
  · rintro ⟨n, u, hfinish, hforward, -⟩
    refine ⟨⟨n, congrArg Prod.snd hforward⟩, ?_⟩
    rintro rfl
    exact hfinish
  · rintro ⟨⟨n, hforward⟩, hfinish⟩
    refine ⟨n, (), ?_, congrArg (Prod.mk _) hforward,
      congrArg (fun args => i.callback (_, args)) hforward⟩
    cases finished with
    | true => rfl
    | false => exact hfinish rfl

/-- Of the invocations of the wrapper only the first is recorded. -/
theorem answers_iff (finished : Bool) (invocations : List (Invocation V)) :
    List.Forall₂ (PassedOn values) invocations (r.answers values finished invocations) ↔
      (∀ i ∈ invocations, ∀ arity, r.arity = some arity → i.args.length ≤ arity) ∧
        (finished = false → ∀ i, invocations.head? = some i → InvocationQuiet values r i) := by
  induction invocations generalizing finished with
  | nil =>
      refine iff_of_true .nil ⟨fun i h => absurd h List.not_mem_nil, fun _ i h => ?_⟩
      exact absurd h.symm (Option.some_ne_none _)
  | cons i invocations ih =>
      unfold Recorder.answers
      rw [List.forall₂_cons, ih true, passedOn_wrapped_iff, List.forall_mem_cons]
      constructor
      · rintro ⟨⟨harity, hquiet⟩, harities, -⟩
        refine ⟨⟨harity, harities⟩, fun hfinished i' h => ?_⟩
        rw [← Option.some.inj h]
        exact hquiet hfinished
      · rintro ⟨⟨harity, harities⟩, hquiet⟩
        exact ⟨⟨harity, fun hfinished => hquiet hfinished i rfl⟩, harities,
          fun h => Bool.noConfusion h⟩

theorem invocations_passedOn (run : Run V) :
    List.Forall₂ (PassedOn values) run.invocations (run.invocations.map invokeCallback) := by
  rw [List.forall₂_map_right_iff, List.forall₂_same]
  intro i _
  refine ⟨0, ?_⟩
  rw [List.replicate_zero, List.append_nil]
  exact delivers_invoke _ _

theorem forall₂_answers_append (finished : Bool) (during after : List (Invocation V))
    (effects : List (Effect V (V × List V) V)) :
    List.Forall₂ (PassedOn values) (during ++ after) (r.answers values finished during ++ effects) ↔
      List.Forall₂ (PassedOn values) during (r.answers values finished during) ∧
        List.Forall₂ (PassedOn values) after effects := by
  induction during generalizing finished with
  | nil => exact (and_iff_right .nil).symm
  | cons i during ih =>
      unfold Recorder.answers
      rw [List.cons_append, List.cons_append, List.forall₂_cons, List.forall₂_cons, ih true,
        and_assoc]

theorem finishedAfter_eq_false {run : Run V} (hduring : run.during = [])
    (hfailure : ∀ error, run.outcome = .error error → ¬ ∃ recorded,
      recordedError values error = .ok recorded) :
    Recorder.finishedAfter values run = false := by
  unfold Recorder.finishedAfter
  rw [hduring]
  cases houtcome : run.outcome with
  | ok returned => rfl
  | error error =>
      cases hrecorded : recordedError values error with
      | ok recorded => exact absurd ⟨recorded, hrecorded⟩ (hfailure error houtcome)
      | error error' => simp only [hrecorded]; rfl

theorem callbackQuiet_iff {run : Run V} (hindex : r.callbackIndex.isSome = true) :
    ((∀ error, run.outcome = .error error →
        ∃ u, r.finishFailed values (r.finishedDuring run) error = .ok u) ∧
      List.Forall₂ (PassedOn values) run.invocations
        (r.answers values false run.during ++
          r.answers values (Recorder.finishedAfter values run) run.after)) ↔
      CallbackQuiet values r run := by
  have hfinished : r.finishedDuring run = false ↔ run.during = [] := by
    rw [Recorder.finishedDuring, hindex, Bool.true_and, Bool.not_eq_false', List.isEmpty_iff]
  unfold Run.invocations
  rw [forall₂_answers_append, answers_iff, answers_iff]
  simp only [finishFailed_isOk, hfinished]
  constructor
  · rintro ⟨hfailure, ⟨hduring, hfirst⟩, hafter, hnext⟩
    refine ⟨fun i hi => ?_, hfailure, fun i hi => ?_⟩
    · exact (List.mem_append.mp hi).elim (hduring i) (hafter i)
    · unfold Run.recordedInvocation at hi
      cases hrun : run.during with
      | cons first rest =>
          rw [hrun] at hi
          exact hfirst trivial i (by rw [hrun]; exact hi)
      | nil =>
          rw [hrun] at hi
          cases houtcome : run.outcome with
          | ok returned =>
              rw [houtcome] at hi
              refine hnext (finishedAfter_eq_false values hrun fun error h => ?_) i hi
              rw [houtcome] at h
              cases h
          | error error =>
              rw [houtcome] at hi
              cases hi
  · rintro ⟨harity, hfailure, hinvocation⟩
    refine ⟨hfailure, ⟨fun i hi => harity i (List.mem_append_left _ hi), fun _ i hi => ?_⟩,
      fun i hi => harity i (List.mem_append_right _ hi), fun hfinished i hi => ?_⟩
    · refine hinvocation i ?_
      unfold Run.recordedInvocation
      cases hrun : run.during with
      | cons first rest =>
          rw [hrun] at hi
          exact hi
      | nil =>
          rw [hrun] at hi
          cases hi
    · refine hinvocation i ?_
      unfold Recorder.finishedAfter at hfinished
      obtain ⟨hduring, houtcome⟩ := (Bool.or_eq_false_iff).mp hfinished
      rw [Bool.not_eq_false', List.isEmpty_iff] at hduring
      unfold Run.recordedInvocation
      rw [hduring]
      cases hrun : run.outcome with
      | ok returned => exact hi
      | error error =>
          obtain ⟨recorded, hrecorded, -⟩ := hfailure error hrun
          rw [hrun] at houtcome
          simp only [hrecorded] at houtcome
          cases houtcome

/-- A recorded call is transparent exactly if the recorder is quiet in what the driver does. -/
theorem recorder_transparent_iff {original : Original V} {receiver : V} {passed : List (Passed V)}
    {called : V × List (Passed V)} :
    (Delivers (receiver, passed) (original (receiver, passed)).seen
        (r.tryBlock values original called) ∧
      List.Forall₂ (PassedOn values) (original (receiver, passed)).invocations
        (r.invocationsOf values (original (receiver, passed)))) ↔
      called = (receiver, passed) ∧ RecorderQuiet values r (original (receiver, passed)) := by
  rw [delivers_tryBlock, and_assoc]
  refine and_congr_right fun _ => ?_
  unfold Recorder.invocationsOf RecorderQuiet
  cases hindex : r.callbackIndex.isSome with
  | true => exact callbackQuiet_iff values r hindex
  | false => exact and_iff_left (invocations_passedOn values _)

end Results

/-! ## The patched methods -/

section Methods

variable (values : HostValues V) (deps : Deps V κ)

/-- What the driver's method is called with. -/
def passedArguments (plan : Option (Recorder V)) (args : List V) : List (Passed V) :=
  replaceCallback (plan.bind Recorder.callbackIndex) args

theorem patchedMethod_transparent_iff {prepared : Except V (Option (Recorder V))}
    {original : Original V} {receiver : V} {args forwarded : List V} :
    Transparent values original receiver args
        (patchedMethod values prepared original receiver forwarded)
        (invocationsOf values prepared) ↔
      ∃ plan, prepared = .ok plan ∧ SameArguments values args (passedArguments plan forwarded) ∧
        ∀ r, plan = some r →
          RecorderQuiet values r (original (receiver, passedArguments plan forwarded)) := by
  unfold Transparent patchedMethod
  simp only [delivers_settled_bind (settled_lift _)]
  constructor
  · rintro ⟨passed, hsame, ⟨plan, rfl, hdelivers⟩, hinvocations⟩
    refine ⟨plan, rfl, ?_⟩
    cases plan with
    | none =>
        obtain ⟨hcalled, -⟩ := delivers_invoke_iff.mp hdelivers
        obtain rfl := (Prod.mk.inj hcalled).2
        exact ⟨hsame, fun r h => absurd h.symm (Option.some_ne_none r)⟩
    | some r =>
        obtain ⟨hcalled, hquiet⟩ :=
          (recorder_transparent_iff values r).mp ⟨hdelivers, hinvocations⟩
        obtain rfl := (Prod.mk.inj hcalled).2
        refine ⟨hsame, fun r' h => ?_⟩
        obtain rfl := Option.some.inj h
        exact hquiet
  · rintro ⟨plan, rfl, hsame, hquiet⟩
    refine ⟨_, hsame, ?_⟩
    cases plan with
    | none =>
        exact ⟨⟨none, rfl, delivers_invoke_iff.mpr ⟨rfl, rfl⟩⟩, invocations_passedOn values _⟩
    | some r =>
        obtain ⟨hdelivers, hinvocations⟩ :=
          (recorder_transparent_iff values r).mpr ⟨rfl, hquiet r rfl⟩
        exact ⟨⟨some r, rfl, hdelivers⟩, hinvocations⟩

/-- Only a function is replaced. -/
theorem sameArguments_replaceCallback {index : Option Nat} {args : List V}
    (h : ∀ i, index = some i → (args[i]?).any values.isFunction = true) :
    SameArguments values args (replaceCallback index args) := by
  unfold SameArguments replaceCallback
  rw [List.forall₂_iff_get]
  refine ⟨(List.length_mapIdx).symm, fun i hi _ => ?_⟩
  rw [List.get_eq_getElem, List.get_eq_getElem, List.getElem_mapIdx]
  split
  · rename_i hindex
    have hfunction := h i hindex
    rw [List.getElem?_eq_getElem hi] at hfunction
    exact .inr ⟨hfunction, rfl⟩
  · exact .inl rfl

theorem sameArguments_length {args : List V} {passed : List (Passed V)}
    (h : SameArguments values args passed) : args.length = passed.length :=
  List.Forall₂.length_eq h

/-- Every argument is passed on, and no other: `sendCommand` takes one. -/
def DriverMethod.HandsOn (args : List V) : DriverMethod V κ → Prop
  | .redisSendCommand => args.length = 1
  | _ => True

theorem length_arguments_iff (method : DriverMethod V κ) (args : List V) :
    args.length = (method.arguments values args).length ↔ method.HandsOn args := by
  cases method with
  | redisSendCommand => exact Iff.rfl
  | _ => exact iff_true_intro rfl

theorem arguments_eq {method : DriverMethod V κ} {args : List V} (h : method.HandsOn args) :
    method.arguments values args = args := by
  cases method with
  | redisSendCommand =>
      obtain ⟨arg, rfl⟩ := List.length_eq_one_iff.mp h
      rfl
  | _ => rfl

/-- The driver's method receives the host's arguments, unless `sendCommand` drops some. -/
theorem prepare_sameArguments_iff {method : DriverMethod V κ} {receiver : V} {args : List V}
    {plan : Option (Recorder V)} (h : method.prepare values deps receiver args = .ok plan) :
    SameArguments values args (passedArguments plan (method.arguments values args)) ↔
      method.HandsOn args := by
  constructor
  · intro hsame
    rw [← length_arguments_iff values, sameArguments_length values hsame]
    exact List.length_mapIdx
  · intro hhands
    rw [arguments_eq values hhands]
    refine sameArguments_replaceCallback values fun i hi => ?_
    obtain ⟨r, hplan, hindex⟩ := Option.bind_eq_some_iff.mp hi
    exact (prepare_callbackIndex values deps (hplan ▸ h) hindex).1

/-- Nothing that the patched method does besides calling the driver's is noticed: what precedes the
call does not throw, every argument is handed on, and the recorder is quiet in what the driver
does. -/
def MethodQuiet (original : Original V) (receiver : V) (args : List V)
    (method : DriverMethod V κ) : Prop :=
  Prepared values deps receiver args method ∧ method.HandsOn args ∧
    ∀ r, method.prepare values deps receiver args = .ok (some r) →
      RecorderQuiet values r (original (receiver, replaceCallback r.callbackIndex args))

def CallTransparent (original : Original V) (receiver : V) (args : List V)
    (method : DriverMethod V κ) : Prop :=
  Transparent values original receiver args
    (patchedMethod values (method.prepare values deps receiver args) original receiver
      (method.arguments values args))
    (invocationsOf values (method.prepare values deps receiver args))

theorem method_transparent_iff (method : DriverMethod V κ) (original : Original V) (receiver : V)
    (args : List V) :
    CallTransparent values deps original receiver args method ↔
      MethodQuiet values deps original receiver args method := by
  unfold CallTransparent
  rw [patchedMethod_transparent_iff]
  unfold MethodQuiet
  rw [← prepare_succeeds_iff]
  constructor
  · rintro ⟨plan, hplan, hsame, hquiet⟩
    have hhands := (prepare_sameArguments_iff values deps hplan).mp hsame
    refine ⟨⟨plan, hplan⟩, hhands, fun r hr => ?_⟩
    obtain rfl := Except.ok.inj (hplan.symm.trans hr)
    rw [arguments_eq values hhands] at hquiet
    exact hquiet r rfl
  · rintro ⟨⟨plan, hplan⟩, hhands, hquiet⟩
    refine ⟨plan, hplan, (prepare_sameArguments_iff values deps hplan).mpr hhands, ?_⟩
    rintro r rfl
    rw [arguments_eq values hhands]
    exact hquiet r hplan

/-- The pipeline that the driver has made can be patched. -/
def PipelineQuiet : Except V (Returned V) → Prop
  | .error _ => True
  | .ok (.value pipeline) => patchPipelineInstance values deps pipeline = .ok ()
  | .ok (.promise _) => ∃ context, deps.getContext = .ok context

/-- What the patching of a pipeline comes to. -/
def patchedResult (pipeline : Seen V) : Except V (Seen V) :=
  match pipeline with
  | .value found => (patchPipelineInstance values deps found).bind fun _ => .ok pipeline
  | .promise _ => deps.getContext.bind fun _ => .ok pipeline

theorem patchedResult_back (a b : Seen V) (h : patchedResult values deps a = .ok b) : b = a := by
  cases a with
  | value found =>
      obtain ⟨_, -, h⟩ := bind_eq_ok.mp h
      exact (Except.ok.inj h).symm
  | promise settles =>
      obtain ⟨_, -, h⟩ := bind_eq_ok.mp h
      exact (Except.ok.inj h).symm

theorem patchedResult_iff (returned : Returned V) :
    patchedResult values deps returned.seen = .ok returned.seen ↔
      PipelineQuiet values deps (.ok returned) := by
  cases returned with
  | value found =>
      refine bind_eq_ok.trans ⟨?_, fun h => ⟨(), h, rfl⟩⟩
      rintro ⟨_, h, -⟩
      exact h
  | promise settles =>
      refine bind_eq_ok.trans ⟨?_, ?_⟩
      · rintro ⟨context, h, -⟩
        exact ⟨context, h⟩
      · rintro ⟨context, h⟩
        exact ⟨context, h, rfl⟩

theorem delivers_patchedPipeline {original : Original V} {receiver : V} {args : List V}
    {arguments : V × List (Passed V)} {outcome : Except V (Seen V)} :
    Delivers arguments outcome (patchedPipeline values deps original receiver args) ↔
      ((receiver, replaceCallback none args) = arguments ∧
        (original (receiver, replaceCallback none args)).seen = outcome) ∧
        ∀ a, outcome = .ok a → patchedResult values deps a = .ok a := by
  refine (delivers_bind_settled (fun a => ?_) (patchedResult_back values deps)).trans
    (and_congr_left' delivers_invoke_iff)
  cases a with
  | value found => exact (settled_lift _).bind fun _ => settled_pure _
  | promise settles => exact (settled_lift _).bind fun _ => settled_pure _

theorem patchedPipeline_transparent_iff (original : Original V) (receiver : V) (args : List V) :
    Transparent values original receiver args
        (patchedPipeline values deps original receiver args)
        (invocationsOf values (.ok none)) ↔
      PipelineQuiet values deps (original (receiver, replaceCallback none args)).outcome := by
  have hquiet : (∀ a, (original (receiver, replaceCallback none args)).seen = .ok a →
      patchedResult values deps a = .ok a) ↔
      PipelineQuiet values deps (original (receiver, replaceCallback none args)).outcome := by
    unfold Run.seen
    cases (original (receiver, replaceCallback none args)).outcome with
    | error error =>
        refine iff_of_true (fun a h => ?_) trivial
        cases h
    | ok returned =>
        rw [← patchedResult_iff]
        refine ⟨fun h => h _ rfl, fun h a ha => ?_⟩
        obtain rfl := Except.ok.inj ha
        exact h
  rw [← hquiet]
  constructor
  · rintro ⟨passed, -, hdelivers, -⟩
    obtain ⟨⟨hcalled, -⟩, h⟩ := (delivers_patchedPipeline values deps).mp hdelivers
    obtain rfl := (Prod.mk.inj hcalled).2
    exact h
  · intro h
    refine ⟨replaceCallback none args, sameArguments_replaceCallback values fun i hi => ?_,
      (delivers_patchedPipeline values deps).mpr ⟨⟨rfl, rfl⟩, h⟩, invocations_passedOn values _⟩
    cases hi

end Methods

/-! ## What is noticed -/

/-- `0` is `undefined`, `1` a text, and `2` an array with the parameter `3`, whose `toJSON` and
`toString` throw `4`. -/
def unprintable : HostValues Nat where
  undefined := 0
  isUndefined value := value == 0
  isNullish value := value == 0
  isTrue _ := false
  isObject value := value == 2 || value == 3
  isFunction _ := false
  string value := if value = 1 then some "SELECT $1".toList else none
  number _ := none
  array value := if value = 2 then some [3] else none
  ofArray _ := 2
  isError _ := .ok false
  has _ _ := .ok false
  get _ _ := .ok 0
  keys _ := .ok []
  stringify value := if value = 3 then .error 4 else .ok none
  toText value := if value = 3 then .error 4 else .ok []
  interpolate _ := .ok []
  define _ _ := .ok ()
  assign _ _ := .ok ()

/-- No component of the recorder throws. -/
def quietDeps : Deps Nat Unit where
  getContext := .ok none
  ensureTraceMaterialized _ := .ok ()
  push _ := .ok ()
  pushIOEvent _ := .ok ()
  captureDbBindParams := false
  scrubValue := id
  scrubKeyValueAssignments := id
  redactSensitiveQueryText := id
  scrubCacheKey := id
  toUpperCase := id
  hasActivePoolQuery _ _ := false
  isRecording _ := false

/-- A driver that returns `undefined`. -/
def silentDriver : Original Nat := fun _ => ⟨[], .ok (.value 0), []⟩

end ErrorCore.Patches
