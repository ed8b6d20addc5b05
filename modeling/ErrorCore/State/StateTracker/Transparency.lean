import ErrorCore.State.StateTracker
import ErrorCore.Foundation.CappedLog
import Mathlib.Data.List.Induction

/-!
# When tracking is invisible, and what the log then holds

The proxy differs from the map in two ways that a host can see. Reading a
property that holds a function gives another function, and the third argument
of a `forEach` callback is the target instead of the proxy, so that it is a
different object and what is done with it is not logged. A run is transparent
exactly when the plain run has neither; how the recorder behaves, and whether it
throws, has no influence.

In a transparent run in which the recorder does not throw, the log of a request
is a prefix of its calls in order, provided that serializing the recorded values
runs no trap of its own.
-/

namespace ErrorCore

namespace StateTracker

variable {V C : Type}

/-! ## What the host sees -/

/-- An event that shows a function read from a proxy, or the map argument of a callback. -/
def Event.Leaks : Event V → Prop
  | .call _ handle (.property _) _ (.function _) => handle.isProxy = true
  | .callback handle _ _ (some _) => handle.isProxy = true
  | _ => False

/-- The events of a plain run: functions are those of the prototype, the argument is the map. -/
def Event.IsPlain : Event V → Prop
  | .call _ _ (.property _) _ (.function value) => ∃ name, value = .native name
  | .callback handle _ _ (some argument) => argument = handle
  | _ => True

/-- The events of a tracked run: functions are closures or bound, the argument is the target. -/
def Event.IsTracked : Event V → Prop
  | .call _ handle (.property _) _ (.function value) =>
      handle.isProxy = true → ∀ name, value ≠ .native name
  | .callback handle _ _ (some argument) => argument = ⟨handle.map, false⟩
  | _ => True

theorem Event.not_leaks {event : Event V} (hplain : event.IsPlain) (htracked : event.IsTracked) :
    ¬ event.Leaks := by
  intro hleaks
  cases event with
  | call context handle op entries result =>
      cases op with
      | property name =>
          cases result with
          | function value =>
              obtain ⟨name, rfl⟩ := hplain
              exact htracked hleaks name rfl
          | undefined | value | boolean | number | map | iterator | entry | done | typeError
          | threw => exact hleaks
      | set | delete | get | has | entries | values | keys | iterator | clear | size
      | forEachNotCallable => exact hleaks
  | next iterator result => exact hleaks
  | forEach context handle entries => exact hleaks
  | callback handle value key argument =>
      cases argument with
      | none => exact hleaks
      | some argument =>
          obtain rfl : argument = handle := hplain
          have hraw : argument.isProxy = false := congrArg Handle.isProxy htracked
          exact Bool.false_ne_true (hraw.symm.trans hleaks)

section Semantics

variable [DecidableEq V] {realm : Realm V} {tracker : Tracker V C}

/-! ## Every event of a run -/

/-- A property holds a function, which the plain map gives away as it is, or another value. -/
theorem read_cases (realm : Realm V) (name : Text) :
    realm.read name = .function (.native name) ∨ (∃ value, realm.read name = .value value) ∨
      realm.read name = .undefined := by
  unfold Realm.read
  split
  · exact .inl rfl
  · cases realm.property name with
    | some value => exact .inr (.inl ⟨value, rfl⟩)
    | none => exact .inr (.inr rfl)

/-- The trap gives a function away in another form, and any other value as it is. -/
theorem readProperty_cases (realm : Realm V) (map : Nat) (name : Text) :
    (∃ value original, readProperty realm map name = .function value ∧
        (∀ name, value ≠ .native name) ∧ realm.read name = .function original) ∨
      readProperty realm map name = realm.read name ∧
        ∀ value, realm.read name ≠ .function value := by
  unfold readProperty
  split
  · rename_i hmem
    refine .inl ⟨_, .native name, rfl, fun _ h => FunctionValue.noConfusion h, ?_⟩
    unfold Realm.read
    rw [if_pos (realm.methods name hmem)]
  · rcases read_cases realm name with h | ⟨value, h⟩ | h
    · rw [h]
      exact .inl ⟨_, _, rfl, fun _ h => FunctionValue.noConfusion h, rfl⟩
    · rw [h]
      exact .inr ⟨rfl, fun _ h => by cases h⟩
    · rw [h]
      exact .inr ⟨rfl, fun _ h => by cases h⟩

theorem isPlain_of_read {context : Option Nat} {handle : Handle} {name : Text}
    {entries : List (V × V)} :
    (Event.call context handle (.property name) entries (realm.read name)).IsPlain := by
  rcases read_cases realm name with h | ⟨value, h⟩ | h
  · rw [h]
    exact ⟨name, rfl⟩
  · rw [h]
    trivial
  · rw [h]
    trivial

theorem native_isPlain (world : World V) (context : Option Nat) (handle : Handle) (op : Op V)
    (entries : List (V × V)) :
    (Event.call context handle op entries (native realm world handle op).2).IsPlain := by
  cases op with
  | property name => exact isPlain_of_read
  | set | delete | get | has | entries | values | keys | iterator | clear | size
  | forEachNotCallable => trivial

theorem createMapProxy_isTracked (state : Tracked V C) (context : Option Nat) (map : Nat)
    (op : Op V) (entries : List (V × V)) :
    (Event.call context ⟨map, true⟩ op entries
      (createMapProxy realm tracker map state context op).2).IsTracked := by
  cases op with
  | property name =>
      have hresult : (createMapProxy realm tracker map state context (.property name)).2 =
          readProperty realm map name := rfl
      rw [hresult]
      rcases readProperty_cases realm map name with ⟨value, _, h, hvalue, -⟩ | ⟨h, hvalue⟩
      · rw [h]
        exact fun _ => hvalue
      · rw [h]
        rcases read_cases realm name with h' | ⟨value, h'⟩ | h'
        · exact absurd h' (hvalue _)
        · rw [h']
          trivial
        · rw [h']
          trivial
  | set | delete | get | has | entries | values | keys | iterator | clear | size
  | forEachNotCallable => trivial

theorem call_isTracked (state : Tracked V C) (context : Option Nat) (handle : Handle) (op : Op V)
    (entries : List (V × V)) :
    (Event.call context handle op entries
      ((trackedMaps realm tracker).call state context handle op).2).IsTracked := by
  obtain ⟨map, isProxy⟩ := handle
  cases isProxy with
  | true => exact createMapProxy_isTracked state context map op entries
  | false =>
      cases op with
      | property name =>
          have hresult : ((trackedMaps realm tracker).call state context ⟨map, false⟩
              (.property name)).2 = realm.read name := rfl
          rw [hresult]
          rcases read_cases realm name with h | ⟨value, h⟩ | h
          · rw [h]
            exact fun h => absurd h Bool.false_ne_true
          · rw [h]
            trivial
          · rw [h]
            trivial
      | set | delete | get | has | entries | values | keys | iterator | clear | size
      | forEachNotCallable => trivial

end Semantics

section Runs

variable {S : Type} {semantics : Semantics S V} {P : Event V → Prop}

/-- What a step adds to the trace. -/
theorem step_trace (semantics : Semantics S V) (config : Config S V) :
    (step semantics config).trace = config.trace ∨
      ∃ event, (step semantics config).trace = config.trace ++ [event] ∧
        ((∃ context handle op entries, event = .call context handle op entries
            (semantics.call config.state context handle op).2) ∨
          (∃ iterator result, event = .next iterator result) ∨
          (∃ context handle entries, event = .forEach context handle entries) ∨
          ∃ handle value key, event = .callback handle value key none ∨
            event = .callback handle value key (some (semantics.argument handle))) := by
  unfold step
  cases config.program with
  | call context handle op rest => exact .inr ⟨_, rfl, .inl ⟨_, _, _, _, rfl⟩⟩
  | next iterator rest => exact .inr ⟨_, rfl, .inr (.inl ⟨_, _, rfl⟩)⟩
  | forEach context handle usesMap callback rest =>
      exact .inr ⟨_, rfl, .inr (.inr (.inl ⟨_, _, _, rfl⟩))⟩
  | finish thrown =>
      dsimp only
      unfold resume
      cases config.stack with
      | nil => exact .inl rfl
      | cons frame stack =>
          cases thrown with
          | some value => exact .inl rfl
          | none =>
              dsimp only
              cases nextEntry semantics config.state frame with
              | none => exact .inl rfl
              | some found =>
                  refine .inr ⟨_, rfl, .inr (.inr (.inr ⟨frame.handle, found.2.2, found.2.1, ?_⟩))⟩
                  cases frame.usesMap with
                  | true => exact .inr rfl
                  | false => exact .inl rfl

/-- A property of every event that a step may add is a property of every event of a run. -/
theorem run_forall {config : Config S V}
    (hcall : ∀ state context handle op entries,
      P (.call context handle op entries (semantics.call state context handle op).2))
    (hnext : ∀ iterator result, P (.next iterator result))
    (hforEach : ∀ context handle entries, P (.forEach context handle entries))
    (hnone : ∀ handle value key, P (.callback handle value key none))
    (hsome : ∀ handle value key,
      P (.callback handle value key (some (semantics.argument handle))))
    (h : ∀ event ∈ config.trace, P event) (n : Nat) :
    ∀ event ∈ (run semantics config n).trace, P event := by
  induction n with
  | zero => exact h
  | succ n ih =>
      unfold run
      rcases step_trace semantics (run semantics config n) with
        htrace | ⟨added, htrace, hadded⟩
      · rwa [htrace]
      · intro event hmem
        rw [htrace] at hmem
        rcases List.mem_append.mp hmem with hmem | hmem
        · exact ih event hmem
        · rw [List.mem_singleton.mp hmem]
          rcases hadded with ⟨_, _, _, _, rfl⟩ | ⟨_, _, rfl⟩ | ⟨_, _, _, rfl⟩ |
            ⟨_, _, _, rfl | rfl⟩
          · exact hcall _ _ _ _ _
          · exact hnext _ _
          · exact hforEach _ _ _
          · exact hnone _ _ _
          · exact hsome _ _ _

/-- The trace only grows. -/
theorem trace_prefix_step (config : Config S V) :
    config.trace <+: (step semantics config).trace := by
  rcases step_trace semantics config with htrace | ⟨added, htrace, -⟩
  · exact htrace ▸ List.prefix_rfl
  · rw [htrace]
    exact List.prefix_append _ _

end Runs

section Transparency

variable [DecidableEq V] {realm : Realm V} {tracker : Tracker V C}

theorem plain_events (world : World V) (program : Program V) (n : Nat) :
    ∀ event ∈ (run (plainMaps realm) (start world program) n).trace, event.IsPlain :=
  run_forall native_isPlain (fun _ _ => trivial) (fun _ _ _ => trivial) (fun _ _ _ => trivial)
    (fun _ _ _ => rfl) (fun _ h => absurd h List.not_mem_nil) n

theorem tracked_events (state : Tracked V C) (program : Program V) (n : Nat) :
    ∀ event ∈ (run (trackedMaps realm tracker) (start state program) n).trace,
      event.IsTracked :=
  run_forall call_isTracked (fun _ _ => trivial) (fun _ _ _ => trivial) (fun _ _ _ => trivial)
    (fun _ _ _ => rfl) (fun _ h => absurd h List.not_mem_nil) n

/-! ## Lockstep -/

/-- The two runs differ in the recorder only. -/
structure Agrees (tracked : Config (Tracked V C) V) (plain : Config (World V) V) : Prop where
  world : tracked.state.world = plain.state
  program : tracked.program = plain.program
  stack : tracked.stack = plain.stack
  trace : tracked.trace = plain.trace

omit [DecidableEq V] in
theorem write_world (state : Tracked V C) (context : Option Nat) (call : Call V) :
    (state.write tracker context call).world = state.world := by
  unfold Tracked.write
  split <;> rfl

/-- On a target and through its proxy an operation has the same effect, and the same result unless
it reads a function. -/
theorem createMapProxy_agrees (state : Tracked V C) (context : Option Nat) (map : Nat) (op : Op V)
    (hread : ∀ name value, op = .property name → realm.read name ≠ .function value) :
    (createMapProxy realm tracker map state context op).1.world =
        (native realm state.world ⟨map, true⟩ op).1 ∧
      (createMapProxy realm tracker map state context op).2 =
        (native realm state.world ⟨map, true⟩ op).2 := by
  cases op with
  | set key value => exact ⟨write_world _ _ _, rfl⟩
  | delete key => exact ⟨write_world _ _ _, rfl⟩
  | property name =>
      refine ⟨rfl, ?_⟩
      rcases readProperty_cases realm map name with ⟨_, original, -, -, h⟩ | ⟨h, -⟩
      · exact absurd h (hread name original rfl)
      · exact h
  | get | has | entries | values | keys | iterator | clear | size | forEachNotCallable =>
      exact ⟨rfl, rfl⟩

theorem call_agrees (tracker : Tracker V C) (state : Tracked V C) (context : Option Nat)
    (handle : Handle) (op : Op V)
    (hread : ∀ name value, op = .property name → handle.isProxy = true →
      realm.read name ≠ .function value) :
    ((trackedMaps realm tracker).call state context handle op).1.world =
        (native realm state.world handle op).1 ∧
      ((trackedMaps realm tracker).call state context handle op).2 =
        (native realm state.world handle op).2 := by
  obtain ⟨map, isProxy⟩ := handle
  cases isProxy with
  | true =>
      exact createMapProxy_agrees state context map op fun name value hop =>
        hread name value hop rfl
  | false => exact ⟨rfl, rfl⟩

theorem beginForEach_world (state : Tracked V C) (context : Option Nat) (handle : Handle) :
    ((trackedMaps realm tracker).beginForEach state context handle).world = state.world := by
  unfold trackedMaps
  dsimp only
  split <;> rfl

/-- The callback gets the same arguments when it does not use the map. -/
theorem resume_agrees {state : Tracked V C} {program : Program V} {stack : List (Frame V)}
    {trace : List (Event V)} (thrown : Option V)
    (hleaks : ∀ event ∈
      (resume (plainMaps realm) thrown ⟨state.world, program, stack, trace⟩).trace,
        ¬ event.Leaks) :
    Agrees (resume (trackedMaps realm tracker) thrown ⟨state, program, stack, trace⟩)
      (resume (plainMaps realm) thrown ⟨state.world, program, stack, trace⟩) := by
  unfold resume at hleaks ⊢
  cases stack with
  | nil => exact ⟨rfl, rfl, rfl, rfl⟩
  | cons frame stack =>
      cases thrown with
      | some value => exact ⟨rfl, rfl, rfl, rfl⟩
      | none =>
          have hentry : nextEntry (trackedMaps realm tracker) state frame =
              nextEntry (plainMaps realm) state.world frame := rfl
          dsimp only at hleaks ⊢
          rw [hentry]
          cases hfound : nextEntry (plainMaps realm) state.world frame with
          | none => exact ⟨rfl, rfl, rfl, rfl⟩
          | some found =>
              obtain ⟨index, key, value⟩ := found
              rw [hfound] at hleaks
              obtain ⟨⟨map, isProxy⟩, next, usesMap, callback, rest⟩ := frame
              cases usesMap with
              | false => exact ⟨rfl, rfl, rfl, rfl⟩
              | true =>
                  have hmem := hleaks (.callback ⟨map, isProxy⟩ value key (some ⟨map, isProxy⟩))
                    (List.mem_append_right _ (List.mem_singleton.mpr rfl))
                  have hraw : isProxy = false := Bool.not_eq_true isProxy ▸ hmem
                  subst hraw
                  exact ⟨rfl, rfl, rfl, rfl⟩

/-- As long as the plain run leaks nothing, a step keeps the two runs together. -/
theorem step_agrees {tracked : Config (Tracked V C) V} {plain : Config (World V) V}
    (h : Agrees tracked plain)
    (hleaks : ∀ event ∈ (step (plainMaps realm) plain).trace, ¬ event.Leaks) :
    Agrees (step (trackedMaps realm tracker) tracked) (step (plainMaps realm) plain) := by
  obtain ⟨state, program, stack, trace⟩ := tracked
  obtain ⟨world, program', stack', trace'⟩ := plain
  obtain ⟨rfl, rfl, rfl, rfl⟩ := h
  cases program with
  | call context handle op rest =>
      have hread : ∀ name value, op = .property name → handle.isProxy = true →
          realm.read name ≠ .function value := by
        rintro name value rfl hproxy hvalue
        refine hleaks (.call context handle (.property name)
          (entriesOf (plainMaps realm) state.world handle) (.function value)) ?_ hproxy
        rw [← hvalue]
        exact List.mem_append_right _ (List.mem_singleton.mpr rfl)
      obtain ⟨hworld, hresult⟩ := call_agrees tracker state context handle op hread
      refine ⟨hworld, congrArg rest hresult, rfl, ?_⟩
      exact congrArg (fun result => trace ++ [Event.call context handle op
        (entriesOf (plainMaps realm) state.world handle) result]) hresult
  | next iterator rest => exact ⟨rfl, rfl, rfl, rfl⟩
  | forEach context handle usesMap callback rest =>
      have hworld : ((trackedMaps realm tracker).beginForEach state context handle).world =
          state.world := beginForEach_world state context handle
      exact ⟨hworld, rfl, rfl, rfl⟩
  | finish thrown => exact resume_agrees thrown hleaks

theorem run_agrees (tracker : Tracker V C) {state : Tracked V C} {program : Program V} {n : Nat}
    (hleaks : ∀ event ∈ (run (plainMaps realm) (start state.world program) n).trace,
      ¬ event.Leaks) :
    Agrees (run (trackedMaps realm tracker) (start state program) n)
      (run (plainMaps realm) (start state.world program) n) := by
  induction n with
  | zero => exact ⟨rfl, rfl, rfl, rfl⟩
  | succ n ih =>
      refine step_agrees (ih fun event hmem => hleaks event ?_) hleaks
      exact (trace_prefix_step _).subset hmem

end Transparency

/-! ## The log -/

/-- The read that a call on a proxy is, with the request it belongs to. -/
def Event.read? : Event V → Option (Option Nat × Call V)
  | .call context ⟨map, true⟩ op entries result =>
      match op with
      | .get key => some (context, ⟨map, .get, .value key, result.payload⟩)
      | .has key => some (context, ⟨map, .has, .value key, result.payload⟩)
      | .entries => some (context, ⟨map, .entries, .absent, .entries entries⟩)
      | .values => some (context, ⟨map, .values, .absent, .values (entries.map Prod.snd)⟩)
      | .forEachNotCallable => some (context, ⟨map, .forEach, .absent, .entries entries⟩)
      | _ => none
  | .forEach context ⟨map, true⟩ entries =>
      some (context, ⟨map, .forEach, .absent, .entries entries⟩)
  | _ => none

/-- The write that a call on a proxy is. -/
def Event.write? : Event V → Option (Option Nat × Call V)
  | .call context ⟨map, true⟩ op _ _ =>
      match op with
      | .set key value => some (context, ⟨map, .set, .value key, .value value⟩)
      | .delete key => some (context, ⟨map, .delete, .value key, .absent⟩)
      | _ => none
  | _ => none

/-- The call, if it belongs to the request. -/
def callIn (context : Nat) : Option (Option Nat × Call V) → Option (Call V)
  | some (some id, call) => if id = context then some call else none
  | _ => none

/-- The calls of one request. -/
def callsOf (kind : Event V → Option (Option Nat × Call V)) (context : Nat)
    (trace : List (Event V)) : List (Call V) :=
  trace.filterMap fun event => callIn context (kind event)

/-- What an event makes the recorder do. -/
def recordEvent (tracker : Tracker V C) (recorder : Recorder C) (event : Event V) : Recorder C :=
  match event.read?, event.write? with
  | some (context, call), _ => safeRecordStateRead tracker context call recorder
  | none, some (context, call) =>
      if tracker.captureWrites then safeRecordStateWrite tracker context call recorder
      else recorder
  | none, none => recorder

section Log

variable [DecidableEq V] {realm : Realm V} {tracker : Tracker V C}

omit [DecidableEq V] in
theorem write_recorder (state : Tracked V C) (context : Option Nat) (call : Call V) :
    (state.write tracker context call).recorder =
      if tracker.captureWrites then safeRecordStateWrite tracker context call state.recorder
      else state.recorder := by
  unfold Tracked.write
  split <;> rfl

theorem call_records (state : Tracked V C) (context : Option Nat) (handle : Handle) (op : Op V) :
    ((trackedMaps realm tracker).call state context handle op).1.recorder =
      recordEvent tracker state.recorder (.call context handle op
        (entriesOf (trackedMaps realm tracker) state handle)
        ((trackedMaps realm tracker).call state context handle op).2) := by
  obtain ⟨map, isProxy⟩ := handle
  cases isProxy with
  | false => rfl
  | true =>
      cases op with
      | set key value => exact write_recorder _ _ _
      | delete key => exact write_recorder _ _ _
      | get | has | entries | values | keys | iterator | clear | size | property
      | forEachNotCallable => rfl

theorem beginForEach_records (state : Tracked V C) (context : Option Nat) (handle : Handle) :
    ((trackedMaps realm tracker).beginForEach state context handle).recorder =
      recordEvent tracker state.recorder (.forEach context handle
        (entriesOf (trackedMaps realm tracker) state handle)) := by
  obtain ⟨map, isProxy⟩ := handle
  cases isProxy <;> rfl

/-- The recorder follows the trace. -/
theorem step_records {config : Config (Tracked V C) V} {recorder : Recorder C}
    (h : config.state.recorder = config.trace.foldl (recordEvent tracker) recorder) :
    (step (trackedMaps realm tracker) config).state.recorder =
      (step (trackedMaps realm tracker) config).trace.foldl (recordEvent tracker) recorder := by
  obtain ⟨state, program, stack, trace⟩ := config
  have happend : ∀ event, (trace ++ [event]).foldl (recordEvent tracker) recorder =
      recordEvent tracker state.recorder event := by
    intro event
    rw [List.foldl_append, List.foldl_cons, List.foldl_nil, ← h]
  cases program with
  | call context handle op rest =>
      exact (call_records state context handle op).trans (happend _).symm
  | next iterator rest => exact (happend (.next iterator _)).symm
  | forEach context handle usesMap callback rest =>
      exact (beginForEach_records state context handle).trans (happend _).symm
  | finish thrown =>
      have hresume : step (trackedMaps realm tracker) ⟨state, .finish thrown, stack, trace⟩ =
          resume (trackedMaps realm tracker) thrown ⟨state, .finish thrown, stack, trace⟩ := rfl
      rw [hresume]
      unfold resume
      cases stack with
      | nil => exact h
      | cons frame stack =>
          cases thrown with
          | some value => exact h
          | none =>
              dsimp only
              cases nextEntry (trackedMaps realm tracker) state frame with
              | none => exact h
              | some found => exact (happend (.callback frame.handle found.2.2 found.2.1 _)).symm

theorem run_records (state : Tracked V C) (program : Program V) (n : Nat) :
    (run (trackedMaps realm tracker) (start state program) n).state.recorder =
      (run (trackedMaps realm tracker) (start state program) n).trace.foldl (recordEvent tracker)
        state.recorder := by
  induction n with
  | zero => rfl
  | succ n ih => exact step_records ih

end Log

/-! ## What a call of the recorder adds -/

section Recording

variable {tracker : Tracker V C} {recorder : Recorder C} {call : Call V}

/-- Serializing the call runs no trap of a tracked map. -/
def Quiet (tracker : Tracker V C) (call : Call V) : Prop :=
  ∀ seq, tracker.nested seq call.key = [] ∧ tracker.nested seq call.value = []

def NeverThrows (tracker : Tracker V C) : Prop := ∀ number, tracker.fault number = none

/-- The entry is the one for the call, whatever its number. -/
def Records (tracker : Tracker V C) (entry : StateEntry C) (call : Call V) : Prop :=
  entry = entryOf tracker entry.seq call

namespace Recorder

/-- One more call has been made. -/
def count (recorder : Recorder C) : Recorder C := { recorder with calls := recorder.calls + 1 }

end Recorder

theorem serialize_quiet {context seq : Nat} {payload : Payload V}
    (h : tracker.nested seq payload = []) :
    serialize tracker context seq payload recorder = recorder := by
  unfold serialize
  rw [h]
  rfl

theorem safeRecordStateRead_none (hfault : NeverThrows tracker) :
    safeRecordStateRead tracker none call recorder = recorder.count := by
  simp only [safeRecordStateRead, recordStateRead, hfault recorder.calls]
  rfl

theorem safeRecordStateWrite_none (hfault : NeverThrows tracker) :
    safeRecordStateWrite tracker none call recorder = recorder.count := by
  simp only [safeRecordStateWrite, recordStateWrite, hfault recorder.calls]
  rfl

theorem safeRecordStateRead_some (hfault : NeverThrows tracker) (hquiet : Quiet tracker call)
    (context : Nat) :
    safeRecordStateRead tracker (some context) call recorder =
      if maxStateReadsPerContext ≤ (recorder.contexts context).stateReads.length then recorder.count
      else recorder.count.tick.pushRead context
        (entryOf tracker recorder.count.tick.eventClock.value call) := by
  simp only [safeRecordStateRead, recordStateRead, hfault recorder.calls, reduceCtorEq, if_false,
    serialize_quiet (hquiet _).1, serialize_quiet (hquiet _).2]
  split <;> rfl

theorem safeRecordStateWrite_some (hfault : NeverThrows tracker) (hquiet : Quiet tracker call)
    (context : Nat) :
    safeRecordStateWrite tracker (some context) call recorder =
      if tracker.maxWritesPerContext ≤ (recorder.contexts context).stateWrites.length then
        recorder.count.dropWrite context
      else recorder.count.tick.pushWrite context
        (entryOf tracker recorder.count.tick.eventClock.value call) := by
  simp only [safeRecordStateWrite, recordStateWrite, hfault recorder.calls, reduceCtorEq, if_false,
    serialize_quiet (hquiet _).1, serialize_quiet (hquiet _).2, ite_self, false_and]
  split <;> rfl

/-- The log of a request: the first reads and writes in order, and how many writes are missing. -/
structure FaithfulLog (tracker : Tracker V C) (request : RequestContext C)
    (reads writes : List (Call V)) : Prop where
  dropped : request.completenessOverflow.getD 0 = writes.length - tracker.maxWritesPerContext
  reads : CappedLog.Keeps (Records tracker) maxStateReadsPerContext request.stateReads reads
  writes : CappedLog.Keeps (Records tracker) tracker.maxWritesPerContext request.stateWrites writes
  readSeqs : (request.stateReads.map StateEntry.seq).Pairwise (· < ·)
  writeSeqs : (request.stateWrites.map StateEntry.seq).Pairwise (· < ·)

/-- The invariant of a request's log: every number in it is one that the clock has shown. -/
structure Logged (tracker : Tracker V C) (clock : Nat) (request : RequestContext C)
    (reads writes : List (Call V)) : Prop where
  dropped : request.completenessOverflow.getD 0 = writes.length - tracker.maxWritesPerContext
  reads : CappedLog.Keeps (Records tracker) maxStateReadsPerContext request.stateReads reads
  writes : CappedLog.Keeps (Records tracker) tracker.maxWritesPerContext request.stateWrites writes
  readSeqs : CappedLog.Stamped StateEntry.seq clock request.stateReads
  writeSeqs : CappedLog.Stamped StateEntry.seq clock request.stateWrites

theorem Logged.faithful {clock : Nat} {request : RequestContext C} {reads writes : List (Call V)}
    (h : Logged tracker clock request reads writes) : FaithfulLog tracker request reads writes :=
  ⟨h.dropped, h.reads, h.writes, h.readSeqs.increasing, h.writeSeqs.increasing⟩

section Logged

variable {clock clock' : Nat} {request : RequestContext C} {reads writes : List (Call V)}

theorem Logged.mono (h : Logged tracker clock request reads writes) (hle : clock ≤ clock') :
    Logged tracker clock' request reads writes :=
  { h with readSeqs := h.readSeqs.mono hle, writeSeqs := h.writeSeqs.mono hle }

theorem Logged.pushRead (h : Logged tracker clock request reads writes) (hlt : clock < clock')
    (hroom : ¬ maxStateReadsPerContext ≤ request.stateReads.length) :
    Logged tracker clock'
      { request with stateReads := request.stateReads ++ [entryOf tracker clock' call] }
      (reads ++ [call]) writes :=
  { dropped := h.dropped
    reads := h.reads.push (Nat.lt_of_not_le hroom) rfl
    writes := h.writes
    readSeqs := h.readSeqs.push (entryOf tracker clock' call) hlt
    writeSeqs := h.writeSeqs.mono (Nat.le_of_lt hlt) }

theorem Logged.skipRead (h : Logged tracker clock request reads writes)
    (hfull : maxStateReadsPerContext ≤ request.stateReads.length) :
    Logged tracker clock request (reads ++ [call]) writes :=
  { h with reads := h.reads.skip hfull }

theorem Logged.pushWrite (h : Logged tracker clock request reads writes) (hlt : clock < clock')
    (hroom : ¬ tracker.maxWritesPerContext ≤ request.stateWrites.length) :
    Logged tracker clock'
      { request with stateWrites := request.stateWrites ++ [entryOf tracker clock' call] }
      reads (writes ++ [call]) := by
  have hlength := h.writes.length
  refine ⟨?_, h.reads, h.writes.push (Nat.lt_of_not_le hroom) rfl,
    h.readSeqs.mono (Nat.le_of_lt hlt),
    h.writeSeqs.push (entryOf tracker clock' call) hlt⟩
  have hdropped := h.dropped
  rw [List.length_append, List.length_singleton]
  dsimp only
  omega

theorem Logged.dropWrite (h : Logged tracker clock request reads writes)
    (hfull : tracker.maxWritesPerContext ≤ request.stateWrites.length) :
    Logged tracker clock
      { request with completenessOverflow := some (request.completenessOverflow.getD 0 + 1) }
      reads (writes ++ [call]) := by
  have hlength := h.writes.length
  refine ⟨?_, h.reads, h.writes.skip hfull, h.readSeqs, h.writeSeqs⟩
  have hdropped := h.dropped
  rw [List.length_append, List.length_singleton]
  dsimp only [Option.getD_some]
  omega

end Logged

/-- Every request's log follows the trace. -/
def AllLogged (tracker : Tracker V C) (recorder : Recorder C) (trace : List (Event V)) : Prop :=
  ∀ id, Logged tracker recorder.eventClock.value (recorder.contexts id)
    (callsOf Event.read? id trace) (callsOf Event.write? id trace)

theorem callsOf_append (kind : Event V → Option (Option Nat × Call V)) (id : Nat)
    (trace : List (Event V)) (event : Event V) :
    callsOf kind id (trace ++ [event]) = callsOf kind id trace ++ callsOf kind id [event] :=
  List.filterMap_append

/-- An event is not both a read and a write. -/
theorem Event.read?_or_write? (event : Event V) : event.read? = none ∨ event.write? = none := by
  cases event with
  | call context handle op entries result =>
      obtain ⟨map, isProxy⟩ := handle
      cases isProxy with
      | false => exact .inl rfl
      | true => cases op <;> first | exact .inl rfl | exact .inr rfl
  | next iterator result => exact .inl rfl
  | forEach context handle entries => exact .inr rfl
  | callback handle value key argument => exact .inl rfl

/-- Below its ceiling the clock shows a new number at every tick. -/
theorem tick_lt (h : recorder.eventClock.value < maxSafeInteger) :
    recorder.eventClock.value < recorder.count.tick.eventClock.value :=
  EventClock.value_lt_tick h

section Step

variable {kind : Event V → Option (Option Nat × Call V)} {trace : List (Event V)}
  {event : Event V} {context id : Nat}

theorem callsOf_concat_self (h : kind event = some (some context, call)) :
    callsOf kind context (trace ++ [event]) = callsOf kind context trace ++ [call] := by
  rw [callsOf_append]
  unfold callsOf
  rw [List.filterMap_cons, h, callIn, if_pos rfl]
  rfl

/-- An event that is no such call of the request leaves its calls as they are. -/
theorem callsOf_concat_of_ne (h : ∀ call, kind event ≠ some (some id, call)) :
    callsOf kind id (trace ++ [event]) = callsOf kind id trace := by
  have hnone : callIn id (kind event) = none := by
    rcases hkind : kind event with _ | ⟨_ | other, call⟩
    · rfl
    · rfl
    · refine if_neg fun heq : other = id => h call ?_
      rw [hkind, heq]
  rw [callsOf_append]
  unfold callsOf
  rw [List.filterMap_cons, hnone, List.filterMap_nil, List.append_nil]

/-- The log of a request that the event does not belong to. -/
theorem Logged.concat {clock : Nat} {request : RequestContext C}
    (h : Logged tracker clock request (callsOf Event.read? id trace)
      (callsOf Event.write? id trace))
    (hread : ∀ call, event.read? ≠ some (some id, call))
    (hwrite : ∀ call, event.write? ≠ some (some id, call)) :
    Logged tracker clock request (callsOf Event.read? id (trace ++ [event]))
      (callsOf Event.write? id (trace ++ [event])) := by
  rw [callsOf_concat_of_ne hread, callsOf_concat_of_ne hwrite]
  exact h

theorem update_contexts_self (change : RequestContext C → RequestContext C) :
    (recorder.update context change).contexts context = change (recorder.contexts context) :=
  if_pos rfl

theorem update_contexts_of_ne (change : RequestContext C → RequestContext C) (h : id ≠ context) :
    (recorder.update context change).contexts id = recorder.contexts id :=
  if_neg h

theorem AllLogged.read (h : AllLogged tracker recorder trace) (hfault : NeverThrows tracker)
    (hquiet : Quiet tracker call) (hclock : recorder.eventClock.value < maxSafeInteger)
    (hread : event.read? = some (some context, call)) :
    AllLogged tracker (safeRecordStateRead tracker (some context) call recorder)
      (trace ++ [event]) := by
  have hwrite : ∀ id call, event.write? ≠ some (some id, call) := by
    intro id call
    rw [event.read?_or_write?.resolve_left (hread ▸ Option.some_ne_none _)]
    exact (Option.some_ne_none _).symm
  have hother : ∀ id, id ≠ context → ∀ call, event.read? ≠ some (some id, call) := by
    intro id hne call heq
    rw [hread] at heq
    exact hne (Option.some.inj (congrArg Prod.fst (Option.some.inj heq))).symm
  rw [safeRecordStateRead_some hfault hquiet]
  intro id
  by_cases heq : id = context
  · subst heq
    rw [callsOf_concat_self hread, callsOf_concat_of_ne (hwrite id)]
    split
    · rename_i hfull
      exact (h id).skipRead hfull
    · rename_i hroom
      unfold Recorder.pushRead
      rw [update_contexts_self]
      exact (h id).pushRead (tick_lt hclock) hroom
  · refine Logged.concat ?_ (hother id heq) (hwrite id)
    split
    · exact h id
    · unfold Recorder.pushRead
      rw [update_contexts_of_ne _ heq]
      exact (h id).mono (Nat.le_of_lt (tick_lt hclock))

theorem AllLogged.write (h : AllLogged tracker recorder trace) (hfault : NeverThrows tracker)
    (hquiet : Quiet tracker call) (hclock : recorder.eventClock.value < maxSafeInteger)
    (hwrite : event.write? = some (some context, call)) :
    AllLogged tracker (safeRecordStateWrite tracker (some context) call recorder)
      (trace ++ [event]) := by
  have hread : ∀ id call, event.read? ≠ some (some id, call) := by
    intro id call
    rw [event.read?_or_write?.resolve_right (hwrite ▸ Option.some_ne_none _)]
    exact (Option.some_ne_none _).symm
  have hother : ∀ id, id ≠ context → ∀ call, event.write? ≠ some (some id, call) := by
    intro id hne call heq
    rw [hwrite] at heq
    exact hne (Option.some.inj (congrArg Prod.fst (Option.some.inj heq))).symm
  rw [safeRecordStateWrite_some hfault hquiet]
  intro id
  by_cases heq : id = context
  · subst heq
    rw [callsOf_concat_self hwrite, callsOf_concat_of_ne (hread id)]
    split
    · rename_i hfull
      unfold Recorder.dropWrite
      rw [update_contexts_self]
      exact (h id).dropWrite hfull
    · rename_i hroom
      unfold Recorder.pushWrite
      rw [update_contexts_self]
      exact (h id).pushWrite (tick_lt hclock) hroom
  · refine Logged.concat ?_ (hread id) (hother id heq)
    split
    · unfold Recorder.dropWrite
      rw [update_contexts_of_ne _ heq]
      exact h id
    · unfold Recorder.pushWrite
      rw [update_contexts_of_ne _ heq]
      exact (h id).mono (Nat.le_of_lt (tick_lt hclock))

/-- Every call of the event is serialized without running a trap. -/
def Event.IsQuiet (tracker : Tracker V C) (event : Event V) : Prop :=
  ∀ context call, event.read? = some (context, call) ∨ event.write? = some (context, call) →
    Quiet tracker call

theorem AllLogged.concat (h : AllLogged tracker recorder trace) (hfault : NeverThrows tracker)
    (hcapture : tracker.captureWrites = true) (hquiet : event.IsQuiet tracker)
    (hclock : recorder.eventClock.value < maxSafeInteger) :
    AllLogged tracker (recordEvent tracker recorder event) (trace ++ [event]) := by
  unfold recordEvent
  rcases hread : event.read? with _ | ⟨_ | context, call⟩
  · rcases hwrite : event.write? with _ | ⟨_ | context, call⟩
    · exact fun id => (h id).concat (fun _ => hread ▸ (Option.some_ne_none _).symm)
        fun _ => hwrite ▸ (Option.some_ne_none _).symm
    · dsimp only
      rw [if_pos hcapture, safeRecordStateWrite_none hfault]
      refine fun id => (h id).concat (fun _ => hread ▸ (Option.some_ne_none _).symm) ?_
      intro call heq
      rw [hwrite] at heq
      exact Option.some_ne_none id (congrArg Prod.fst (Option.some.inj heq)).symm
    · dsimp only
      rw [if_pos hcapture]
      exact h.write hfault (hquiet _ _ (.inr hwrite)) hclock hwrite
  · dsimp only
    rw [safeRecordStateRead_none hfault]
    have hwrite := event.read?_or_write?.resolve_left (hread ▸ Option.some_ne_none _)
    refine fun id => (h id).concat ?_ fun _ => hwrite ▸ (Option.some_ne_none _).symm
    intro call heq
    rw [hread] at heq
    exact Option.some_ne_none id (congrArg Prod.fst (Option.some.inj heq)).symm
  · exact h.read hfault (hquiet _ _ (.inl hread)) hclock hread

theorem tick_le_succ (clock : EventClock) : clock.tick.value ≤ clock.value + 1 := by
  unfold EventClock.tick
  split
  · rename_i hfull
    exact Nat.le_succ_of_le hfull
  · exact Nat.le_refl _

/-- An event moves the clock on by one at most. -/
theorem recordEvent_clock (recorder : Recorder C) (hfault : NeverThrows tracker)
    (hquiet : event.IsQuiet tracker) :
    (recordEvent tracker recorder event).eventClock.value ≤ recorder.eventClock.value + 1 := by
  have htick := tick_le_succ recorder.eventClock
  unfold recordEvent
  rcases hread : event.read? with _ | ⟨_ | context, call⟩
  · rcases hwrite : event.write? with _ | ⟨_ | context, call⟩
    · exact Nat.le_succ _
    · dsimp only
      rw [safeRecordStateWrite_none hfault]
      split <;> exact Nat.le_succ _
    · dsimp only
      rw [safeRecordStateWrite_some hfault (hquiet _ _ (.inr hwrite))]
      split
      · split
        · exact Nat.le_succ _
        · exact htick
      · exact Nat.le_succ _
  · dsimp only
    rw [safeRecordStateRead_none hfault]
    exact Nat.le_succ _
  · dsimp only
    rw [safeRecordStateRead_some hfault (hquiet _ _ (.inl hread))]
    split
    · exact Nat.le_succ _
    · exact htick

/-- Over a whole trace every request's log stays a prefix of its calls. -/
theorem allLogged_foldl (hfault : NeverThrows tracker) (hcapture : tracker.captureWrites = true)
    (hempty : ∀ id, recorder.contexts id = ⟨[], [], none⟩)
    (hquiet : ∀ event ∈ trace, event.IsQuiet tracker)
    (hclock : recorder.eventClock.value + trace.length ≤ maxSafeInteger) :
    AllLogged tracker (trace.foldl (recordEvent tracker) recorder) trace ∧
      (trace.foldl (recordEvent tracker) recorder).eventClock.value ≤
        recorder.eventClock.value + trace.length := by
  induction trace using List.reverseRecOn with
  | nil =>
      refine ⟨fun id => ?_, Nat.le_refl _⟩
      rw [List.foldl_nil, hempty id]
      exact ⟨(Nat.zero_sub _).symm, CappedLog.keeps_nil, CappedLog.keeps_nil,
        CappedLog.stamped_nil, CappedLog.stamped_nil⟩
  | append_singleton trace event ih =>
      rw [List.length_append, List.length_singleton] at hclock ⊢
      obtain ⟨hlogged, hbound⟩ := ih (fun event hmem => hquiet event (List.mem_append_left _ hmem))
        (by omega)
      have hevent := hquiet event (List.mem_append_right _ (List.mem_singleton.mpr rfl))
      rw [List.foldl_append, List.foldl_cons, List.foldl_nil]
      refine ⟨hlogged.concat hfault hcapture hevent (by omega), ?_⟩
      have := recordEvent_clock (trace.foldl (recordEvent tracker) recorder) hfault hevent
      omega

end Step

end Recording

/-- The host has seen the same, and the maps hold the same. -/
structure Transparent (tracked : Config (Tracked V C) V) (plain : Config (World V) V) : Prop where
  trace : tracked.trace = plain.trace
  maps : tracked.state.world.maps = plain.state.maps

section Leaks

/-- A tracker whose values run a trap when they are serialized, if they are `7`. -/
def nestingTracker : Tracker Nat Unit where
  name := fun _ => "map".toList
  captureWrites := true
  maxWritesPerContext := 50
  cloneAndLimit := fun _ => ()
  nested := fun _ payload => if payload = .value 7 then [.entries "inner".toList .absent []] else []
  fault := fun _ => none

def functionRealm : Realm Nat := ⟨fun _ => true, fun _ => none, fun _ _ => rfl⟩

/-- One map with the entry `1 ↦ 7` and no request yet. -/
def oneEntry : Tracked Nat Unit :=
  ⟨⟨fun _ => [some (1, 7)], []⟩, ⟨fun _ => ⟨[], [], none⟩, ⟨0⟩, 0⟩⟩

end Leaks

end StateTracker

end ErrorCore
