import ErrorCore.Capture.CaptureModeController

/-!
# Instances and the global singleton

The lifecycle of an SDK instance in `src/sdk.ts`, the module functions of
`src/index.ts` over the singleton that all bundles of a process share, the hot
reload hook of `src/next-dev-cleanup.ts`, and the cached lookup of
`src/middleware/common.ts`, of which every bundle has its own copy.

A label is one synchronous stretch. Calls of the host that run inside `init`, as
`onInternalWarning` may make them, are left out: a label runs to its end.
-/

namespace ErrorCore.Sdk

open CaptureModeController (SDKLifecycleState)

/-- The awaits of `performShutdown` in their order, and its end. -/
inductive ShutdownStage
  | modeController
  | watchdog
  | packageAssembly
  | errorCapturer
  | transportFlush
  | transportShutdown
  | settled (rejected : Bool)
  deriving DecidableEq, Repr

/-- An `SDKInstance`. The last fields count the calls of `performShutdown` and the admitted captures,
in all and before the final drain began. -/
structure Instance where
  state : SDKLifecycleState
  captureAdmissionOpen : Bool
  shutdownPromise : Option ShutdownStage
  /-- Made by `init`, not by the host's own `createSDK`. -/
  ofInit : Bool
  /-- `registerNextDevHmrCleanup` has added its hook. -/
  hmrCleanup : Bool
  performed : Nat
  captured : Nat
  capturedBeforeDrain : Option Nat
  deriving DecidableEq, Repr

namespace Instance

def create (ofInit : Bool) : Instance where
  state := .created
  captureAdmissionOpen := true
  shutdownPromise := none
  ofInit := ofInit
  hmrCleanup := false
  performed := 0
  captured := 0
  capturedBeforeDrain := none

def isActive (instance_ : Instance) : Bool := instance_.state = .active

/-- `activate`, when it does not throw. -/
def activate (instance_ : Instance) : Instance :=
  if instance_.state ≠ .created then instance_ else { instance_ with state := .active }

/-- `shutdown`, to the first await of `performShutdown`. -/
def shutdown (instance_ : Instance) : Instance :=
  if instance_.state = .shutdown then instance_
  else if instance_.shutdownPromise ≠ none then instance_
  else
    { instance_ with
      state := .shutting_down
      shutdownPromise := some .modeController
      performed := instance_.performed + 1 }

/-- The `finally` of `performShutdown`. -/
def finish (instance_ : Instance) (rejected : Bool) : Instance :=
  { instance_ with state := .shutdown, shutdownPromise := some (.settled rejected) }

def await (instance_ : Instance) (stage : ShutdownStage) : Instance :=
  { instance_ with shutdownPromise := some stage }

/-- The stretch of `performShutdown` that follows an await, to the next one; `throws` tells whether
the awaited call or the stretch throws, and `transport` is `config.recorders.transport`. -/
def advance (throws transport : Bool) (instance_ : Instance) : Option Instance :=
  match instance_.shutdownPromise with
  | some .modeController =>
      some (if throws then instance_.finish true else instance_.await .watchdog)
  | some .watchdog =>
      some (if throws then instance_.finish true else instance_.await .packageAssembly)
  | some .packageAssembly =>
      some (if throws then instance_.finish true
        else
          { instance_.await .errorCapturer with
            captureAdmissionOpen := false, capturedBeforeDrain := some instance_.captured })
  | some .errorCapturer =>
      some (if throws then instance_.finish true
        else if transport then instance_.await .transportFlush
        else instance_.finish false)
  | some .transportFlush =>
      some (if throws then instance_.finish true else instance_.await .transportShutdown)
  | some .transportShutdown => some (instance_.finish throws)
  | some (.settled _) | none => none

/-- Whether `captureError` hands the error to the capturer. -/
def admitsCapture (instance_ : Instance) : Bool :=
  instance_.state = .active || instance_.state = .shutting_down && instance_.captureAdmissionOpen

def captureError (instance_ : Instance) : Instance :=
  if instance_.admitsCapture then { instance_ with captured := instance_.captured + 1 }
  else instance_

end Instance

/-! ## The singleton -/

/-- What `globalThis` holds under the shared symbols; instances go by their numbers. -/
structure Globals where
  instance_ : Option Nat
  generation : Nat
  initializing : Bool
  captureWarningEmitted : Bool
  deriving DecidableEq, Repr

def Globals.setGlobalInstance (globals : Globals) (instance_ : Option Nat) : Globals :=
  { globals with instance_, generation := globals.generation + 1 }

/-- The module variables of a copy of `src/middleware/common.ts`: whether it could load the module
`../index`, and its cache, where `none` is the generation `-1`. -/
structure ModuleCache where
  moduleApi : Bool
  cachedModuleGeneration : Option Nat
  cachedModuleInstance : Option Nat
  deriving DecidableEq, Repr

/-- `getModuleInstance` of `src/middleware/common.ts`. -/
def ModuleCache.getModuleInstance (cache : ModuleCache) (globals : Globals) :
    Option Nat × ModuleCache :=
  if cache.moduleApi then
    let fresh :=
      if cache.cachedModuleGeneration ≠ some globals.generation then
        { cache with
          cachedModuleGeneration := some globals.generation
          cachedModuleInstance := globals.instance_ }
      else cache
    if fresh.cachedModuleInstance ≠ none then (fresh.cachedModuleInstance, fresh)
    else (globals.instance_, fresh)
  else (globals.instance_, cache)

/-- A call of the module's `shutdown` that waits for the one of its instance; the instance may
have been shut down before, which leaves nothing to wait for. -/
structure PendingShutdown where
  instance_ : Nat
  immediate : Bool
  deriving DecidableEq, Repr

structure State where
  instances : List Instance
  globals : Globals
  caches : List ModuleCache
  pending : List PendingShutdown
  deriving DecidableEq, Repr

def State.initial : State where
  instances := []
  globals :=
    { instance_ := none, generation := 0, initializing := false, captureWarningEmitted := false }
  caches := []
  pending := []

/-- How `init` goes on once it has decided to make an instance. -/
inductive InitOutcome
  | createThrows
  | activateThrows
  /-- `hot` tells whether the hot reload hook could be added. -/
  | activates (hot : Bool)
  deriving DecidableEq, Repr

inductive Action
  | init (outcome : InitOutcome)
  | createSDK
  | activate (i : Nat)
  /-- The module's `shutdown`. -/
  | shutdown
  /-- A direct call of an instance's `shutdown`, as the process handlers make it. -/
  | shutdownInstance (i : Nat)
  | advance (i : Nat) (throws transport : Bool)
  /-- The rest of a module's `shutdown`, after its instance's. -/
  | resume (k : Nat)
  | dispose (i : Nat)
  /-- The module's `captureError`. -/
  | captureError
  /-- `captureError` of an instance. -/
  | captureInstance (i : Nat)
  | loadMiddleware (moduleApi : Bool)
  | getModuleInstance (c : Nat)
  deriving DecidableEq, Repr

namespace State

variable (s : State)

def setGlobalInstance (instance_ : Option Nat) : State :=
  { s with globals := s.globals.setGlobalInstance instance_ }

def setInitializing (value : Bool) : State :=
  { s with globals := { s.globals with initializing := value } }

def modifyInstance (i : Nat) (f : Instance → Instance) : State :=
  { s with instances := s.instances.modify i f }

def isActive (i : Nat) : Bool := s.instances[i]?.any Instance.isActive

def globalActive : Bool := s.globals.instance_.any s.isActive

/-- `init`, from the creation of the instance on. -/
def createAndActivate (outcome : InitOutcome) : State :=
  match outcome with
  | .createThrows => s
  | .activateThrows =>
      let i := s.instances.length
      let s := { s with instances := s.instances ++ [Instance.create true] }
      ((s.setGlobalInstance (some i)).setGlobalInstance none).modifyInstance i Instance.shutdown
  | .activates hot =>
      let i := s.instances.length
      let s := { s with instances := s.instances ++ [Instance.create true] }
      ((s.setGlobalInstance (some i)).modifyInstance i Instance.activate).modifyInstance i
        fun instance_ => { instance_ with hmrCleanup := hot }

/-- `init`: `none` when an initialization is in progress. -/
def init (outcome : InitOutcome) : Option State :=
  if s.globals.initializing then none
  else if s.globals.instance_ ≠ none ∧ s.globalActive then some s
  else
    let s := if s.globals.instance_ ≠ none then s.setGlobalInstance none else s
    some (((s.setInitializing true).createAndActivate outcome).setInitializing false)

/-- The module's `shutdown`, to its await. -/
def shutdown : State :=
  match s.globals.instance_ with
  | none => s
  | some i =>
      let immediate := s.instances[i]?.any fun instance_ => instance_.state = .shutdown
      { s.modifyInstance i Instance.shutdown with pending := s.pending ++ [⟨i, immediate⟩] }

/-- The module's `shutdown` after its await. A rejected one throws. -/
def resume (k : Nat) : Option State := do
  let waiting ← s.pending[k]?
  let instance_ ← s.instances[waiting.instance_]?
  let s := { s with pending := s.pending.eraseIdx k }
  let done : State :=
    if s.globals.instance_ = some waiting.instance_ then
      let s := s.setGlobalInstance none
      { s with
        globals := { s.globals with captureWarningEmitted := false, initializing := false } }
    else s
  if waiting.immediate then some done
  else
    match instance_.shutdownPromise with
    | some (.settled true) => some s
    | some (.settled false) => some done
    | _ => none

/-- The hook of a hot reload. -/
def dispose (i : Nat) : Option State := do
  let instance_ ← s.instances[i]?
  if instance_.hmrCleanup then
    let s := if s.globals.instance_ = some i then s.setGlobalInstance none else s
    some (s.modifyInstance i Instance.shutdown)
  else none

/-- The module's `captureError`, which warns once when there is no instance. -/
def captureError : State :=
  match s.globals.instance_ with
  | none => { s with globals := { s.globals with captureWarningEmitted := true } }
  | some i => s.modifyInstance i Instance.captureError

/-- `getModuleInstance` of one copy of the middleware. -/
def getModuleInstance (c : Nat) : Option (Option Nat × State) := do
  let cache ← s.caches[c]?
  let found := cache.getModuleInstance s.globals
  return (found.1, { s with caches := s.caches.set c found.2 })

/-- `resolveLiveSDK`. -/
def resolveLiveSDK (passed : Option Nat) (c : Nat) : Option (Option Nat) := do
  if passed.any s.isActive then return passed
  let moduleInstance := (← s.getModuleInstance c).1
  return if moduleInstance.any s.isActive then moduleInstance else passed.or moduleInstance

end State

def step (s : State) : Action → Option State
  | .init outcome => s.init outcome
  | .createSDK => some { s with instances := s.instances ++ [Instance.create false] }
  | .activate i => some (s.modifyInstance i Instance.activate)
  | .shutdown => some s.shutdown
  | .shutdownInstance i => some (s.modifyInstance i Instance.shutdown)
  | .advance i throws transport => do
      let instance_ ← s.instances[i]?
      let advanced ← instance_.advance throws transport
      return s.modifyInstance i fun _ => advanced
  | .resume k => s.resume k
  | .dispose i => s.dispose i
  | .captureError => some s.captureError
  | .captureInstance i => some (s.modifyInstance i Instance.captureError)
  | .loadMiddleware moduleApi => some { s with caches := s.caches ++ [⟨moduleApi, none, none⟩] }
  | .getModuleInstance c => (s.getModuleInstance c).map (·.2)

def system : Transition.System State Action where
  init s := s = .initial
  step := step

end ErrorCore.Sdk
