import ErrorCore.Foundation.Text
import ErrorCore.Context.EventClock

/-!
# Tracked maps

A host program works on maps, on live iterators over them, and on callbacks that
may do the same. The machine that runs it has two instances: `plainMaps`, where
a handle is the map itself, and `trackedMaps`, where a handle may be the proxy
that `track()` returned and its operations go through the `get` trap of
`createMapProxy`. What the host can see is the trace of results and callback
arguments and the contents of the maps.

Serializing a value for the log may itself run a trap, since a value can hold a
tracked map: `nested` says which reads that causes. `fault` says where a recorder
call throws, if it does. Getters of stored values are taken to have no effects.
-/

namespace ErrorCore

namespace StateTracker

variable {V C : Type}

/-! ## Maps -/

/-- `[[MapData]]`: a deleted entry leaves a hole, so that the indices of iterators stay valid. -/
abbrev MapData (V : Type) := List (Option (V × V))

namespace MapData

def live (data : MapData V) : List (V × V) := data.filterMap id

/-- The first entry at or after an index; `data` starts at the index. -/
def nextLive : Nat → MapData V → Option (Nat × V × V)
  | _, [] => none
  | index, none :: data => nextLive (index + 1) data
  | index, some (key, value) :: _ => some (index, key, value)

section Keys

variable [DecidableEq V]

def get (key : V) (data : MapData V) : Option V := data.live.lookup key

def set (key value : V) : MapData V → MapData V
  | [] => [some (key, value)]
  | some (name, old) :: data =>
      if name = key then some (key, value) :: data else some (name, old) :: set key value data
  | none :: data => none :: set key value data

def delete (key : V) (data : MapData V) : MapData V :=
  data.map fun entry => if entry.map Prod.fst = some key then none else entry

end Keys

def clear (data : MapData V) : MapData V := data.map fun _ => none

end MapData

inductive IteratorKind
  | entries
  | values
  | keys
  deriving DecidableEq

/-- A live iterator; `none` once it has run to the end. -/
structure Iterator where
  map : Nat
  kind : IteratorKind
  index : Option Nat
  deriving DecidableEq

structure World (V : Type) where
  maps : Nat → MapData V
  iterators : List Iterator

/-- A reference to a map: to the map itself or to its proxy. -/
structure Handle where
  map : Nat
  isProxy : Bool
  deriving DecidableEq

/-- A method as a value: the one of the prototype, the closure of a trap, or a bound copy. -/
inductive FunctionValue
  | native (name : Text)
  | trap (name : Text) (map : Nat)
  | bound (name : Text) (map : Nat)
  deriving DecidableEq

inductive Result (V : Type)
  | undefined
  | value (value : V)
  | boolean (value : Bool)
  | number (value : Nat)
  | map (handle : Handle)
  | iterator (id : Nat)
  | entry (key value : V)
  | done
  | function (value : FunctionValue)
  | typeError
  | threw (value : V)
  deriving DecidableEq

/-- What the host does with a handle, callbacks apart. `property` reads a property as a value, and
`forEachNotCallable` calls `forEach` without a function. -/
inductive Op (V : Type)
  | set (key value : V)
  | delete (key : V)
  | get (key : V)
  | has (key : V)
  | entries
  | values
  | keys
  | iterator
  | clear
  | size
  | property (name : Text)
  | forEachNotCallable
  deriving DecidableEq

/-- The names that the `get` trap of `createMapProxy` answers with a closure of its own. -/
def trappedNames : List Text := ["set", "delete", "get", "has", "entries", "values", "forEach"]

/-- What reading a property of a `Map` gives: a function or another value. -/
structure Realm (V : Type) where
  isFunction : Text → Bool
  property : Text → Option V
  methods : ∀ name ∈ trappedNames, isFunction name = true

/-- `Reflect.get(target, name, target)`. -/
def Realm.read (realm : Realm V) (name : Text) : Result V :=
  if realm.isFunction name then .function (.native name)
  else
    match realm.property name with
    | some value => .value value
    | none => .undefined

section Native

variable [DecidableEq V]

namespace World

def put (world : World V) (map : Nat) (data : MapData V) : World V :=
  { world with maps := fun id => if id = map then data else world.maps id }

def addIterator (world : World V) (map : Nat) (kind : IteratorKind) : World V × Result V :=
  ({ world with iterators := world.iterators ++ [⟨map, kind, some 0⟩] },
    .iterator world.iterators.length)

end World

/-- `iterator.next()`. -/
def World.next (world : World V) (id : Nat) : World V × Result V :=
  match world.iterators[id]? with
  | none => (world, .done)
  | some iterator =>
      match iterator.index with
      | none => (world, .done)
      | some index =>
          match MapData.nextLive index ((world.maps iterator.map).drop index) with
          | none =>
              ({ world with iterators := world.iterators.set id { iterator with index := none } },
                .done)
          | some (found, key, value) =>
              ({ world with
                  iterators := world.iterators.set id { iterator with index := some (found + 1) } },
                match iterator.kind with
                | .entries => .entry key value
                | .values => .value value
                | .keys => .value key)

/-- An operation of `Map.prototype` with the handle as receiver. -/
def native (realm : Realm V) (world : World V) (handle : Handle) : Op V → World V × Result V
  | .set key value =>
      (world.put handle.map (MapData.set key value (world.maps handle.map)), .map handle)
  | .delete key =>
      (world.put handle.map (MapData.delete key (world.maps handle.map)),
        .boolean (MapData.get key (world.maps handle.map)).isSome)
  | .get key =>
      (world,
        match MapData.get key (world.maps handle.map) with
        | some value => .value value
        | none => .undefined)
  | .has key => (world, .boolean (MapData.get key (world.maps handle.map)).isSome)
  | .entries => world.addIterator handle.map .entries
  | .values => world.addIterator handle.map .values
  | .keys => world.addIterator handle.map .keys
  | .iterator => world.addIterator handle.map .entries
  | .clear => (world.put handle.map (MapData.clear (world.maps handle.map)), .undefined)
  | .size => (world, .number (MapData.live (world.maps handle.map)).length)
  | .property name => (world, realm.read name)
  | .forEachNotCallable => (world, .typeError)

end Native

/-! ## The recorder -/

inductive Operation
  | get
  | has
  | entries
  | values
  | forEach
  | set
  | delete
  deriving DecidableEq

/-- What is handed to `cloneAndLimit`. -/
inductive Payload (V : Type)
  | absent
  | value (value : V)
  | boolean (value : Bool)
  | entries (entries : List (V × V))
  | values (values : List V)
  deriving DecidableEq

/-- An entry of `stateReads` or of `stateWrites`. -/
structure StateEntry (C : Type) where
  seq : Nat
  container : Text
  operation : Operation
  key : C
  value : C
  deriving DecidableEq

structure RequestContext (C : Type) where
  stateReads : List (StateEntry C)
  stateWrites : List (StateEntry C)
  /-- `completenessOverflow?.stateWritesDropped`. -/
  completenessOverflow : Option Nat
  deriving DecidableEq

structure Recorder (C : Type) where
  contexts : Nat → RequestContext C
  eventClock : EventClock
  /-- How many recorder calls there have been. -/
  calls : Nat

/-- A read that serializing a value causes, with the reads that serializing its snapshot causes. -/
inductive Nested (V : Type)
  | entries (container : Text) (snapshot : Payload V) (inner : List (Nested V))

/-- Where a recorder call throws. -/
inductive Fault
  | getContext
  | ensureTraceMaterialized
  | tick
  | cloneKey
  | cloneValue
  deriving DecidableEq

/-- The tracker's configuration and what it depends on. -/
structure Tracker (V C : Type) where
  name : Nat → Text
  captureWrites : Bool
  maxWritesPerContext : Nat
  cloneAndLimit : Payload V → C
  nested : Nat → Payload V → List (Nested V)
  fault : Nat → Option Fault

def maxStateReadsPerContext : Nat := 50

namespace Recorder

variable (recorder : Recorder C)

def update (context : Nat) (change : RequestContext C → RequestContext C) : Recorder C :=
  { recorder with
    contexts := fun id => if id = context then change (recorder.contexts id)
      else recorder.contexts id }

def tick : Recorder C := { recorder with eventClock := recorder.eventClock.tick }

def pushRead (context : Nat) (entry : StateEntry C) : Recorder C :=
  recorder.update context fun request =>
    { request with stateReads := request.stateReads ++ [entry] }

def pushWrite (context : Nat) (entry : StateEntry C) : Recorder C :=
  recorder.update context fun request =>
    { request with stateWrites := request.stateWrites ++ [entry] }

def dropWrite (context : Nat) : Recorder C :=
  recorder.update context fun request =>
    { request with completenessOverflow := some (request.completenessOverflow.getD 0 + 1) }

end Recorder

section Recording

variable (tracker : Tracker V C)

mutual

/-- The `entries` trap of a tracked map, run by `cloneAndLimit`. -/
def runNested (context : Nat) : Nested V → Recorder C → Recorder C
  | .entries container snapshot inner, recorder =>
      if maxStateReadsPerContext ≤ (recorder.contexts context).stateReads.length then recorder
      else
        let recorder := recorder.tick
        (runAllNested context inner recorder).pushRead context
          ⟨recorder.eventClock.value, container, .entries, tracker.cloneAndLimit .absent,
            tracker.cloneAndLimit snapshot⟩

def runAllNested (context : Nat) : List (Nested V) → Recorder C → Recorder C
  | [], recorder => recorder
  | read :: reads, recorder => runAllNested context reads (runNested context read recorder)

end

/-- `cloneAndLimit(value)` while an entry with this number is built. -/
def serialize (context seq : Nat) (payload : Payload V) (recorder : Recorder C) : Recorder C :=
  runAllNested tracker context (tracker.nested seq payload) recorder

/-- A call of the recorder by a trap. -/
structure Call (V : Type) where
  map : Nat
  operation : Operation
  key : Payload V
  value : Payload V
  deriving DecidableEq

def entryOf (seq : Nat) (call : Call V) : StateEntry C :=
  ⟨seq, tracker.name call.map, call.operation, tracker.cloneAndLimit call.key,
    tracker.cloneAndLimit call.value⟩

def recordStateRead (context : Option Nat) (call : Call V) (recorder : Recorder C) :
    Except Unit Unit × Recorder C :=
  let fault := tracker.fault recorder.calls
  let recorder := { recorder with calls := recorder.calls + 1 }
  if fault = some .getContext then (.error (), recorder)
  else
    match context with
    | none => (.ok (), recorder)
    | some context =>
        if fault = some .ensureTraceMaterialized then (.error (), recorder)
        else if maxStateReadsPerContext ≤ (recorder.contexts context).stateReads.length then
          (.ok (), recorder)
        else if fault = some .tick then (.error (), recorder)
        else
          let recorder := recorder.tick
          let seq := recorder.eventClock.value
          let recorder := serialize tracker context seq call.key recorder
          if fault = some .cloneKey then (.error (), recorder)
          else
            let recorder := serialize tracker context seq call.value recorder
            if fault = some .cloneValue then (.error (), recorder)
            else (.ok (), recorder.pushRead context (entryOf tracker seq call))

def recordStateWrite (context : Option Nat) (call : Call V) (recorder : Recorder C) :
    Except Unit Unit × Recorder C :=
  let fault := tracker.fault recorder.calls
  let recorder := { recorder with calls := recorder.calls + 1 }
  if fault = some .getContext then (.error (), recorder)
  else
    match context with
    | none => (.ok (), recorder)
    | some context =>
        if fault = some .ensureTraceMaterialized then (.error (), recorder)
        else if tracker.maxWritesPerContext ≤ (recorder.contexts context).stateWrites.length then
          (.ok (), recorder.dropWrite context)
        else if fault = some .tick then (.error (), recorder)
        else
          let recorder := recorder.tick
          let seq := recorder.eventClock.value
          let recorder := serialize tracker context seq call.key recorder
          if fault = some .cloneKey then (.error (), recorder)
          else
            -- a deletion has no value to clone
            let recorder :=
              if call.operation = .delete then recorder
              else serialize tracker context seq call.value recorder
            if fault = some .cloneValue ∧ call.operation ≠ .delete then (.error (), recorder)
            else (.ok (), recorder.pushWrite context (entryOf tracker seq call))

/-- The `catch` swallows the exception; what was done before it stays. -/
def safeRecordStateRead (context : Option Nat) (call : Call V) (recorder : Recorder C) :
    Recorder C :=
  (recordStateRead tracker context call recorder).2

def safeRecordStateWrite (context : Option Nat) (call : Call V) (recorder : Recorder C) :
    Recorder C :=
  (recordStateWrite tracker context call recorder).2

end Recording

/-! ## The proxy -/

/-- The value that `get` hands to the recorder. -/
def Result.payload : Result V → Payload V
  | .value found => .value found
  | .boolean found => .boolean found
  | _ => .absent

section Proxy

variable [DecidableEq V] (realm : Realm V) (tracker : Tracker V C)

structure Tracked (V C : Type) where
  world : World V
  recorder : Recorder C

namespace Tracked

variable (state : Tracked V C)

def read (context : Option Nat) (call : Call V) : Tracked V C :=
  { state with recorder := safeRecordStateRead tracker context call state.recorder }

def write (context : Option Nat) (call : Call V) : Tracked V C :=
  if tracker.captureWrites then
    { state with recorder := safeRecordStateWrite tracker context call state.recorder }
  else state

/-- The method of the target, called on the target. -/
def onTarget (map : Nat) (op : Op V) : Tracked V C × Result V :=
  let (world, result) := native realm state.world ⟨map, false⟩ op
  ({ state with world }, result)

end Tracked

/-- What the `get` trap gives for a property that is read as a value. -/
def readProperty (map : Nat) (name : Text) : Result V :=
  if name ∈ trappedNames then .function (.trap name map)
  else
    match realm.read name with
    | .function (.native name) => .function (.bound name map)
    | result => result

/-- An operation on the proxy, by the branches of the `get` trap. -/
def createMapProxy (map : Nat) (state : Tracked V C) (context : Option Nat) (op : Op V) :
    Tracked V C × Result V :=
  let entries := MapData.live (state.world.maps map)
  match op with
  | .set key value =>
      let (state, _) := state.onTarget realm map (.set key value)
      (state.write tracker context ⟨map, .set, .value key, .value value⟩, .map ⟨map, true⟩)
  | .delete key =>
      let (state, result) := state.onTarget realm map (.delete key)
      (state.write tracker context ⟨map, .delete, .value key, .absent⟩, result)
  | .get key =>
      let (state, result) := state.onTarget realm map (.get key)
      (state.read tracker context ⟨map, .get, .value key, result.payload⟩, result)
  | .has key =>
      let (state, result) := state.onTarget realm map (.has key)
      (state.read tracker context ⟨map, .has, .value key, result.payload⟩, result)
  | .entries =>
      (state.read tracker context ⟨map, .entries, .absent, .entries entries⟩).onTarget realm map
        .entries
  | .values =>
      (state.read tracker context
        ⟨map, .values, .absent, .values (entries.map Prod.snd)⟩).onTarget realm map .values
  | .forEachNotCallable =>
      (state.read tracker context ⟨map, .forEach, .absent, .entries entries⟩).onTarget realm map
        .forEachNotCallable
  | .property name => (state, readProperty realm map name)
  | op => state.onTarget realm map op

end Proxy

/-! ## Host programs -/

/-- A host program. What it does next depends on the results; `context` is the request in whose
asynchronous context the call is made. A callback gets the map argument only if it `usesMap`. -/
inductive Program (V : Type)
  | finish (thrown : Option V)
  | call (context : Option Nat) (handle : Handle) (op : Op V) (rest : Result V → Program V)
  | next (iterator : Nat) (rest : Result V → Program V)
  | forEach (context : Option Nat) (handle : Handle) (usesMap : Bool)
      (callback : V → V → Option Handle → Program V) (rest : Result V → Program V)

/-- A `forEach` in progress. -/
structure Frame (V : Type) where
  handle : Handle
  index : Nat
  usesMap : Bool
  callback : V → V → Option Handle → Program V
  rest : Result V → Program V

/-- What happens between the host and its maps. A call comes with the entries of the map before
it. -/
inductive Event (V : Type)
  | call (context : Option Nat) (handle : Handle) (op : Op V) (entries : List (V × V))
      (result : Result V)
  | next (iterator : Nat) (result : Result V)
  | forEach (context : Option Nat) (handle : Handle) (entries : List (V × V))
  | callback (handle : Handle) (value key : V) (argument : Option Handle)

/-- How the operations on a handle are carried out. -/
structure Semantics (S V : Type) where
  world : S → World V
  call : S → Option Nat → Handle → Op V → S × Result V
  next : S → Nat → S × Result V
  beginForEach : S → Option Nat → Handle → S
  argument : Handle → Handle

structure Config (S V : Type) where
  state : S
  program : Program V
  stack : List (Frame V)
  trace : List (Event V)

section Machine

variable {S : Type} (semantics : Semantics S V)

def entriesOf (state : S) (handle : Handle) : List (V × V) :=
  MapData.live ((semantics.world state).maps handle.map)

/-- The next entry of a `forEach`, which sees the changes its callback makes. -/
def nextEntry (state : S) (frame : Frame V) : Option (Nat × V × V) :=
  MapData.nextLive frame.index (((semantics.world state).maps frame.handle.map).drop frame.index)

/-- The arguments of the callback and the rest of the loop. -/
def invokeCallback (config : Config S V) (frame : Frame V) (stack : List (Frame V)) (index : Nat)
    (key value : V) : Config S V :=
  let argument := if frame.usesMap then some (semantics.argument frame.handle) else none
  { config with
    program := frame.callback value key argument
    stack := { frame with index := index + 1 } :: stack
    trace := config.trace ++ [.callback frame.handle value key argument] }

/-- A callback, or the host itself, has come to its end. -/
def resume (thrown : Option V) (config : Config S V) : Config S V :=
  match config.stack with
  | [] => config
  | frame :: stack =>
      match thrown with
      | some value => { config with program := frame.rest (.threw value), stack }
      | none =>
          match nextEntry semantics config.state frame with
          | none => { config with program := frame.rest .undefined, stack }
          | some (index, key, value) =>
              invokeCallback semantics config frame stack index key value

def step (config : Config S V) : Config S V :=
  match config.program with
  | .call context handle op rest =>
      let outcome := semantics.call config.state context handle op
      { config with
        state := outcome.1
        program := rest outcome.2
        trace := config.trace ++
          [.call context handle op (entriesOf semantics config.state handle) outcome.2] }
  | .next iterator rest =>
      let outcome := semantics.next config.state iterator
      { config with
        state := outcome.1
        program := rest outcome.2
        trace := config.trace ++ [.next iterator outcome.2] }
  | .forEach context handle usesMap callback rest =>
      { config with
        state := semantics.beginForEach config.state context handle
        program := .finish none
        stack := ⟨handle, 0, usesMap, callback, rest⟩ :: config.stack
        trace := config.trace ++
          [.forEach context handle (entriesOf semantics config.state handle)] }
  | .finish thrown => resume semantics thrown config

/-- The configuration after a number of steps. -/
def run (config : Config S V) : Nat → Config S V
  | 0 => config
  | n + 1 => step semantics (run config n)

def start (state : S) (program : Program V) : Config S V := ⟨state, program, [], []⟩

end Machine

section Instances

variable [DecidableEq V] (realm : Realm V) (tracker : Tracker V C)

/-- Without the tracker every handle is the map itself. -/
def plainMaps : Semantics (World V) V where
  world := id
  call := fun world _ handle op => native realm world handle op
  next := World.next
  beginForEach := fun world _ _ => world
  argument := id

/-- With the tracker a proxy goes through its trap. `forEach` is called on the target, which is
then the callback's map argument. -/
def trackedMaps : Semantics (Tracked V C) V where
  world := Tracked.world
  call := fun state context handle op =>
    if handle.isProxy then createMapProxy realm tracker handle.map state context op
    else
      let (world, result) := native realm state.world handle op
      ({ state with world }, result)
  next := fun state iterator =>
    let (world, result) := state.world.next iterator
    ({ state with world }, result)
  beginForEach := fun state context handle =>
    if handle.isProxy then
      state.read tracker context ⟨handle.map, .forEach, .absent,
        .entries (MapData.live (state.world.maps handle.map))⟩
    else state
  argument := fun handle => ⟨handle.map, false⟩

end Instances

end StateTracker

end ErrorCore
