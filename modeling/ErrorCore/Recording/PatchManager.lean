import Mathlib.Logic.Function.Basic
import ErrorCore.Foundation.Text
import ErrorCore.Foundation.Transition

/-!
# The patch manager

`src/recording/patches/patch-manager.ts` wraps methods of driver objects. A
wrapper it installs is a gate: it runs the SDK's implementation while that is
live and the predecessor once it has been deactivated. Objects inherit from each
other, and a read of a property, the store of the wrapped methods included, goes
along the prototype chain. A write makes an own property.

Function values are immutable, so that a function is the tree of what it calls.
Third parties assign any function they can have built from the existing ones.
-/

namespace ErrorCore.PatchManager

/-- The objects and where reads of their properties look. -/
structure Prototypes where
  chain : Nat → List Nat
  /-- An object is asked first. -/
  head : ∀ target, ∃ rest, chain target = target :: rest
  /-- What comes after an object on a chain is what the object inherits from. -/
  inherits : ∀ target before object rest,
    chain target = before ++ object :: rest → chain object = object :: rest

inductive Fn where
  /-- A function that calls none of the others: a method of a driver. -/
  | original (id : Nat)
  /-- A wrapper of a third party. -/
  | foreign (id : Nat) (inner : Fn)
  /-- `ownedRuntimeGate`, with the name and the predecessor it is marked with. -/
  | owned (wrapper : Nat) (methodName : Text) (predecessor : Fn)
  deriving DecidableEq, Repr

/-- What a call runs. -/
inductive Event
  | original (id : Nat)
  | foreign (id : Nat)
  | implementation (wrapper : Nat)
  deriving DecidableEq, Repr

/-- An entry of a store: the wrapper and what its `restore` has captured. -/
structure OwnedWrapperInstallation where
  wrapper : Nat
  target : Nat
  methodName : Text
  predecessor : Fn
  deriving DecidableEq, Repr

structure State where
  /-- The own properties of the objects. -/
  own : Nat → Text → Option Fn
  /-- The own property `OWNED_METHODS` of the objects. -/
  stores : Nat → Option (Text → Option OwnedWrapperInstallation)
  /-- The wrappers whose `implementation` is not `null`. -/
  live : Nat → Bool
  /-- All wrappers there have been, by their numbers. -/
  installed : List OwnedWrapperInstallation

inductive Action
  /-- The calls; `implements` says that the factory returns a function. -/
  | wrapMethod (target : Nat) (methodName : Text) (implements : Bool)
  | unwrapMethod (target : Nat) (methodName : Text)
  /-- A third party sets a method. -/
  | assign (target : Nat) (methodName : Text) (value : Fn)
  deriving DecidableEq, Repr

def Action.target : Action → Nat
  | wrapMethod target _ _ | unwrapMethod target _ | assign target _ _ => target

/-- The predecessor and, for its `deactivate`, the wrapper. -/
def getOwnedWrapperMetadata (candidate : Fn) (methodName : Text) : Option (Nat × Fn) :=
  match candidate with
  | .owned wrapper name predecessor =>
      if name = methodName then some (wrapper, predecessor) else none
  | .original _ | .foreign _ _ => none

namespace Fn

/-- `Reflect.apply(activeImplementation ?? predecessor, this, args)` for the gates. An
implementation calls the function it was made from once, and so does a third party's wrapper. -/
def call (live : Nat → Bool) : Fn → List Event
  | original id => [.original id]
  | foreign id inner => .foreign id :: inner.call live
  | owned wrapper _ predecessor =>
      if live wrapper then .implementation wrapper :: predecessor.call live
      else predecessor.call live

/-- The function under all wrappers. -/
def underlying : Fn → Nat
  | original id => id
  | foreign _ inner => inner.underlying
  | owned _ _ predecessor => predecessor.underlying

/-- The gates on the way down. -/
def wrappers : Fn → List Nat
  | original _ => []
  | foreign _ inner => inner.wrappers
  | owned wrapper _ predecessor => wrapper :: predecessor.wrappers

/-- The gates in the function are wrappers that were installed. -/
def Known (installed : List OwnedWrapperInstallation) : Fn → Prop
  | original _ => True
  | foreign _ inner => inner.Known installed
  | owned wrapper methodName predecessor =>
      ((installed[wrapper]?).map fun made => (made.methodName, made.predecessor)) =
          some (methodName, predecessor) ∧
        predecessor.Known installed

instance decidableKnown (installed : List OwnedWrapperInstallation) :
    ∀ f : Fn, Decidable (f.Known installed)
  | original _ => .isTrue trivial
  | foreign _ inner => decidableKnown installed inner
  | owned _ _ predecessor =>
      @instDecidableAnd _ _ inferInstance (decidableKnown installed predecessor)

end Fn

namespace State

section Steps

variable (objects : Prototypes) (s : State)

/-- `target[methodName]`. -/
def read (target : Nat) (methodName : Text) : Option Fn :=
  (objects.chain target).findSome? fun object => s.own object methodName

/-- `target[methodName] = value`. -/
def write (target : Nat) (methodName : Text) (value : Fn) : State :=
  { s with
    own := Function.update s.own target (Function.update (s.own target) methodName (some value)) }

/-- The object whose store `target[OWNED_METHODS]` is. -/
def visibleStore (target : Nat) : Option Nat :=
  (objects.chain target).find? fun object => (s.stores object).isSome

def getOwnedMethodStore (target : Nat) : State × Nat :=
  match s.visibleStore objects target with
  | some owner => (s, owner)
  | none => ({ s with stores := Function.update s.stores target (some fun _ => none) }, target)

/-- `store.get`. -/
def get (owner : Nat) (methodName : Text) : Option OwnedWrapperInstallation :=
  (s.stores owner).bind fun store => store methodName

/-- `store.set` and `store.delete`. -/
def put (owner : Nat) (methodName : Text) (installation : Option OwnedWrapperInstallation) :
    State :=
  { s with
    stores := Function.update s.stores owner
      ((s.stores owner).map fun store => Function.update store methodName installation) }

def deactivate (wrapper : Nat) : State :=
  { s with live := Function.update s.live wrapper false }

/-- The closure `restore` of an installation. -/
def restore (installation : OwnedWrapperInstallation) : State :=
  let closed := s.deactivate installation.wrapper
  match closed.read objects installation.target installation.methodName with
  | some (.owned wrapper _ _) =>
      if wrapper = installation.wrapper then
        closed.write installation.target installation.methodName installation.predecessor
      else closed
  | _ => closed

def installOwnedWrapper (target : Nat) (methodName : Text) (implements : Bool) :
    State × Option OwnedWrapperInstallation :=
  match s.read objects target methodName with
  | none => (s, none)
  | some current =>
      let existing := getOwnedWrapperMetadata current methodName
      let taken := (existing.map fun metadata => s.deactivate metadata.1).getD s
      let predecessor := (existing.map (·.2)).getD current
      if implements then
        let installation := { wrapper := s.installed.length, target, methodName, predecessor }
        let gate := Fn.owned installation.wrapper methodName predecessor
        ({ taken.write target methodName gate with
            live := Function.update taken.live installation.wrapper true
            installed := s.installed ++ [installation] },
          some installation)
      else (taken, none)

/-- `existing.restore()` and `store.delete(methodName)`, where there is an entry. -/
def restoreExisting (store : Nat) (methodName : Text) : State :=
  match s.get store methodName with
  | none => s
  | some existing => (s.restore objects existing).put store methodName none

def wrapMethod (target : Nat) (methodName : Text) (implements : Bool) : State :=
  let (s, store) := s.getOwnedMethodStore objects target
  match (s.restoreExisting objects store methodName).installOwnedWrapper objects target methodName
    implements with
  | (installed, none) => installed
  | (installed, some installation) => installed.put store methodName (some installation)

def unwrapMethod (target : Nat) (methodName : Text) : State :=
  match s.visibleStore objects target with
  | none => s
  | some store => s.restoreExisting objects store methodName

/-- A third party has no other gates than those that exist. -/
def act : Action → Option State
  | .wrapMethod target methodName implements =>
      some (s.wrapMethod objects target methodName implements)
  | .unwrapMethod target methodName => some (s.unwrapMethod objects target methodName)
  | .assign target methodName value =>
      if value.Known s.installed then some (s.write target methodName value) else none

end Steps

/-- The SDK has wrapped nothing yet. -/
structure Initial (s : State) : Prop where
  stores : ∀ object, s.stores object = none
  live : ∀ wrapper, s.live wrapper = false
  installed : s.installed = []
  own : ∀ target methodName f, s.own target methodName = some f → f.Known []

end State

end ErrorCore.PatchManager
