import Mathlib.Logic.Function.Basic
import ErrorCore.Context.TraceContext
import ErrorCore.Foundation.Transition

/-!
# Event order across services

Any number of SDK instances that exchange requests, each with its own event
clock. `HttpClientRecorder.handleRequestStart` writes the clock of the sender
into the request and then stamps the outbound event; the receiver merges the
number on the first use of the trace of its request context.

A request is named by its position in the list of requests sent so far and can
be delivered any number of times, or never.
-/

namespace ErrorCore.Lamport

universe u
variable {ι : Type u}

/-- A recorded outbound request: the number of its event and the headers it carries. -/
structure Message (ι : Type u) where
  sender : ι
  seq : Nat
  traceparent : Option Text
  tracestate : Option Text
  deriving DecidableEq, Repr

/-- A request context of an instance, and the recorded request it was made for. -/
structure Handling (ι : Type u) where
  receiver : ι
  origin : Option (Message ι)
  context : LazyRequestContext
  deriving DecidableEq, Repr

/-- An event stamped while a request is handled. -/
structure Event (ι : Type u) where
  receiver : ι
  origin : Option (Message ι)
  seq : Nat
  deriving DecidableEq, Repr

structure State (ι : Type u) where
  clock : ι → EventClock
  messages : List (Message ι)
  handlings : List (Handling ι)
  events : List (Event ι)

/-- How far the two `setHeader` calls come before one of them throws. -/
inductive Injection
  | both
  | traceparentOnly
  | neither
  deriving DecidableEq, Repr

inductive Action (ι : Type u)
  /-- `createRequestContext` for a request that an instance sent. -/
  | receive (receiver : ι) (message : Nat)
  /-- `createRequestContext` for a request of anybody else. -/
  | receiveForeign (receiver : ι) (traceparent tracestate : Option Text)
  /-- A read of a trace field of the request context. -/
  | ensureTraceMaterialized (handling : Nat) (ids : FreshIds)
  /-- A recorder that materializes the trace and stamps its event. -/
  | record (handling : Nat) (ids : FreshIds)
  | handleRequestStart (handling : Nat) (ids : FreshIds) (injection : Injection)
  /-- The inspector stamps its entry without a look at the trace. -/
  | onPaused (handling : Nat)
  /-- An event outside of any request. -/
  | tick (service : ι)

namespace Injection

def traceparent (headers : TraceHeaders) : Injection → Option Text
  | both | traceparentOnly => some headers.traceparent
  | neither => none

def tracestate (headers : TraceHeaders) : Injection → Option Text
  | both => some headers.tracestate
  | traceparentOnly | neither => none

end Injection

section Steps

variable [DecidableEq ι] (key : ι → VendorKey)

namespace State

def setClock (s : State ι) (service : ι) (clock : EventClock) : State ι :=
  { s with clock := Function.update s.clock service clock }

/-- The trace of a request context is used, perhaps for the first time. -/
def ensureTraceMaterialized (s : State ι) (index : Nat) (handling : Handling ι) (ids : FreshIds) :
    State ι :=
  let (trace, clock) := handling.context.ensureTraceMaterialized (key handling.receiver) ids
    (s.clock handling.receiver)
  let context := { handling.context with materializedTrace := some trace }
  { s.setClock handling.receiver clock with
    handlings := s.handlings.set index { handling with context } }

def stamp (s : State ι) (handling : Handling ι) : State ι :=
  let clock := (s.clock handling.receiver).tick
  { s.setClock handling.receiver clock with
    events := s.events ++
      [{ receiver := handling.receiver, origin := handling.origin, seq := clock.value }] }

/-- The headers are written before the event is stamped. -/
def handleRequestStart (s : State ι) (index : Nat) (handling : Handling ι) (ids : FreshIds)
    (injection : Injection) : State ι :=
  let trace := (handling.context.ensureTraceMaterialized (key handling.receiver) ids
    (s.clock handling.receiver)).1
  let s := s.ensureTraceMaterialized key index handling ids
  let headers := getTraceHeaders trace (s.clock handling.receiver) (key handling.receiver)
  let s := s.stamp handling
  { s with
    messages := s.messages ++
      [{  sender := handling.receiver
          seq := (s.clock handling.receiver).value
          traceparent := injection.traceparent headers
          tracestate := injection.tracestate headers }] }

def create (s : State ι) (receiver : ι) (origin : Option (Message ι))
    (traceparent tracestate : Option Text) : State ι :=
  let context := { rawTraceparent := traceparent, rawTracestate := tracestate }
  { s with handlings := s.handlings ++ [{ receiver, origin, context }] }

def step (s : State ι) : Action ι → Option (State ι)
  | .receive receiver message => do
      let m ← s.messages[message]?
      return s.create receiver (some m) m.traceparent m.tracestate
  | .receiveForeign receiver traceparent tracestate =>
      some (s.create receiver none traceparent tracestate)
  | .ensureTraceMaterialized index ids => do
      let handling ← s.handlings[index]?
      return s.ensureTraceMaterialized key index handling ids
  | .record index ids => do
      let handling ← s.handlings[index]?
      return (s.ensureTraceMaterialized key index handling ids).stamp handling
  | .handleRequestStart index ids injection => do
      let handling ← s.handlings[index]?
      return s.handleRequestStart key index handling ids injection
  | .onPaused index => do
      let handling ← s.handlings[index]?
      return s.stamp handling
  | .tick service => some (s.setClock service (s.clock service).tick)

/-- Every instance has just been started. -/
def Initial (s : State ι) : Prop :=
  (∀ service, s.clock service = { value := 0 }) ∧
    s.messages = [] ∧ s.handlings = [] ∧ s.events = []

/-- No clock has been driven to its ceiling. -/
def BelowCeiling (s : State ι) : Prop :=
  ∀ service, (s.clock service).value < maxSafeInteger

end State

/-- A request between two instances that use the same entry of the `tracestate` header. -/
def IsPeer (receiver : ι) (m : Message ι) : Prop := key m.sender = key receiver

/-- Every event of a request comes after the outbound event of its sender. -/
def State.Causal (s : State ι) : Prop :=
  ∀ e ∈ s.events, ∀ m, e.origin = some m → IsPeer key e.receiver m → m.seq < e.seq

def system : Transition.System (State ι) (Action ι) where
  init := State.Initial
  step := State.step key

end Steps

end ErrorCore.Lamport
