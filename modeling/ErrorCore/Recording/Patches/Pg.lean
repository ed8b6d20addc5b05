import ErrorCore.Foundation.Transition
import ErrorCore.Foundation.UseCount
import ErrorCore.Types

/-!
# pg patch

`instrumentQuery` of `src/recording/patches/pg.ts`, on `Pool.query` and on
`Client.query`. A pool delegates each of its queries to a client, whose patched
method must not record it again: while a pool query is in flight, the map
`activePoolQueriesByContext` has its signature under the context that issued it,
and a client query with an active signature passes through.

The maps of the contexts are one map here, whose keys are a context and a
signature; the key without a context is `activePoolQueriesWithoutContext`. The
`poolCall` of a call and the `call` of an event are not in the code: they say on
whose behalf a call was made and which call has pushed an event.
-/

namespace ErrorCore.Pg

abbrev ContextId := Nat
abbrev CallId := Nat

inductive PgQuerySource
  | client
  | pool
  deriving DecidableEq, Repr

structure PgQueryDetails (Value : Type) where
  text : Text
  values : List Value
  deriving DecidableEq, Repr

/-- The configuration and the functions of other modules. -/
structure Environment (Value : Type) where
  requestId : ContextId → Text
  stringifyParam : Value → Text
  scrubParam : Value → Value
  redactSensitiveQueryText : Text → Text
  captureDbBindParams : Bool

structure PgEvent where
  call : CallId
  phase : IOEventPhase
  requestId : Option Text
  contextLost : Bool
  target : Text
  query : Text
  params : Option Text
  rowCount : Option Nat
  error : Option EventError
  deriving DecidableEq, Repr

/-- What the recorder does with a call. -/
inductive Recording
  | passedThrough
  | active (event : PgEvent)
  | finished
  deriving DecidableEq, Repr

structure Call (Value : Type) where
  source : PgQuerySource
  /-- The pool query that made the call; a call of the host has none. -/
  poolCall : Option CallId
  context : Option ContextId
  query : PgQueryDetails Value
  recording : Recording
  /-- `releasePoolQuery` is not `null`. -/
  holdsPoolQuery : Bool
  /-- The pool has made the client query of this call. -/
  delegated : Bool
  settled : Bool
  deriving DecidableEq, Repr

abbrev Signature := Option ContextId × Text

structure State (Value : Type) where
  calls : List (Call Value)
  activePoolQueries : UseCount Signature
  events : List PgEvent

variable {Value : Type} (env : Environment Value)

def querySignature (query : PgQueryDetails Value) : Text :=
  query.text ++ Char.ofNat 0 :: Text.join [Char.ofNat 0] (query.values.map env.stringifyParam)

def Call.signature (call : Call Value) : Signature := (call.context, querySignature env call.query)

/-- `[PARAM_1]`, `[PARAM_2]` and so on. -/
def placeholders (values : List Value) : List Text :=
  (List.range values.length).map fun index => s!"[PARAM_{index + 1}]"

def formatParams (values : List Value) : Option Text :=
  if values.isEmpty then none
  else if env.captureDbBindParams then
    some (Text.join ", " (values.map fun value => env.stringifyParam (env.scrubParam value)))
  else some (Text.join ", " (placeholders values))

def createBaseEvent (call : CallId) (context : Option ContextId) (target : Text)
    (query : PgQueryDetails Value) : PgEvent where
  call
  phase := .active
  requestId := context.map env.requestId
  contextLost := context.isNone
  target
  query := env.redactSensitiveQueryText query.text
  params := formatParams env query.values
  rowCount := none
  error := none

/-- How a call comes back. -/
inductive Outcome
  /-- A result or an error, by a promise, a callback, a return or an exception. -/
  | completed (rowCount : Option Nat) (error : Option EventError)
  /-- An object with listeners, which is recorded as it is. -/
  | stream
  deriving DecidableEq, Repr

def finalizeEvent (event : PgEvent) : Outcome → PgEvent
  | .completed rowCount error => { event with phase := .done, rowCount, error }
  | .stream => event

/-- `patchedQuery` until the original has been called. -/
def patchedQuery (s : State Value) (source : PgQuerySource) (poolCall : Option CallId)
    (context : Option ContextId) (target : Text) (query : PgQueryDetails Value) : State Value :=
  let signature : Signature := (context, querySignature env query)
  let call (recording : Recording) (holdsPoolQuery : Bool) : Call Value :=
    { source, poolCall, context, query, recording, holdsPoolQuery
      delegated := false
      settled := false }
  let event := createBaseEvent env s.calls.length context target query
  match source with
  | .client =>
      if s.activePoolQueries signature ≠ none then
        { s with calls := s.calls ++ [call .passedThrough false] }
      else { s with calls := s.calls ++ [call (.active event) false] }
  | .pool =>
      { s with
        calls := s.calls ++ [call (.active event) true]
        activePoolQueries := s.activePoolQueries.mark signature }

/-- `releasePoolQuery?.()`. -/
def releasePoolQuery (s : State Value) (call : Call Value) : UseCount Signature :=
  if call.holdsPoolQuery then s.activePoolQueries.release (call.signature env)
  else s.activePoolQueries

/-- `finish` of a call, or what is done for a stream in its place. -/
def finish (s : State Value) (i : CallId) (call : Call Value) (outcome : Outcome) : State Value :=
  match call.recording with
  | .passedThrough => { s with calls := s.calls.set i { call with settled := true } }
  | .finished => s
  | .active event =>
      { calls :=
          s.calls.set i
            { call with
              recording := .finished
              holdsPoolQuery := false
              settled := true }
        activePoolQueries := releasePoolQuery env s call
        events := s.events ++ [finalizeEvent event outcome] }

/-! ## Runs -/

inductive Action (Value : Type)
  /-- The host calls the patched method of a pool or a client. -/
  | issue (source : PgQuerySource) (context : Option ContextId) (target : Text)
      (query : PgQueryDetails Value)
  /-- A pool runs its query on a client, in whatever context that happens. -/
  | delegate (i : CallId) (context : Option ContextId) (target : Text)
  /-- The driver answers a call. -/
  | settle (i : CallId) (outcome : Outcome)
  deriving DecidableEq, Repr

/-- A pool query is delegated once, before it settles. -/
def step (s : State Value) : Action Value → Option (State Value)
  | .issue source context target query =>
      some (patchedQuery env s source none context target query)
  | .delegate i context target =>
      match s.calls[i]? with
      | none => none
      | some call =>
          if call.source = .pool ∧ call.delegated = false ∧ call.settled = false then
            let delegating := { s with calls := s.calls.set i { call with delegated := true } }
            some (patchedQuery env delegating .client (some i) context target call.query)
          else none
  | .settle i outcome =>
      match s.calls[i]? with
      | none => none
      | some call =>
          if call.source = .pool → call.delegated = true then some (finish env s i call outcome)
          else none

def initial : State Value where
  calls := []
  activePoolQueries := .empty
  events := []

def system : Transition.System (State Value) (Action Value) where
  init s := s = initial
  step := step env

end ErrorCore.Pg
