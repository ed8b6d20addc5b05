import ErrorCore.Foundation.CyclicIds
import ErrorCore.Foundation.InsertionMap
import ErrorCore.Foundation.Transition

/-!
# The package assembly dispatcher

`src/capture/package-assembly-dispatcher.ts` posts requests to a worker under
numeric ids and keeps the promise of each in the map `pending` until a reply with
the id arrives, the timer of the entry fires, or the worker fails. Requests are
numbered here in the order of the calls; replies name the request they answer.
-/

namespace ErrorCore.PackageAssemblyDispatcher

inductive Kind
  | assemble
  | updateConfig
  | shutdown
  deriving DecidableEq, Repr

/-- The body of a message: `{ error }`, `{ result }` or none of them. -/
inductive Reply
  | error
  | result
  | done
  deriving DecidableEq, Repr

/-- What has settled a promise. -/
inductive Settlement
  /-- The call returned a settled promise and posted nothing. -/
  | refused
  /-- `postMessage` has thrown. -/
  | postFailed
  /-- A reply to a request. -/
  | reply (k : Nat) (resolved : Bool)
  /-- The timer of a request. -/
  | timeout (k : Nat)
  | workerFailed
  deriving DecidableEq, Repr

structure Request where
  kind : Kind
  /-- The id it was posted under. -/
  id : Option Nat
  settled : Option Settlement
  deriving DecidableEq, Repr

structure State where
  requestId : Nat
  /-- The entries of the map: the id and the number of the request. -/
  pending : List (Nat × Nat)
  available : Bool
  hasWorker : Bool
  shuttingDown : Bool
  requests : List Request
  /-- The worker has emitted `error` or `exit`. -/
  workerFailed : Bool
  deriving DecidableEq, Repr

inductive Action
  /-- The calls, with whether `postMessage` takes the message. -/
  | assemble (posts : Bool)
  | updateConfig (posts : Bool)
  | shutdown (posts : Bool)
  /-- A message with the id of a request, which may have been answered before. -/
  | reply (k : Nat) (body : Reply)
  | timeout (k : Nat)
  | error
  | exit
  /-- The race of a shutdown is over. -/
  | shutdownEnds (k : Nat)
  deriving DecidableEq, Repr

def REQUEST_ID_MAX : Nat := 0x7fffffff

def expectsResult (kind : Kind) : Bool := kind = .assemble

/-- Whether a reply resolves the promise of a request. -/
def Reply.resolves (kind : Kind) : Reply → Bool
  | .error => false
  | .result => true
  | .done => !expectsResult kind

namespace State

section Steps

variable (s : State)

def nextRequestId : Nat × Option Nat :=
  CyclicIds.probe REQUEST_ID_MAX (s.pending.map (·.1)) (s.pending.length + 1) s.requestId

/-- A promise settles once. -/
def settle (k : Nat) (settlement : Settlement) : State :=
  { s with
    requests := s.requests.modify k fun request =>
      { request with settled := some (request.settled.getD settlement) } }

/-- A call that returns a settled promise. -/
def refuse (kind : Kind) : State :=
  { s with requests := s.requests ++ [{ kind, id := none, settled := some .refused }] }

/-- An entry is made and the message posted. A call that finds no id throws. -/
def post (kind : Kind) (posts : Bool) : State :=
  match s.nextRequestId with
  | (requestId, none) => { s with requestId }
  | (requestId, some id) =>
      { s with
        requestId
        pending := InsertionMap.set s.pending id s.requests.length
        requests := s.requests ++
          [{ kind, id := some id, settled := if posts then none else some .postFailed }] }

def assemble (posts : Bool) : State :=
  if s.hasWorker && s.available then s.post .assemble posts else s.refuse .assemble

/-- Unlike the others, `updateConfig` takes its entry back when it cannot post. -/
def updateConfig (posts : Bool) : State :=
  if s.hasWorker && s.available && !s.shuttingDown then
    let posted := s.post .updateConfig posts
    match posts, s.nextRequestId.2 with
    | false, some id => { posted with pending := InsertionMap.delete posted.pending id }
    | _, _ => posted
  else
    s.refuse .updateConfig

def shutdown (posts : Bool) : State :=
  let closing := { s with shuttingDown := true }
  if s.hasWorker then closing.post .shutdown posts else closing.refuse .shutdown

/-- The listener of `message`. -/
def reply (j : Nat) (body : Reply) : Option State :=
  match (s.requests[j]?).bind (·.id) with
  | none => none
  | some id =>
      match InsertionMap.get? s.pending id with
      | none => some s
      | some k =>
          let resolved := (s.requests[k]?).any fun request => body.resolves request.kind
          some { s.settle k (.reply j resolved) with
            pending := InsertionMap.delete s.pending id }

/-- The timer of an entry fires. -/
def timeout (k : Nat) : Option State :=
  match (s.requests[k]?).bind (·.id) with
  | none => none
  | some id =>
      if (id, k) ∈ s.pending then
        some { s.settle k (.timeout k) with pending := InsertionMap.delete s.pending id }
      else
        none

def failPending : State :=
  { s.pending.foldl (fun s entry => s.settle entry.2 .workerFailed) s with pending := [] }

/-- The listeners of `error` and `exit`. -/
def fail : State :=
  { s.failPending with available := false, hasWorker := false, workerFailed := true }

def shutdownEnds (k : Nat) : Option State :=
  match s.requests[k]? with
  | some { kind := .shutdown, id := some _, settled := some _ } =>
      some { s with available := false, hasWorker := false }
  | _ => none

def step (s : State) : Action → Option State
  | .assemble posts => some (s.assemble posts)
  | .updateConfig posts => some (s.updateConfig posts)
  | .shutdown posts => some (s.shutdown posts)
  | .reply j body => s.reply j body
  | .timeout k => s.timeout k
  | .error | .exit => some s.fail
  | .shutdownEnds k => s.shutdownEnds k

/-- The worker was created, or could not be. -/
structure Initial : Prop where
  requestId : s.requestId = 0
  pending : s.pending = []
  requests : s.requests = []
  hasWorker : s.hasWorker = s.available
  workerFailed : s.workerFailed = false

def system : Transition.System State Action where
  init := Initial
  step := step

/-- A promise may be settled by this. -/
def Settles (k : Nat) (request : Request) : Settlement → Prop
  | .refused => request.id = none
  | .postFailed => request.id ≠ none
  | .reply j _ => j = k
  | .timeout j => j = k
  | .workerFailed => s.workerFailed = true

/-- Requests and replies are not mixed up. -/
structure Integrity : Prop where
  distinct : (s.pending.map (·.1)).Nodup
  /-- A request whose promise is not settled has an entry of its own. -/
  owned : ∀ (k : Nat) (request : Request) (id : Nat), s.requests[k]? = some request →
    request.settled = none → request.id = some id → (id, k) ∈ s.pending ∧
      ∀ (k' : Nat) (request' : Request), s.requests[k']? = some request' →
        request'.settled = none → request'.id = some id → k' = k
  allocates : s.pending.length < REQUEST_ID_MAX → s.nextRequestId.2.isSome = true
  settled : ∀ (k : Nat) (request : Request) (settlement : Settlement),
    s.requests[k]? = some request → request.settled = some settlement → s.Settles k request settlement
  /-- A promise that is not settled will be, at the latest by its own timer. -/
  settles : ∀ (k : Nat) (request : Request), s.requests[k]? = some request → request.settled = none →
    ∃ t, s.timeout k = some t ∧ (t.requests[k]?).bind (·.settled) = some (.timeout k)
  emptied : s.workerFailed = true → s.pending = []

/-- A reply that comes when the entry is gone comes before its id is given again. -/
def RepliesInTime : Action → Prop
  | .reply k _ =>
      ∀ id ∈ (s.requests[k]?).bind (·.id), (id, k) ∉ s.pending →
        ∀ request ∈ s.requests.drop (k + 1), request.id ≠ some id
  | .assemble _ | .updateConfig _ | .shutdown _ | .timeout _ | .error | .exit
  | .shutdownEnds _ => True

instance (a : Action) : Decidable (s.RepliesInTime a) :=
  match a with
  | .reply k _ =>
      inferInstanceAs (Decidable (∀ id ∈ (s.requests[k]?).bind (·.id), (id, k) ∉ s.pending →
        ∀ request ∈ s.requests.drop (k + 1), request.id ≠ some id))
  | .assemble _ | .updateConfig _ | .shutdown _ | .timeout _ | .error | .exit
  | .shutdownEnds _ => .isTrue trivial

end Steps

end State

end ErrorCore.PackageAssemblyDispatcher
