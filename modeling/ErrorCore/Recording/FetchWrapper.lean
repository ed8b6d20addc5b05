import ErrorCore.Foundation.Transition
import ErrorCore.Types

/-!
# Fetch wrapper

`patchedFetch` of `src/recording/fetch-wrapper.ts` and `handleRequestCreate` of
`src/recording/undici.ts`, which meet in the queue `pendingFetchResolvers`. A call puts
its resolver into the queue before it calls the original fetch; the create event of a
request takes the first resolver out of it and hands it the new slot. When the call
settles, it writes the response or the error to that slot, and if it has none to the
newest slot of its context with its method, URL and target, or else to a new one.

Slots and contexts are objects that several parties hold; they are named by numbers.
A slot keeps the fields by which it is found and those that the call writes. Its `owner`
is not in the code: it records for which call the slot was pushed. `writes` records
which call has written to which slot.
-/

namespace ErrorCore.FetchWrapper

abbrev SlotId := Nat
abbrev ContextId := Nat
abbrev InvocationId := Nat

/-- What a slot was pushed for. -/
inductive Owner
  /-- A request that the original fetch of the call dispatched. -/
  | dispatch (invocation : InvocationId)
  /-- `createFallbackFetchSlot` of the call. -/
  | fallback (invocation : InvocationId)
  | other
  deriving DecidableEq, Repr

def Owner.invocation : Owner → Option InvocationId
  | .dispatch invocation => some invocation
  | .fallback invocation => some invocation
  | .other => none

structure Slot where
  owner : Owner
  phase : IOEventPhase
  type : IOEventType
  direction : IODirection
  requestId : Option Text
  contextLost : Bool
  target : Text
  method : Option Text
  url : Option Text
  statusCode : Option Nat
  requestHeaders : Option Headers
  responseHeaders : Option Headers
  responseBody : Option Body
  responseBodyTruncated : Bool
  error : Option EventError
  aborted : Bool
  deriving DecidableEq, Repr

/-- The objects that recorders share, and the functions of the platform they call. -/
structure Environment where
  requestId : ContextId → Text
  maxIOEvents : Nat
  filterAndNormalizeHeaders : Headers → Headers
  scrubUrl : Text → Text
  /-- `new URL(url).origin`, unless the URL does not parse. -/
  urlOrigin : Text → Option Text
  toUpperCase : Text → Text
  /-- `typeof deps.buffer.push === 'function'`. -/
  bufferPushes : Bool

/-! ## Calls -/

inductive FetchInput
  | string (url : Text)
  | url (href : Text)
  | request (method url : Text)
  /-- Any other value, with its `String(input)`. -/
  | other (text : Text)
  deriving DecidableEq, Repr

structure PreparedFetchArgs where
  input : FetchInput
  initMethod : Option Text
  requestHeaders : Option Headers
  deriving DecidableEq, Repr

structure FetchInfo where
  method : Text
  target : Text
  url : Text
  deriving DecidableEq, Repr

def FetchInput.urlText : FetchInput → Text
  | .string text => text
  | .url href => href
  | .request _ href => href
  | .other text => text

def extractFetchInfo (env : Environment) (prepared : PreparedFetchArgs) : FetchInfo :=
  let method :=
    match prepared.initMethod, prepared.input with
    | some method, _ => method
    | none, .request method _ => method
    | none, _ => "GET"
  let url := prepared.input.urlText
  { method := env.toUpperCase method
    target := (env.urlOrigin url).getD url
    url }

/-- `boundSlot` of a call. -/
inductive BoundSlot
  | undefined
  | null
  | slot (id : SlotId)
  deriving DecidableEq, Repr

/-- How far a call is. -/
inductive Stage
  | awaiting
  /-- The clone of the response is read into the slot. -/
  | capturing (id : SlotId)
  | over
  deriving DecidableEq, Repr

structure Invocation where
  context : Option ContextId
  prepared : PreparedFetchArgs
  captureBodies : Bool
  boundSlot : BoundSlot
  stage : Stage
  deriving DecidableEq, Repr

structure Write where
  slot : SlotId
  invocation : InvocationId
  deriving DecidableEq, Repr

structure State where
  slots : List Slot
  ioEvents : ContextId → List SlotId
  invocations : List Invocation
  pendingFetchResolvers : List InvocationId
  writes : List Write

namespace State

def updateSlot (s : State) (id : SlotId) (f : Slot → Slot) : State :=
  { s with slots := s.slots.modify id f }

def updateInvocation (s : State) (i : InvocationId) (f : Invocation → Invocation) : State :=
  { s with invocations := s.invocations.modify i f }

/-- `buffer.push`; the new slot is the number of slots before. -/
def pushSlot (s : State) (slot : Slot) : State := { s with slots := s.slots ++ [slot] }

end State

variable (env : Environment)

def pushIOEvent (s : State) (context : Option ContextId) (id : SlotId) : State :=
  match context with
  | none => s
  | some c =>
      if (s.ioEvents c).length ≥ env.maxIOEvents then s
      else { s with ioEvents := Function.update s.ioEvents c (s.ioEvents c ++ [id]) }

/-! ## The create event -/

/-- How far `handleRequestCreate` comes with an event. -/
inductive Recording
  /-- A request of the SDK itself, or an exception before the slot is pushed. -/
  | ignored
  /-- The capture of the request body throws. -/
  | interrupted
  | complete
  deriving DecidableEq, Repr

structure UndiciRequest where
  method : Option Text
  origin : Option Text
  path : Option Text
  url : Option Text
  headers : Headers
  recording : Recording
  deriving DecidableEq, Repr

structure ExtractedTarget where
  method : Option Text
  target : Text
  url : Option Text
  deriving DecidableEq, Repr

def extractTarget (request : UndiciRequest) : ExtractedTarget :=
  let origin := request.origin.getD []
  let path := request.path.getD []
  let url :=
    match request.url with
    | some url => some url
    | none => if origin ≠ [] ∨ path ≠ [] then some (origin ++ path) else none
  { method := request.method
    target := if origin ≠ [] then origin else url.getD "undici"
    url }

def createdSlot (context : Option ContextId) (owner : Owner) (request : UndiciRequest) : Slot where
  owner
  phase := .active
  type := .undici
  direction := .outbound
  requestId := context.map env.requestId
  contextLost := context.isNone
  target := env.scrubUrl (extractTarget request).target
  method := (extractTarget request).method
  url := (extractTarget request).url.map env.scrubUrl
  statusCode := none
  requestHeaders := some (env.filterAndNormalizeHeaders request.headers)
  responseHeaders := none
  responseBody := none
  responseBodyTruncated := false
  error := none
  aborted := false

/-- `bindFetchSlot` of a call. -/
def bindFetchSlot (s : State) (i : InvocationId) (boundSlot : BoundSlot) : State :=
  s.updateInvocation i fun call => { call with boundSlot }

/-- The notification at the end of `handleRequestCreate`. -/
def notifyPendingFetch (s : State) (id : SlotId) : State :=
  match s.pendingFetchResolvers with
  | [] => s
  | resolver :: rest =>
      bindFetchSlot { s with pendingFetchResolvers := rest } resolver (.slot id)

def handleRequestCreate (s : State) (context : Option ContextId) (owner : Owner)
    (request : UndiciRequest) : State :=
  let id := s.slots.length
  let recorded :=
    pushIOEvent env (s.pushSlot (createdSlot env context owner request)) context id
  match request.recording with
  | .ignored => s
  | .interrupted => recorded
  | .complete => notifyPendingFetch recorded id

/-! ## A call settles -/

def removePendingResolver (s : State) (i : InvocationId) : State :=
  { s with pendingFetchResolvers := s.pendingFetchResolvers.erase i }

/-- `boundSlot` turns from `undefined` to `null`, and the resolver is given up. -/
def stopWaiting (s : State) (i : InvocationId) : State :=
  let closed :=
    s.updateInvocation i fun call =>
      { call with boundSlot := if call.boundSlot = .undefined then .null else call.boundSlot }
  removePendingResolver closed i

def Slot.matches (info : FetchInfo) (slot : Slot) : Bool :=
  slot.type = .undici ∧ slot.direction = .outbound ∧ slot.method = some info.method ∧
    slot.url = some info.url ∧ slot.target = info.target

/-- The newest slot of the context that looks like one of the call. -/
def findMatchingContextSlot (s : State) (context : Option ContextId)
    (prepared : PreparedFetchArgs) : Option SlotId :=
  match context with
  | none => none
  | some c =>
      (s.ioEvents c).reverse.find? fun id =>
        (s.slots[id]?).any (Slot.matches (extractFetchInfo env prepared))

def fallbackSlot (i : InvocationId) (call : Invocation) : Slot where
  owner := .fallback i
  phase := .active
  type := .undici
  direction := .outbound
  requestId := call.context.map env.requestId
  contextLost := call.context.isNone
  target := (extractFetchInfo env call.prepared).target
  method := some (extractFetchInfo env call.prepared).method
  url := some (extractFetchInfo env call.prepared).url
  statusCode := none
  requestHeaders := call.prepared.requestHeaders.map env.filterAndNormalizeHeaders
  responseHeaders := none
  responseBody := none
  responseBodyTruncated := false
  error := none
  aborted := false

/-- The slot that the call writes to, and the state after a fallback slot was created for it. -/
def resolveRecordedFetchSlot (s : State) (i : InvocationId) (call : Invocation) :
    Option (State × SlotId) :=
  match call.boundSlot with
  | .slot id => some (s, id)
  | _ =>
      match findMatchingContextSlot env s call.context call.prepared with
      | some id => some (s, id)
      | none =>
          if env.bufferPushes then
            let id := s.slots.length
            some (pushIOEvent env (s.pushSlot (fallbackSlot env i call)) call.context id, id)
          else none

def attachContextToSlot (s : State) (id : SlotId) (context : Option ContextId) : State :=
  match context, s.slots[id]? with
  | some c, some slot =>
      if slot.requestId ≠ none ∧ slot.contextLost = false then s
      else
        let attached :=
          s.updateSlot id fun slot =>
            { slot with requestId := some (env.requestId c), contextLost := false }
        pushIOEvent env attached context id
  | _, _ => s

/-- `{ ...old, ...new }`. -/
def spreadHeaders (old new : Headers) : Headers :=
  (old.map fun entry => (entry.1, (new.lookup entry.1).getD entry.2)) ++
    new.filter fun entry => (old.lookup entry.1).isNone

def mergePreparedRequestHeaders (requestHeaders : Option Headers) (slot : Slot) : Slot :=
  match requestHeaders with
  | none => slot
  | some headers =>
      { slot with
        requestHeaders :=
          some (env.filterAndNormalizeHeaders
            (spreadHeaders (slot.requestHeaders.getD []) headers)) }

structure FetchResponse where
  status : Nat
  headers : Headers
  /-- `response.clone()` does not throw. -/
  clones : Bool
  deriving DecidableEq, Repr

structure FetchError where
  name : Text
  message : Text
  code : Option Text
  deriving DecidableEq, Repr

inductive Outcome
  | response (response : FetchResponse)
  | error (error : FetchError)
  deriving DecidableEq, Repr

/-- `finishSlotAt`, without the times. -/
def finishSlotAt (slot : Slot) : Slot := { slot with phase := .done }

def markSlotError (error : FetchError) (slot : Slot) : Slot :=
  finishSlotAt
    { slot with
      error := some { type := error.name, message := error.message }
      aborted :=
        slot.aborted || error.name = "TimeoutError" || error.name = "AbortError" ||
          error.code = some "UND_ERR_ABORTED" }

def writeResponse (captureBodies : Bool) (response : FetchResponse) (slot : Slot) : Slot :=
  finishSlotAt
    { slot with
      responseHeaders := some (env.filterAndNormalizeHeaders response.headers)
      statusCode := some response.status
      responseBodyTruncated :=
        slot.responseBodyTruncated || (captureBodies && !response.clones) }

/-- What the call writes to its slot when it settles. -/
def writeOutcome (call : Invocation) (outcome : Outcome) (slot : Slot) : Slot :=
  let merged := mergePreparedRequestHeaders env call.prepared.requestHeaders slot
  match outcome with
  | .response response => writeResponse env call.captureBodies response merged
  | .error error => markSlotError error merged

def stageAfter (call : Invocation) (outcome : Outcome) (id : SlotId) : Stage :=
  match outcome with
  | .response response =>
      if call.captureBodies && response.clones then .capturing id else .over
  | .error _ => .over

def State.write (s : State) (i : InvocationId) (id : SlotId) (f : Slot → Slot) : State :=
  { s.updateSlot id f with writes := s.writes ++ [{ slot := id, invocation := i }] }

def State.setStage (s : State) (i : InvocationId) (stage : Stage) : State :=
  s.updateInvocation i fun call => { call with stage }

/-- What follows the `await` of the original fetch. -/
def settle (s : State) (i : InvocationId) (call : Invocation) (outcome : Outcome) : State :=
  match resolveRecordedFetchSlot env (stopWaiting s i) i call with
  | none => (stopWaiting s i).setStage i .over
  | some (resolved, id) =>
      let attached := attachContextToSlot env resolved id call.context
      (attached.write i id (writeOutcome env call outcome)).setStage i (stageAfter call outcome id)

/-! ## Runs -/

/-- What the synchronous part of a call does after it has queued its resolver. -/
inductive Dispatch
  /-- `prepareFetchArgs` throws; the call is rejected and its resolver stays. -/
  | throws
  | never
  | emits (request : UndiciRequest)
  deriving DecidableEq, Repr

inductive Action
  | fetch (context : Option ContextId) (prepared : PreparedFetchArgs) (captureBodies : Bool)
      (dispatch : Dispatch)
  /-- The original fetch of a call dispatches again, as for a redirect. -/
  | redispatch (i : InvocationId) (request : UndiciRequest)
  /-- A request that does not go through the wrapper. -/
  | request (context : Option ContextId) (request : UndiciRequest)
  | bindTimeout (i : InvocationId)
  | settle (i : InvocationId) (outcome : Outcome)
  | captureBody (i : InvocationId) (body : Body) (truncated : Bool)
  /-- Another recorder pushes a slot. -/
  | otherEvent (context : Option ContextId) (slot : Slot)
  | clearContext (context : ContextId)
  deriving DecidableEq, Repr

def startInvocation (s : State) (context : Option ContextId) (prepared : PreparedFetchArgs)
    (captureBodies : Bool) (stage : Stage) : State :=
  { s with
    invocations :=
      s.invocations ++ [{ context, prepared, captureBodies, boundSlot := .undefined, stage }]
    pendingFetchResolvers := s.pendingFetchResolvers ++ [s.invocations.length] }

/-- The part of `patchedFetch` before the `await`. -/
def patchedFetch (s : State) (context : Option ContextId) (prepared : PreparedFetchArgs)
    (captureBodies : Bool) (dispatch : Dispatch) : State :=
  match dispatch with
  | .throws => startInvocation s context prepared captureBodies .over
  | .never => startInvocation s context prepared captureBodies .awaiting
  | .emits request =>
      handleRequestCreate env (startInvocation s context prepared captureBodies .awaiting) context
        (.dispatch s.invocations.length) request

def step (s : State) : Action → Option State
  | .fetch context prepared captureBodies dispatch =>
      some (patchedFetch env s context prepared captureBodies dispatch)
  | .redispatch i request =>
      match s.invocations[i]? with
      | none => none
      | some call => some (handleRequestCreate env s call.context (.dispatch i) request)
  | .request context request => some (handleRequestCreate env s context .other request)
  | .bindTimeout i => if i ∈ s.pendingFetchResolvers then some (stopWaiting s i) else none
  | .settle i outcome =>
      match s.invocations[i]? with
      | none => none
      | some call =>
          if call.stage = .awaiting then some (settle env s i call outcome) else none
  | .captureBody i body truncated =>
      match s.invocations[i]? with
      | none => none
      | some call =>
          match call.stage with
          | .capturing id =>
              some (s.write i id fun slot =>
                { slot with
                  responseBody := some body
                  responseBodyTruncated := truncated })
          | _ => none
  | .otherEvent context slot =>
      some (pushIOEvent env (s.pushSlot { slot with owner := .other }) context s.slots.length)
  | .clearContext c => some { s with ioEvents := Function.update s.ioEvents c [] }

def initial : State where
  slots := []
  ioEvents := fun _ => []
  invocations := []
  pendingFetchResolvers := []
  writes := []

def system : Transition.System State Action where
  init s := s = initial
  step := step env

end ErrorCore.FetchWrapper
