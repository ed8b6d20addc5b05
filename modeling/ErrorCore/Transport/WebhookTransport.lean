import ErrorCore.Foundation.Transition
import ErrorCore.Transport.LocalEventStore

/-!
# The webhook transport

`src/transport/webhook-transport.ts`. A send is written to the local event store
and put into a queue; `drainQueue` delivers the queue in batches. A step is what
runs without giving up control: a call up to its first `await`, or what follows
one. The loops of `drainQueueInner` are kept in the order they were started, and
`drainPromise` is the index of the one whose promise the field holds.

Besides the fields of the object the state records, for the statements about
runs, which ids were given out, in which order sends were queued, which sends
resolved and which records were acknowledged, in the order in which they were.
-/

namespace ErrorCore

open LocalEventStore

structure WebhookTransportConfig where
  batchSize : Nat
  retries : Nat
  maxBufferEvents : Nat
  retainOnAck : Bool
  store : LocalEventStoreOptions
  /-- What the validation of the configuration ensures. -/
  batchSize_pos : 0 < batchSize
  retries_pos : 0 < retries
  maxBufferEvents_pos : 0 < maxBufferEvents

namespace WebhookTransport

/-- A call of `drainQueueInner`: sending a batch, at its end, or after its `finally`. -/
inductive Loop
  | sending (batch : List LocalEventStoreRecord) (attempt : Nat)
  | returned
  | closed
  deriving DecidableEq, Repr

/-- What `sendBatchOnce` comes to. -/
inductive Outcome
  | acknowledged
  | failed (retryable : Bool)
  deriving DecidableEq, Repr

/-- A call of `send` with what its environment supplies. -/
structure SendCall extends AppendCall where
  /-- The file can be read after the append. -/
  readable : Bool
  deriving DecidableEq, Repr

structure State where
  files : StoreFiles
  rotateCounter : Nat
  queue : List LocalEventStoreRecord
  drainTimer : Bool
  drainPromise : Option Nat
  loops : List Loop
  /-- For each call of `flush` that awaits a drain, its loop. -/
  flushes : List Nat
  issued : List Text
  sent : List Text
  resolved : List Text
  acknowledged : List Text
  deriving DecidableEq, Repr

inductive Action
  | send (call : SendCall)
  | timer
  | flush
  | resumeFlush (k : Nat)
  | attempt (i : Nat) (outcome : Outcome) (removal : WriteOutcome)
  | finalize (i : Nat)
  | shutdown
  deriving DecidableEq, Repr

def Loop.batch : Loop → List LocalEventStoreRecord
  | .sending batch _ => batch
  | .returned | .closed => []

/-- The attempts at its batch that failed. -/
def Loop.attempts : Loop → Nat
  | .sending _ attempt => attempt
  | .returned | .closed => 0

def Loop.isSending : Loop → Bool
  | .sending _ _ => true
  | .returned | .closed => false

namespace State

variable (numbers : Json.NumberFormat) (cfg : WebhookTransportConfig) (s : State)

/-- The batches in flight. -/
def inFlight : List LocalEventStoreRecord := s.loops.flatMap Loop.batch

def readAll : List LocalEventStoreRecord := LocalEventStore.readAll numbers s.files

/-! ## Draining -/

def scheduleDrain : State := { s with drainTimer := true }

def clearTimer : State := { s with drainTimer := false }

/-- The test of the loop in `drainQueueInner` with the start of its body. -/
def nextBatch : Loop × List LocalEventStoreRecord :=
  if s.queue = [] then (.returned, s.queue)
  else (.sending (s.queue.take cfg.batchSize) 0, s.queue.drop cfg.batchSize)

def drainQueue : State :=
  if s.drainPromise.isSome then s
  else
    let s := s.clearTimer
    { s with
      queue := (s.nextBatch cfg).2
      loops := s.loops ++ [(s.nextBatch cfg).1]
      drainPromise := some s.loops.length }

/-- The loop goes on after a batch. -/
def continueLoop (i : Nat) : State :=
  { s with
    queue := (s.nextBatch cfg).2
    loops := s.loops.set i (s.nextBatch cfg).1 }

/-- The batch was delivered. -/
def acknowledge (i : Nat) (batch : List LocalEventStoreRecord) (removal : WriteOutcome) : State :=
  let acknowledged := { s with acknowledged := s.acknowledged ++ idsOf batch }
  if cfg.retainOnAck then acknowledged.continueLoop cfg i
  else
    { acknowledged with
      files := LocalEventStore.remove numbers s.files (idsOf batch) removal }.continueLoop cfg i

/-- The `catch` of `drainQueueInner`. -/
def putBack (i : Nat) (batch : List LocalEventStoreRecord) : State :=
  { s with queue := batch ++ s.queue, loops := s.loops.set i .returned }.scheduleDrain

/-- Whether `sendBatchWithRetries` throws after this failure. -/
def givesUp (attempt : Nat) (retryable : Bool) : Bool :=
  cfg.retries - 1 ≤ attempt || !retryable

/-! ## Sending -/

/-- The queue with a record at its end. -/
def pushed (queue : List LocalEventStoreRecord) (record : LocalEventStoreRecord) :
    List LocalEventStoreRecord :=
  if cfg.maxBufferEvents ≤ queue.length then queue.drop 1 ++ [record] else queue ++ [record]

def enqueue (record : LocalEventStoreRecord) (schedule : Bool) : State :=
  let s := { s with queue := pushed cfg s.queue record, sent := s.sent ++ [record.id] }
  if !schedule then s
  else if cfg.batchSize ≤ s.queue.length then s.drainQueue cfg
  else s.scheduleDrain

/-- The record that `send` finds after its append. -/
def findRecord (call : SendCall) : Option LocalEventStoreRecord :=
  if call.readable then (s.readAll numbers).find? fun record => record.id = call.id else none

def send (call : SendCall) : State :=
  let (appended, files, rotateCounter) :=
    LocalEventStore.append cfg.store s.files s.rotateCounter call.toAppendCall
  let s := { s with files, rotateCounter, issued := call.id :: s.issued }
  if !appended then s
  else
    match s.findRecord numbers call with
    | none => s
    | some record => { s with resolved := call.id :: s.resolved }.enqueue cfg record true

def flush : State :=
  match s.drainPromise with
  | some i => { s.clearTimer with flushes := s.flushes ++ [i] }
  | none => s.clearTimer.drainQueue cfg

/-- `enqueueExistingRecords`. -/
def enqueueExistingRecords (records : List LocalEventStoreRecord) : State :=
  records.foldl (fun s record => s.enqueue cfg record false) s

/-- A transport constructed over the files. -/
def construct (files : StoreFiles) (readable : Bool) (issued resolved acknowledged : List Text) :
    State :=
  let s : State :=
    { files, rotateCounter := 0, queue := [], drainTimer := false, drainPromise := none
      loops := [], flushes := [], issued, sent := [], resolved, acknowledged }
  s.enqueueExistingRecords cfg (if readable then s.readAll numbers else [])

def resumeFlush (k : Nat) : Option State :=
  match s.flushes[k]? with
  | some i =>
      if s.loops[i]? = some .closed then
        some ({ s with flushes := s.flushes.eraseIdx k }.drainQueue cfg)
      else none
  | none => none

def attempt (i : Nat) (outcome : Outcome) (removal : WriteOutcome) : Option State :=
  match s.loops[i]? with
  | some (.sending batch attempt) =>
      match outcome with
      | .acknowledged => some (s.acknowledge numbers cfg i batch removal)
      | .failed retryable =>
          if givesUp cfg attempt retryable then some (s.putBack i batch)
          else some { s with loops := s.loops.set i (.sending batch (attempt + 1)) }
  | _ => none

/-- The `finally` of `drainQueue`. -/
def finalize (i : Nat) : Option State :=
  if s.loops[i]? = some .returned then
    some { s with loops := s.loops.set i .closed, drainPromise := none }
  else none

/-- A step of one transport. A UUID that was given out is not given out again. -/
def step : Action → Option State
  | .send call => if call.id ∈ s.issued then none else some (s.send numbers cfg call)
  | .timer => if s.drainTimer then some (s.clearTimer.drainQueue cfg) else none
  | .flush => some (s.flush cfg)
  | .resumeFlush k => s.resumeFlush cfg k
  | .attempt i outcome removal => s.attempt numbers cfg i outcome removal
  | .finalize i => s.finalize i
  | .shutdown => some s.clearTimer

end State

end WebhookTransport

end ErrorCore
