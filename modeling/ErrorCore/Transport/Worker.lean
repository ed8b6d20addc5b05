import Mathlib.Logic.Function.Basic
import ErrorCore.Foundation.Text
import ErrorCore.Foundation.Transition

/-!
# The transport worker

The worker thread of `src/transport/transport.ts`: the messages that the
dispatcher posts, and the handler that the worker starts for each of them. A
handler runs up to its first `await` when its message is delivered, and from
there to the next one whenever the operation it waits for has completed. The
port does not wait for a handler before it delivers the next message.

A label of the system names the handler that goes on and the outcome of its
operation, so that file operations complete in any order and with any outcome.
Removing old backups happens inside the step that completes a rotation.
-/

namespace ErrorCore.TransportWorker

/-- `workerData.config.transport`, with the default size limit filled in. -/
inductive TransportConfig
  | stdout
  | file (hasDirectory : Bool) (maxSizeBytes : Nat)
  deriving DecidableEq, Repr

inductive MessageType
  | send (payload : Text)
  | flush
  | shutdown
  deriving DecidableEq, Repr

structure Message where
  id : Nat
  type : MessageType
  deriving DecidableEq, Repr

def Message.isSend (message : Message) : Bool :=
  match message.type with
  | .send _ => true
  | _ => false

/-- The operation that a handler awaits. -/
inductive Phase
  | stdoutWrite
  | awaitRotation (owner : Nat)
  | stat
  | rename
  | mkdir
  | appendFile
  | openFile
  | fsync
  | close (error : Option Text)
  | returned
  deriving DecidableEq, Repr

/-- How an operation completes; `size` is the answer of `fs.stat`. -/
inductive Outcome
  | ok
  | size (bytes : Nat)
  | enoent
  | failed (message : Text)
  deriving DecidableEq, Repr

def Outcome.error : Outcome → Option Text
  | .ok => none
  | .size _ => none
  | .enoent => some "ENOENT"
  | .failed message => some message

structure Handler where
  message : Message
  phase : Phase
  deriving DecidableEq, Repr

/-- What the worker posts back; without an error it is the acknowledgement. -/
structure Reply where
  id : Nat
  error : Option Text
  deriving DecidableEq, Repr

structure State where
  config : TransportConfig
  requestId : Nat
  /-- Every message posted so far. -/
  posted : List Message
  /-- The messages that are not delivered yet. -/
  inbox : List Message
  /-- The handlers that have not returned, by the id of their message. -/
  handlers : Nat → Option Handler
  /-- The handler whose rotation `rotatePromise` is. -/
  rotatePromise : Option Nat
  /-- The rotations that have settled, with their error. -/
  rotations : Nat → Option (Option Text)
  appended : List (Nat × Text)
  replies : List Reply
  closed : Bool

namespace State

variable (s : State)

def setPhase (message : Message) (phase : Phase) : State :=
  { s with handlers := Function.update s.handlers message.id (some ⟨message, phase⟩) }

/-- The handler posts its reply and returns. A closed port drops the reply. -/
def reply (message : Message) (error : Option Text) : State :=
  { s with
    handlers := Function.update s.handlers message.id none
    replies := if s.closed then s.replies else s.replies ++ [⟨message.id, error⟩] }

/-! ## Sending -/

/-- `rotatePromise = rotateOnce()` and its first operation. -/
def rotateOnce (message : Message) : State :=
  { s with rotatePromise := some message.id }.setPhase message .stat

def rotateIfNeeded (message : Message) : State :=
  match s.rotatePromise with
  | some owner => s.setPhase message (.awaitRotation owner)
  | none => s.rotateOnce message

def ensureDirectory (message : Message) : State :=
  match s.config with
  | .file true _ => s.setPhase message .mkdir
  | _ => s.setPhase message .appendFile

/-- The rotation settles, and its own handler clears `rotatePromise` before anybody else resumes. -/
def settleRotation (message : Message) (error : Option Text) : State :=
  let s := { s with
    rotatePromise := none
    rotations := Function.update s.rotations message.id (some error) }
  match error with
  | none => s.ensureDirectory message
  | some error => s.reply message (some error)

def exceedsMaxSize (bytes : Nat) : Bool :=
  match s.config with
  | .file _ maxSizeBytes => maxSizeBytes < bytes
  | .stdout => false

/-- A failed `fs.stat` counts as no file. -/
def onStat (message : Message) : Outcome → State
  | .size bytes =>
      if s.exceedsMaxSize bytes then s.setPhase message .rename
      else s.settleRotation message none
  | _ => s.settleRotation message none

def onMkdir (message : Message) (error : Option Text) : State :=
  match error with
  | none => s.setPhase message .appendFile
  | some error => s.reply message (some error)

def serialized : MessageType → Text
  | .send payload => payload
  | _ => []

def onAppend (message : Message) (error : Option Text) : State :=
  match error with
  | none =>
      { s with
        appended := s.appended ++ [(message.id, serialized message.type ++ ['\n'])] }.reply
        message none
  | some error => s.reply message (some error)

/-- A rotation that rejected makes the handlers waiting for it fail as well. -/
def onRotation (message : Message) (owner : Nat) : Option State :=
  match s.rotations owner with
  | none => none
  | some none => some (s.rotateOnce message)
  | some (some error) => some (s.reply message (some error))

/-! ## Flushing and shutting down -/

/-- A file that does not exist has nothing to flush. -/
def onOpen (message : Message) : Outcome → State
  | .enoent => s.reply message none
  | .failed error => s.reply message (some error)
  | _ => s.setPhase message .fsync

def onReturned (message : Message) : State :=
  if message.type = .shutdown then { s.reply message none with closed := true }
  else s.reply message none

/-! ## Steps -/

/-- The handler up to its first `await`. -/
def start (message : Message) : State :=
  match message.type, s.config with
  | .send _, .stdout => s.setPhase message .stdoutWrite
  | .send _, .file _ _ => s.rotateIfNeeded message
  | .flush, .stdout => s.setPhase message .returned
  | .flush, .file _ _ => s.setPhase message .openFile
  | .shutdown, _ => s.setPhase message .returned

/-- The handler from one `await` to the next. -/
def resume (message : Message) (outcome : Outcome) : Phase → Option State
  | .stdoutWrite => some (s.reply message outcome.error)
  | .awaitRotation owner => s.onRotation message owner
  | .stat => some (s.onStat message outcome)
  | .rename => some (s.settleRotation message outcome.error)
  | .mkdir => some (s.onMkdir message outcome.error)
  | .appendFile => some (s.onAppend message outcome.error)
  | .openFile => some (s.onOpen message outcome)
  | .fsync => some (s.setPhase message (.close outcome.error))
  | .close error => some (s.reply message error)
  | .returned => some (s.onReturned message)

/-- `dispatchToWorker`: the next id, and the message to the worker. -/
def post (type : MessageType) : State :=
  let message : Message := ⟨s.requestId + 1, type⟩
  { s with
    requestId := s.requestId + 1
    posted := s.posted ++ [message]
    inbox := s.inbox ++ [message] }

end State

inductive Action
  | post (type : MessageType)
  | deliver
  | resume (id : Nat) (outcome : Outcome)
  deriving DecidableEq, Repr

def State.step (s : State) : Action → Option State
  | .post type => some (s.post type)
  | .deliver =>
      match s.closed, s.inbox with
      | false, message :: rest => some ({ s with inbox := rest }.start message)
      | _, _ => none
  | .resume id outcome =>
      match s.handlers id with
      | none => none
      | some handler => s.resume handler.message outcome handler.phase

def initial (config : TransportConfig) : State where
  config := config
  requestId := 0
  posted := []
  inbox := []
  handlers := fun _ => none
  rotatePromise := none
  rotations := fun _ => none
  appended := []
  replies := []
  closed := false

def system : Transition.System State Action where
  init s := ∃ config, s = initial config
  step := State.step

end ErrorCore.TransportWorker
