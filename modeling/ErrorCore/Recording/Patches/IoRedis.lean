import ErrorCore.Foundation.Transition
import ErrorCore.Types

/-!
# ioredis patch

`src/recording/patches/ioredis.ts`. The patched command methods and the patched
`sendCommand` record what they are called for, unless a recorded call on the same
instance is on the stack: `recordingDepth` counts these. A pipeline records the
commands of its queue when it is executed. The driver calls `sendCommand` from
the command methods, from `exec`, and again for a command of its offline queue.

The commands that the host issues are numbered; a queued command is issued when
its pipeline is executed. The `command` of an event, which says for which of them
it is recorded, and the `outcome` of a command are not in the code.
-/

namespace ErrorCore.IoRedis

abbrev ContextId := Nat
abbrev InstanceId := Nat
abbrev CommandId := Nat
abbrev PipelineId := Nat

/-- An argument, if it is a string. -/
abbrev Argument := Option Text

structure RedisCommandLike where
  name : Option Text
  args : Option (List Argument)
  deriving DecidableEq, Repr

structure ParsedRedisCommand where
  name : Text
  args : List Argument
  deriving DecidableEq, Repr

/-- The configuration of the recorder and the functions of other modules. -/
structure Environment where
  requestId : ContextId → Text
  target : InstanceId → Text
  scrubCacheKey : Text → Text
  toUpperCase : Text → Text

structure RedisEvent where
  command : CommandId
  phase : IOEventPhase
  requestId : Option Text
  contextLost : Bool
  target : Text
  method : Text
  query : Text
  collection : Option Text
  error : Option EventError
  deriving DecidableEq, Repr

/-- An entry of a pipeline's `_queue`: an object with a name or with a command, or anything else. -/
inductive QueueEntry
  | object (own : RedisCommandLike) (command : Option RedisCommandLike)
  | other
  deriving DecidableEq, Repr

/-- The pipeline that a command was queued in, its entry there, and whether a patched method of the
pipeline has queued it. -/
structure Queued where
  pipeline : PipelineId
  entry : QueueEntry
  wrapped : Bool
  deriving DecidableEq, Repr

structure HostCommand where
  instance' : InstanceId
  command : ParsedRedisCommand
  queued : Option Queued
  issued : Bool
  /-- How the command ended, once it has. -/
  outcome : Option (Option EventError)
  deriving DecidableEq, Repr

structure Pipeline where
  instance' : InstanceId
  context : Option ContextId
  /-- `_queue` is an array. -/
  native : Bool
  executed : Bool
  /-- The events of `exec` until its promise settles. -/
  recording : List RedisEvent
  deriving DecidableEq, Repr

structure State where
  commands : List HostCommand
  pipelines : List Pipeline
  recordingDepth : InstanceId → Option Nat
  /-- The events of recorded calls until their promises settle. -/
  pending : List RedisEvent
  events : List RedisEvent

/-- What a method of the driver does. -/
inductive InvokeResult
  | returned
  | threw (error : EventError)
  | promise
  deriving DecidableEq, Repr

variable (env : Environment)

def commandFromSendCommand (command : Option RedisCommandLike) : ParsedRedisCommand where
  name := (command.bind RedisCommandLike.name).getD "UNKNOWN"
  args := (command.bind RedisCommandLike.args).getD []

structure ScrubbedCommand where
  query : Text
  collection : Option Text
  deriving DecidableEq, Repr

def scrubRedisCommand (input : ParsedRedisCommand) : ScrubbedCommand :=
  let nameUpper := env.toUpperCase input.name
  let isCredentialCommand : Bool := nameUpper = "AUTH" || nameUpper = "HELLO"
  let rawKey := input.args.head?.join
  let key := if isCredentialCommand then none else rawKey.map env.scrubCacheKey
  { query :=
      if isCredentialCommand then input.name ++ " [REDACTED]".toList
      else
        match key with
        | none => input.name
        | some key => input.name ++ ' ' :: key
    collection := key }

def createRedisEvent (id : CommandId) (context : Option ContextId) (instance' : InstanceId)
    (command : ParsedRedisCommand) : RedisEvent where
  command := id
  phase := .active
  requestId := context.map env.requestId
  contextLost := context.isNone
  target := env.target instance'
  method := command.name
  query := (scrubRedisCommand env command).query
  collection := (scrubRedisCommand env command).collection
  error := none

def finalizeRedisEvent (error : Option EventError) (event : RedisEvent) : RedisEvent :=
  { event with phase := .done, error }

namespace State

def push (s : State) (events : List RedisEvent) : State := { s with events := s.events ++ events }

/-- What follows the call of the original in `recordRedisOperation`. -/
def record (s : State) (event : RedisEvent) : InvokeResult → State
  | .promise => { s with pending := s.pending ++ [event] }
  | .returned => s.push [finalizeRedisEvent none event]
  | .threw error => s.push [finalizeRedisEvent (some error) event]

end State

def isRecording (s : State) (instance' : InstanceId) : Bool :=
  0 < (s.recordingDepth instance').getD 0

def withRecording (s : State) (instance' : InstanceId) (run : State → InvokeResult × State) :
    InvokeResult × State :=
  let depth := (s.recordingDepth instance').getD 0
  let (result, t) :=
    run { s with recordingDepth := Function.update s.recordingDepth instance' (some (depth + 1)) }
  (result,
    { t with
      recordingDepth :=
        Function.update t.recordingDepth instance' (if depth = 0 then none else some depth) })

def recordRedisOperation (s : State) (id : CommandId) (context : Option ContextId)
    (instance' : InstanceId) (command : ParsedRedisCommand)
    (invoke : State → InvokeResult × State) : InvokeResult × State :=
  if isRecording s instance' then invoke s
  else
    let event := createRedisEvent env id context instance' command
    let (result, t) := withRecording s instance' invoke
    (result, t.record event result)

/-- The original `sendCommand` has no effect on the recorder. -/
def patchedSendCommand (s : State) (id : CommandId) (context : Option ContextId)
    (instance' : InstanceId) (command : ParsedRedisCommand) (result : InvokeResult) :
    InvokeResult × State :=
  recordRedisOperation env s id context instance' command fun s => (result, s)

/-- The original method calls `sendCommand`, or it does not. -/
def patchedRedisCommand (s : State) (id : CommandId) (context : Option ContextId)
    (instance' : InstanceId) (command : ParsedRedisCommand) (sends : Bool)
    (result : InvokeResult) : InvokeResult × State :=
  recordRedisOperation env s id context instance' command fun s =>
    if sends then patchedSendCommand env s id context instance' command result else (result, s)

/-! ## Pipelines -/

def parsePipelineQueueEntry : QueueEntry → Option ParsedRedisCommand
  | .other => none
  | .object own command =>
      match own.name with
      | some name => some { name, args := own.args.getD [] }
      | none =>
          command.bind fun command =>
            command.name.map fun name => { name, args := command.args.getD [] }

/-- The commands of the pipeline, in the order in which they were queued. -/
def queuedCommands (s : State) (p : PipelineId) : List CommandId :=
  (List.range s.commands.length).filter fun id =>
    ((s.commands[id]?).bind HostCommand.queued).any fun queued => queued.pipeline = p

/-- What the pipeline's own queue has of a command. -/
def nativeCommand (s : State) (id : CommandId) : Option (CommandId × ParsedRedisCommand) :=
  ((s.commands[id]?).bind HostCommand.queued).bind fun queued =>
    (parsePipelineQueueEntry queued.entry).map fun command => (id, command)

/-- What the patched methods of the pipeline have of a command. -/
def wrappedCommand (s : State) (id : CommandId) : Option (CommandId × ParsedRedisCommand) :=
  (s.commands[id]?).bind fun command =>
    command.queued.bind fun queued => if queued.wrapped then some (id, command.command) else none

def readPipelineCommands (s : State) (p : PipelineId) (pipeline : Pipeline) :
    List (CommandId × ParsedRedisCommand) :=
  if pipeline.native ∧ queuedCommands s p ≠ [] then
    (queuedCommands s p).filterMap (nativeCommand s)
  else (queuedCommands s p).filterMap (wrappedCommand s)

def outcomeOf : InvokeResult → Option (Option EventError)
  | .returned => some none
  | .threw error => some (some error)
  | .promise => none

/-- `exec` of the driver sends a queued command. -/
def sendQueuedCommand (s : State) (context : Option ContextId) (id : CommandId)
    (result : InvokeResult) : State :=
  match s.commands[id]? with
  | none => s
  | some command =>
      let issued :=
        { s with
          commands :=
            s.commands.set id { command with issued := true, outcome := outcomeOf result } }
      (patchedSendCommand env issued id context command.instance' command.command result).2

def sendQueue (s : State) (context : Option ContextId) :
    List CommandId → List InvokeResult → State
  | [], _ => s
  | id :: ids, results =>
      sendQueue (sendQueuedCommand env s context id (results.headD .promise)) context ids
        results.tail

/-- What `exec` of the driver comes back with, at once or by its promise. -/
inductive ExecResult
  /-- The replies of the commands: the error of each. -/
  | rows (rows : List (Option EventError))
  | failed (error : EventError)
  deriving DecidableEq, Repr

/-- `finish` of `patchedPipelineExec`. -/
def finishExec (events : List RedisEvent) : ExecResult → List RedisEvent
  | .rows rows => events.mapIdx fun index event => finalizeRedisEvent (rows[index]?).join event
  | .failed error => events.map (finalizeRedisEvent (some error))

def patchedPipelineExec (s : State) (context : Option ContextId) (p : PipelineId)
    (pipeline : Pipeline) (results : List InvokeResult) (result : Option ExecResult) : State :=
  let context := context.or pipeline.context
  let events :=
    (readPipelineCommands s p pipeline).map fun (id, command) =>
      createRedisEvent env id context pipeline.instance' command
  let executed :=
    { s with pipelines := s.pipelines.set p { pipeline with executed := true } }
  let sent := sendQueue env executed context (queuedCommands s p) results
  match result with
  | some result => sent.push (finishExec events result)
  | none =>
      { sent with
        pipelines := sent.pipelines.set p { pipeline with executed := true, recording := events } }

/-! ## Runs -/

inductive Action
  /-- The host calls a patched command method. -/
  | command (instance' : InstanceId) (context : Option ContextId) (command : ParsedRedisCommand)
      (sends : Bool) (result : InvokeResult)
  /-- The host calls `sendCommand` itself. -/
  | sendCommand (instance' : InstanceId) (context : Option ContextId)
      (command : Option RedisCommandLike) (result : InvokeResult)
  /-- The driver sends a command of its offline queue. -/
  | resend (id : CommandId) (context : Option ContextId) (result : InvokeResult)
  | pipeline (instance' : InstanceId) (context : Option ContextId) (native : Bool)
  | queue (p : PipelineId) (command : ParsedRedisCommand) (entry : QueueEntry) (wrapped : Bool)
  | exec (p : PipelineId) (context : Option ContextId) (results : List InvokeResult)
      (result : Option ExecResult)
  /-- The promise of a command settles. -/
  | settle (id : CommandId) (error : Option EventError)
  /-- The promise of an `exec` settles. -/
  | settleExec (p : PipelineId) (result : ExecResult)
  deriving DecidableEq, Repr

/-- A new command of the host that does not wait in a pipeline. -/
def issue (s : State) (instance' : InstanceId) (command : ParsedRedisCommand)
    (result : InvokeResult) : State :=
  { s with
    commands :=
      s.commands ++
        [{ instance', command, queued := none, issued := true, outcome := outcomeOf result }] }

def settleCommand (s : State) (id : CommandId) (command : HostCommand)
    (error : Option EventError) : State :=
  let settled :=
    { s with
      commands := s.commands.set id { command with outcome := some error }
      pending := s.pending.filter fun event => event.command ≠ id }
  settled.push
    ((s.pending.filter fun event => event.command = id).map (finalizeRedisEvent error))

def step (s : State) : Action → Option State
  | .command instance' context command sends result =>
      some
        (patchedRedisCommand env (issue s instance' command result) s.commands.length context
          instance' command sends result).2
  | .sendCommand instance' context command result =>
      let command := commandFromSendCommand command
      some
        (patchedSendCommand env (issue s instance' command result) s.commands.length context
          instance' command result).2
  | .resend id context result =>
      match s.commands[id]? with
      | none => none
      | some command =>
          if command.issued = true ∧ command.outcome = none then
            some
              (patchedSendCommand env s id context command.instance' command.command result).2
          else none
  | .pipeline instance' context native =>
      some
        { s with
          pipelines :=
            s.pipelines ++ [{ instance', context, native, executed := false, recording := [] }] }
  | .queue p command entry wrapped =>
      match s.pipelines[p]? with
      | none => none
      | some pipeline =>
          if pipeline.executed = false then
            some
              { s with
                commands :=
                  s.commands ++
                    [{ instance' := pipeline.instance', command
                       queued := some { pipeline := p, entry, wrapped }
                       issued := false
                       outcome := none }] }
          else none
  | .exec p context results result =>
      match s.pipelines[p]? with
      | none => none
      | some pipeline =>
          if pipeline.executed = false then
            some (patchedPipelineExec env s context p pipeline results result)
          else none
  | .settle id error =>
      match s.commands[id]? with
      | none => none
      | some command =>
          if command.issued = true ∧ command.outcome = none then
            some (settleCommand s id command error)
          else none
  | .settleExec p result =>
      match s.pipelines[p]? with
      | none => none
      | some pipeline =>
          let settled :=
            { s with pipelines := s.pipelines.set p { pipeline with recording := [] } }
          some (settled.push (finishExec pipeline.recording result))

def initial : State where
  commands := []
  pipelines := []
  recordingDepth := fun _ => none
  pending := []
  events := []

def system : Transition.System State Action where
  init s := s = initial
  step := step env

end ErrorCore.IoRedis
