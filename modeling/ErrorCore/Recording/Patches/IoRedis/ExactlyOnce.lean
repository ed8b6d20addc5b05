import ErrorCore.Foundation.Indexed
import ErrorCore.Recording.Patches.IoRedis

/-!
# A command is recorded once

Between two steps nothing is on the stack, so that each call of a patched method
that the host or the driver makes is recorded, and only the `sendCommand` of a
command method is not. A command of the offline queue is therefore recorded again
when it is sent again, and the commands of a pipeline are recorded by `exec` and
by the `sendCommand` that `exec` calls.
-/

namespace ErrorCore.IoRedis

variable (env : Environment)

/-! ## What is to hold -/

/-- The events of a command, those that wait for a promise included. -/
def recordings (s : State) (id : CommandId) : Nat :=
  (s.pending ++ s.events ++ s.pipelines.flatMap Pipeline.recording).countP fun event =>
    event.command = id

/-- The event has the name and the scrubbed key of the command. -/
def Describes (event : RedisEvent) (command : HostCommand) : Prop :=
  event.method = command.command.name ∧
    event.query = (scrubRedisCommand env command.command).query ∧
    event.collection = (scrubRedisCommand env command.command).collection

structure ExactlyOnce (s : State) : Prop where
  once : ∀ (id : CommandId) (command : HostCommand), s.commands[id]? = some command →
    command.issued = true → recordings s id = 1
  pushed : ∀ (id : CommandId) (command : HostCommand), s.commands[id]? = some command →
    command.issued = true → command.outcome ≠ none →
      s.events.countP (fun event => event.command = id) = 1
  own : ∀ event ∈ s.events, ∃ command, s.commands[event.command]? = some command ∧
    Describes env event command ∧ command.outcome = some event.error

def guard (s : State) : Action → Prop
  | .resend _ _ _ => False
  | .exec p _ _ _ =>
      ∀ pipeline, s.pipelines[p]? = some pipeline → readPipelineCommands s p pipeline = []
  | _ => True

/-! ## A call that is recorded -/

section Calls

variable {env : Environment} {s : State}

/-- No recorded call is on the stack. -/
def Idle (s : State) : Prop := ∀ instance', s.recordingDepth instance' = none

theorem isRecording_of_idle (idle : Idle s) (instance' : InstanceId) :
    isRecording s instance' = false := by
  rw [isRecording, idle instance']
  rfl

/-- The depth after a call is the depth before it. -/
theorem depth_restored (idle : Idle s) (instance' : InstanceId) (depth : Option Nat) :
    Function.update (Function.update s.recordingDepth instance' depth) instance' none =
      s.recordingDepth := by
  rw [Function.update_idem, Function.update_eq_self_iff]
  exact (idle instance').symm

theorem patchedSendCommand_eq (idle : Idle s) (id : CommandId) (context : Option ContextId)
    (instance' : InstanceId) (command : ParsedRedisCommand) (result : InvokeResult) :
    patchedSendCommand env s id context instance' command result =
      (result, s.record (createRedisEvent env id context instance' command) result) := by
  rw [patchedSendCommand, recordRedisOperation, isRecording_of_idle idle, withRecording,
    idle instance']
  dsimp only [Option.getD_none]
  rw [if_pos rfl, depth_restored idle]
  rfl

/-- A call on an instance with a recorded call on the stack is not recorded. -/
theorem patchedSendCommand_nested (nested : isRecording s instance' = true) (id : CommandId)
    (context : Option ContextId) (command : ParsedRedisCommand) (result : InvokeResult) :
    patchedSendCommand env s id context instance' command result = (result, s) := by
  rw [patchedSendCommand, recordRedisOperation, if_pos nested]

/-- A command method is recorded once, whether it calls `sendCommand` or not. -/
theorem patchedRedisCommand_eq (idle : Idle s) (id : CommandId) (context : Option ContextId)
    (instance' : InstanceId) (command : ParsedRedisCommand) (sends : Bool)
    (result : InvokeResult) :
    patchedRedisCommand env s id context instance' command sends result =
      (result, s.record (createRedisEvent env id context instance' command) result) := by
  let inside : State :=
    { s with recordingDepth := Function.update s.recordingDepth instance' (some 1) }
  have nested : isRecording inside instance' = true := by
    have hdepth : inside.recordingDepth instance' = some 1 := Function.update_self ..
    exact decide_eq_true (by rw [hdepth]; decide)
  have hinvoke : (if sends then patchedSendCommand env inside id context instance' command result
      else (result, inside)) = (result, inside) := by
    split
    · exact patchedSendCommand_nested nested id context command result
    · rfl
  rw [patchedRedisCommand, recordRedisOperation, isRecording_of_idle idle,
    if_neg Bool.false_ne_true, withRecording, idle instance']
  dsimp only [Option.getD_none, Nat.zero_add]
  rw [hinvoke, if_pos rfl]
  dsimp only [inside]
  rw [depth_restored idle]

theorem recordings_record (s : State) (event : RedisEvent) (result : InvokeResult)
    (id : CommandId) :
    recordings (s.record event result) id =
      recordings s id + if event.command = id then 1 else 0 := by
  cases result with
  | promise =>
      simp only [recordings, State.record, List.countP_append, List.countP_singleton,
        decide_eq_true_eq]
      omega
  | returned =>
      simp only [recordings, State.record, State.push, List.countP_append, List.countP_singleton,
        decide_eq_true_eq, finalizeRedisEvent]
      omega
  | threw error =>
      simp only [recordings, State.record, State.push, List.countP_append, List.countP_singleton,
        decide_eq_true_eq, finalizeRedisEvent]
      omega

theorem record_commands (s : State) (event : RedisEvent) (result : InvokeResult) :
    (s.record event result).commands = s.commands := by
  cases result <;> rfl

theorem record_pipelines (s : State) (event : RedisEvent) (result : InvokeResult) :
    (s.record event result).pipelines = s.pipelines := by
  cases result <;> rfl

end Calls

/-! ## What is true of every state of a guarded run -/

structure Inv (s : State) : Prop where
  idle : Idle s
  silent : ∀ pipeline ∈ s.pipelines, pipeline.recording = []
  once : ∀ (id : CommandId) (command : HostCommand), s.commands[id]? = some command →
    recordings s id = if command.issued then 1 else 0
  waiting : ∀ event ∈ s.pending, ∃ command, s.commands[event.command]? = some command ∧
    Describes env event command ∧ command.outcome = none
  own : ∀ event ∈ s.events, ∃ command, s.commands[event.command]? = some command ∧
    Describes env event command ∧ command.outcome = some event.error
  /-- A queued command is issued with its pipeline. -/
  executed : ∀ (id : CommandId) (command : HostCommand) (queued : Queued),
    s.commands[id]? = some command → command.queued = some queued → command.issued = true →
      ∃ pipeline, s.pipelines[queued.pipeline]? = some pipeline ∧ pipeline.executed = true

section Facts

variable {env : Environment} {s t : State} {id : CommandId} {command : HostCommand}

theorem Inv.recordings_eq (h : Inv env s) (id : CommandId) :
    recordings s id = s.pending.countP (fun event => event.command = id) +
      s.events.countP fun event => event.command = id := by
  have hnone : s.pipelines.flatMap Pipeline.recording = [] := by
    rw [List.flatMap_eq_nil_iff]
    exact h.silent
  rw [recordings, hnone, List.append_nil, List.countP_append]

theorem Inv.exactlyOnce (h : Inv env s) : ExactlyOnce env s where
  once id command hcommand hissued := by rw [h.once id command hcommand, hissued]; rfl
  pushed id command hcommand hissued hsettled := by
    have honce := h.once id command hcommand
    have hwaiting : s.pending.countP (fun event => event.command = id) = 0 := by
      rw [List.countP_eq_zero]
      intro event hevent hname
      obtain ⟨other, hother, -, hopen⟩ := h.waiting event hevent
      rw [of_decide_eq_true hname, hcommand] at hother
      rw [← Option.some.inj hother] at hopen
      exact hsettled hopen
    rw [h.recordings_eq, hwaiting, hissued, Nat.zero_add] at honce
    exact honce
  own := h.own

/-- Nothing is recorded for a command that is not there. -/
theorem Inv.recordings_unknown (h : Inv env s) (hid : s.commands[id]? = none) :
    recordings s id = 0 := by
  rw [h.recordings_eq, Nat.add_eq_zero_iff, List.countP_eq_zero, List.countP_eq_zero]
  constructor
  · intro event hevent hname
    obtain ⟨command, hcommand, -⟩ := h.waiting event hevent
    rw [of_decide_eq_true hname, hid] at hcommand
    exact absurd hcommand.symm (Option.some_ne_none command)
  · intro event hevent hname
    obtain ⟨command, hcommand, -⟩ := h.own event hevent
    rw [of_decide_eq_true hname, hid] at hcommand
    exact absurd hcommand.symm (Option.some_ne_none command)

theorem ne_of_recordings {event : RedisEvent} (hnone : recordings s id = 0)
    (hevent : event ∈ s.pending ++ s.events) : event.command ≠ id := by
  rintro rfl
  rw [recordings, List.countP_append, Nat.add_eq_zero_iff, List.countP_eq_zero] at hnone
  exact hnone.1 event hevent (decide_eq_true rfl)

/-- A command without a record is issued and recorded. -/
theorem Inv.record (h : Inv env s) {commands : List HostCommand}
    (hcommand : commands[id]? = some command)
    (others : ∀ j, j ≠ id → commands[j]? = s.commands[j]?)
    (hnone : recordings s id = 0) (hissued : command.issued = true) {result : InvokeResult}
    (houtcome : command.outcome = outcomeOf result)
    (hqueued : ∀ queued, command.queued = some queued →
      ∃ pipeline, s.pipelines[queued.pipeline]? = some pipeline ∧ pipeline.executed = true)
    (context : Option ContextId) (instance' : InstanceId) :
    Inv env (({ s with commands } : State).record
      (createRedisEvent env id context instance' command.command) result) := by
  have hdescribes : ∀ error, Describes env
      (finalizeRedisEvent error (createRedisEvent env id context instance' command.command))
        command := fun _ => ⟨rfl, rfl, rfl⟩
  have hwaiting : ∀ event ∈ s.pending, ∃ other, commands[event.command]? = some other ∧
      Describes env event other ∧ other.outcome = none := by
    intro event hevent
    obtain ⟨other, hother, hrest⟩ := h.waiting event hevent
    exact ⟨other, (others _ (ne_of_recordings hnone (List.mem_append_left _ hevent))).trans hother,
      hrest⟩
  have hown : ∀ event ∈ s.events, ∃ other, commands[event.command]? = some other ∧
      Describes env event other ∧ other.outcome = some event.error := by
    intro event hevent
    obtain ⟨other, hother, hrest⟩ := h.own event hevent
    exact ⟨other, (others _ (ne_of_recordings hnone (List.mem_append_right _ hevent))).trans hother,
      hrest⟩
  refine
    { idle := ?_, silent := ?_, once := ?_, waiting := ?_, own := ?_, executed := ?_ }
  · cases result <;> exact h.idle
  · rw [record_pipelines]
    exact h.silent
  · intro j other hother
    rw [record_commands] at hother
    rw [recordings_record]
    by_cases heq : j = id
    · subst heq
      obtain rfl : command = other := Option.some.inj (hcommand.symm.trans hother)
      rw [hissued, if_pos (show (createRedisEvent env j context instance'
        command.command).command = j from rfl)]
      exact congrArg (· + 1) hnone
    · have hold : s.commands[j]? = some other := (others j heq).symm.trans hother
      rw [if_neg (fun hname => heq hname.symm), Nat.add_zero]
      exact h.once j other hold
  · rw [record_commands]
    cases result with
    | promise =>
        intro event hevent
        rcases List.mem_append.mp hevent with hold | hnew
        · exact hwaiting event hold
        · rw [List.mem_singleton.mp hnew]
          exact ⟨command, hcommand, ⟨rfl, rfl, rfl⟩, houtcome⟩
    | returned => exact hwaiting
    | threw error => exact hwaiting
  · rw [record_commands]
    cases result with
    | promise => exact hown
    | returned =>
        intro event hevent
        rcases List.mem_append.mp hevent with hold | hnew
        · exact hown event hold
        · rw [List.mem_singleton.mp hnew]
          exact ⟨command, hcommand, hdescribes none, houtcome⟩
    | threw error =>
        intro event hevent
        rcases List.mem_append.mp hevent with hold | hnew
        · exact hown event hold
        · rw [List.mem_singleton.mp hnew]
          exact ⟨command, hcommand, hdescribes (some error), houtcome⟩
  · intro j other queued hother hq hi
    rw [record_commands] at hother
    rw [record_pipelines]
    by_cases heq : j = id
    · subst heq
      obtain rfl : command = other := Option.some.inj (hcommand.symm.trans hother)
      exact hqueued queued hq
    · exact h.executed j other queued ((others j heq).symm.trans hother) hq hi

/-- A command that the host issues itself. -/
theorem Inv.issues (h : Inv env s) (instance' : InstanceId) (command : ParsedRedisCommand)
    (result : InvokeResult) (context : Option ContextId) :
    Inv env ((issue s instance' command result).record
      (createRedisEvent env s.commands.length context instance' command) result) :=
  h.record List.getElem?_concat_length (fun _ hj => Indexed.getElem?_concat_of_ne hj)
    (h.recordings_unknown (List.getElem?_eq_none (Nat.le_refl _))) rfl rfl
    (fun queued hqueued => absurd hqueued.symm (Option.some_ne_none queued)) context instance'

theorem Inv.queue (h : Inv env s) {new : HostCommand} (hnew : new.issued = false) :
    Inv env { s with commands := s.commands ++ [new] } where
  idle := h.idle
  silent := h.silent
  once id command hcommand := by
    obtain hold | ⟨rfl, rfl⟩ := Indexed.concat_cases hcommand
    · exact h.once id command hold
    · rw [hnew]
      exact h.recordings_unknown (List.getElem?_eq_none (Nat.le_refl _))
  waiting event hevent := by
    obtain ⟨command, hcommand, hrest⟩ := h.waiting event hevent
    exact ⟨command, Indexed.getElem?_concat_of_some hcommand, hrest⟩
  own event hevent := by
    obtain ⟨command, hcommand, hrest⟩ := h.own event hevent
    exact ⟨command, Indexed.getElem?_concat_of_some hcommand, hrest⟩
  executed id command queued hcommand hqueued hissued := by
    obtain hold | ⟨rfl, rfl⟩ := Indexed.concat_cases hcommand
    · exact h.executed id command queued hold hqueued hissued
    · exact absurd (hnew.symm.trans hissued) Bool.noConfusion

theorem recordings_pipelines {pipelines : List Pipeline} (h : Inv env s)
    (silent : ∀ pipeline ∈ pipelines, pipeline.recording = []) (id : CommandId) :
    recordings { s with pipelines } id = recordings s id := by
  have hnone : pipelines.flatMap Pipeline.recording = [] := by
    rw [List.flatMap_eq_nil_iff]
    exact silent
  rw [h.recordings_eq, recordings, hnone, List.append_nil, List.countP_append]

/-- Pipelines change, and what was executed stays executed. -/
theorem Inv.pipelines (h : Inv env s) {pipelines : List Pipeline}
    (silent : ∀ pipeline ∈ pipelines, pipeline.recording = [])
    (executed : ∀ (p : PipelineId) (pipeline : Pipeline), s.pipelines[p]? = some pipeline →
      pipeline.executed = true →
        ∃ pipeline', pipelines[p]? = some pipeline' ∧ pipeline'.executed = true) :
    Inv env { s with pipelines } where
  idle := h.idle
  silent := silent
  once id command hcommand := by
    rw [recordings_pipelines h silent]
    exact h.once id command hcommand
  waiting := h.waiting
  own := h.own
  executed id command queued hcommand hqueued hissued := by
    obtain ⟨pipeline, hpipeline, hexecuted⟩ :=
      h.executed id command queued hcommand hqueued hissued
    exact executed _ pipeline hpipeline hexecuted

theorem Inv.setPipeline (h : Inv env s) {p : PipelineId} {pipeline new : Pipeline}
    (hpipeline : s.pipelines[p]? = some pipeline) (hrecording : new.recording = [])
    (hexecuted : pipeline.executed = true → new.executed = true) :
    Inv env { s with pipelines := s.pipelines.set p new } := by
  refine h.pipelines ?_ ?_
  · intro other hother
    rcases List.mem_or_eq_of_mem_set hother with hold | rfl
    · exact h.silent other hold
    · exact hrecording
  · intro q other hother hdone
    by_cases heq : p = q
    · subst heq
      obtain rfl : pipeline = other := Option.some.inj (hpipeline.symm.trans hother)
      exact ⟨new, Indexed.getElem?_set_self_of_some hpipeline _, hexecuted hdone⟩
    · exact ⟨other, by rwa [List.getElem?_set_ne heq], hdone⟩

/-! ## A pipeline is sent -/

/-- The command waits in a pipeline that is being executed. -/
def Ready (s : State) (id : CommandId) : Prop :=
  ∃ command, s.commands[id]? = some command ∧ command.issued = false ∧
    ∀ queued, command.queued = some queued →
      ∃ pipeline, s.pipelines[queued.pipeline]? = some pipeline ∧ pipeline.executed = true

theorem sendQueuedCommand_eq (idle : Idle s) (hcommand : s.commands[id]? = some command)
    (context : Option ContextId) (result : InvokeResult) :
    sendQueuedCommand env s context id result =
      ({ s with
          commands :=
            s.commands.set id { command with issued := true, outcome := outcomeOf result } } :
        State).record (createRedisEvent env id context command.instance' command.command)
          result := by
  rw [sendQueuedCommand, hcommand]
  dsimp only
  rw [patchedSendCommand_eq]
  exact idle

theorem Inv.sends (h : Inv env s) (ready : Ready s id) (context : Option ContextId)
    (result : InvokeResult) :
    Inv env (sendQueuedCommand env s context id result) ∧
      (sendQueuedCommand env s context id result).pipelines = s.pipelines ∧
      (∃ command, (sendQueuedCommand env s context id result).commands[id]? = some command ∧
        command.issued = true) ∧
      ∀ j, j ≠ id →
        (sendQueuedCommand env s context id result).commands[j]? = s.commands[j]? := by
  obtain ⟨command, hcommand, hissued, hqueued⟩ := ready
  have hself := Indexed.getElem?_set_self_of_some hcommand
    { command with issued := true, outcome := outcomeOf result }
  have hothers : ∀ j, j ≠ id → (s.commands.set id
      { command with issued := true, outcome := outcomeOf result })[j]? = s.commands[j]? :=
    fun j hj => List.getElem?_set_ne (Ne.symm hj)
  have hnone : recordings s id = 0 := by
    rw [h.once id command hcommand, hissued]
    rfl
  rw [sendQueuedCommand_eq h.idle hcommand]
  refine ⟨h.record hself hothers hnone rfl rfl hqueued context _, ?_, ?_, ?_⟩
  · exact record_pipelines _ _ _
  · rw [record_commands]
    exact ⟨_, hself, rfl⟩
  · rw [record_commands]
    exact hothers

theorem Inv.sendsAll (h : Inv env s) {ids : List CommandId} (nodup : ids.Nodup)
    (ready : ∀ id ∈ ids, Ready s id) (context : Option ContextId) (results : List InvokeResult) :
    Inv env (sendQueue env s context ids results) ∧
      (sendQueue env s context ids results).pipelines = s.pipelines ∧
      (∀ id ∈ ids, ∃ command,
        (sendQueue env s context ids results).commands[id]? = some command ∧
          command.issued = true) ∧
      ∀ j, j ∉ ids → (sendQueue env s context ids results).commands[j]? = s.commands[j]? := by
  induction ids generalizing s results with
  | nil => exact ⟨h, rfl, fun _ hid => absurd hid List.not_mem_nil, fun _ _ => rfl⟩
  | cons id ids ih =>
      obtain ⟨hfresh, hnodup⟩ := List.nodup_cons.mp nodup
      obtain ⟨hinv, hpipelines, ⟨command, hcommand, hissued⟩, hothers⟩ :=
        h.sends (ready id List.mem_cons_self) context (results.headD .promise)
      have hready : ∀ j ∈ ids,
          Ready (sendQueuedCommand env s context id (results.headD .promise)) j := by
        intro j hj
        have hne : j ≠ id := fun heq => hfresh (heq ▸ hj)
        rw [Ready, hothers j hne, hpipelines]
        exact ready j (List.mem_cons_of_mem _ hj)
      obtain ⟨hrest, hrestPipelines, hrestIssued, hrestOthers⟩ :=
        ih hinv hnodup hready results.tail
      rw [sendQueue]
      refine ⟨hrest, hrestPipelines.trans hpipelines, ?_, ?_⟩
      · intro j hj
        rcases List.mem_cons.mp hj with rfl | hlater
        · exact ⟨command, (hrestOthers j hfresh).trans hcommand, hissued⟩
        · exact hrestIssued j hlater
      · intro j hj
        have hne : j ≠ id := fun heq => hj (heq ▸ List.mem_cons_self)
        have hlater : j ∉ ids := fun hmem => hj (List.mem_cons_of_mem _ hmem)
        exact (hrestOthers j hlater).trans (hothers j hne)

theorem mem_queuedCommands {p : PipelineId} (hid : id ∈ queuedCommands s p) :
    ∃ command queued, s.commands[id]? = some command ∧ command.queued = some queued ∧
      queued.pipeline = p := by
  obtain ⟨-, hqueued⟩ := List.mem_filter.mp hid
  obtain ⟨queued, hsome, hp⟩ := (Option.any_eq_true _ _).mp hqueued
  obtain ⟨command, hcommand, hq⟩ := Option.bind_eq_some_iff.mp hsome
  exact ⟨command, queued, hcommand, hq, of_decide_eq_true hp⟩

/-- The state in which `exec` of the driver begins. -/
def executing (s : State) (p : PipelineId) (pipeline : Pipeline) : State :=
  { s with pipelines := s.pipelines.set p { pipeline with executed := true } }

/-- All commands of the pipeline are sent, and recorded by that. -/
theorem Inv.executes (h : Inv env s) {p : PipelineId} {pipeline : Pipeline}
    (hpipeline : s.pipelines[p]? = some pipeline) (hopen : pipeline.executed = false)
    (context : Option ContextId) (results : List InvokeResult) :
    Inv env (sendQueue env (executing s p pipeline) context (queuedCommands s p) results) ∧
      (sendQueue env (executing s p pipeline) context (queuedCommands s p) results).pipelines =
        s.pipelines.set p { pipeline with executed := true } ∧
      ∀ id ∈ queuedCommands s p, ∃ command,
        (sendQueue env (executing s p pipeline) context (queuedCommands s p)
          results).commands[id]? = some command ∧ command.issued = true := by
  have hset : Inv env (executing s p pipeline) :=
    h.setPipeline hpipeline (h.silent pipeline (List.mem_of_getElem? hpipeline)) fun _ => rfl
  have hnodup : (queuedCommands s p).Nodup := List.nodup_range.sublist List.filter_sublist
  have hready : ∀ id ∈ queuedCommands s p, Ready (executing s p pipeline) id := by
    intro id hid
    obtain ⟨command, queued, hcommand, hqueued, hp⟩ := mem_queuedCommands hid
    have hexecuted : ∀ queued', command.queued = some queued' → ∃ pipeline',
        (executing s p pipeline).pipelines[queued'.pipeline]? = some pipeline' ∧
          pipeline'.executed = true := by
      intro queued' hqueued'
      obtain rfl : queued = queued' := Option.some.inj (hqueued.symm.trans hqueued')
      rw [hp]
      exact ⟨_, Indexed.getElem?_set_self_of_some hpipeline _, rfl⟩
    refine ⟨command, hcommand, ?_, hexecuted⟩
    by_contra hissued
    obtain ⟨other, hother, hdone⟩ :=
      h.executed id command queued hcommand hqueued (by simpa using hissued)
    rw [hp, hpipeline] at hother
    rw [← Option.some.inj hother, hopen] at hdone
    exact absurd hdone Bool.noConfusion
  obtain ⟨hinv, hpipelines, hissued, -⟩ := hset.sendsAll hnodup hready context results
  exact ⟨hinv, hpipelines, hissued⟩

/-! ## Steps -/

theorem push_nil (s : State) : s.push [] = s := by
  rw [State.push, List.append_nil]

theorem finishExec_nil (result : ExecResult) : finishExec [] result = [] := by
  cases result <;> rfl

theorem Inv.executed_empty (h : Inv env s) {p : PipelineId} {pipeline : Pipeline}
    (hpipeline : s.pipelines[p]? = some pipeline) (hopen : pipeline.executed = false)
    (hread : readPipelineCommands s p pipeline = []) (context : Option ContextId)
    (results : List InvokeResult) (result : Option ExecResult) :
    Inv env (patchedPipelineExec env s context p pipeline results result) := by
  obtain ⟨hinv, hpipelines, -⟩ :=
    h.executes hpipeline hopen (context.or pipeline.context) results
  rw [patchedPipelineExec.eq_def, hread]
  cases result with
  | some result =>
      dsimp only
      rw [List.map_nil, finishExec_nil, push_nil]
      exact hinv
  | none =>
      have hsent := Indexed.getElem?_set_self_of_some hpipeline { pipeline with executed := true }
      rw [← hpipelines] at hsent
      exact hinv.setPipeline hsent rfl fun _ => rfl

theorem countP_settle (events : List RedisEvent) (error : Option EventError)
    (id j : CommandId) :
    (events.filter fun event => event.command ≠ id).countP (fun event => event.command = j) +
      ((events.filter fun event => event.command = id).map (finalizeRedisEvent error)).countP
        (fun event => event.command = j) =
      events.countP fun event => event.command = j := by
  have hmap : ∀ settled : List RedisEvent,
      (settled.map (finalizeRedisEvent error)).countP (fun event => event.command = j) =
        settled.countP fun event => event.command = j := fun _ => List.countP_map
  have hsplit := List.countP_eq_countP_filter_add events (fun event => decide (event.command = j))
    fun event => decide (event.command = id)
  rw [hmap, hsplit, Nat.add_comm]
  simp only [decide_not]

theorem Inv.settles (h : Inv env s) (hcommand : s.commands[id]? = some command)
    (hopen : command.outcome = none) (error : Option EventError) :
    Inv env (settleCommand s id command error) where
  idle := h.idle
  silent := h.silent
  once j other hother := by
    have hcount : recordings (settleCommand s id command error) j = recordings s j := by
      have hsettle := countP_settle s.pending error id j
      have hnone : s.pipelines.flatMap Pipeline.recording = [] := by
        rw [List.flatMap_eq_nil_iff]
        exact h.silent
      simp only [recordings, settleCommand, State.push, hnone, List.append_nil,
        List.countP_append]
      omega
    rw [hcount]
    obtain ⟨rfl, rfl⟩ | ⟨-, hold⟩ := Indexed.set_cases hother
    · exact h.once j command hcommand
    · exact h.once j other hold
  waiting event hevent := by
    obtain ⟨hold, hne⟩ := List.mem_filter.mp hevent
    obtain ⟨other, hother, hrest⟩ := h.waiting event hold
    exact ⟨other, (List.getElem?_set_ne (Ne.symm (of_decide_eq_true hne))).trans hother, hrest⟩
  own event hevent := by
    have hself := Indexed.getElem?_set_self_of_some hcommand
      { command with outcome := some error }
    rcases List.mem_append.mp hevent with hold | hnew
    · obtain ⟨other, hother, hdescribes, houtcome⟩ := h.own event hold
      have hne : id ≠ event.command := by
        rintro rfl
        rw [← Option.some.inj (hcommand.symm.trans hother), hopen] at houtcome
        exact absurd houtcome.symm (Option.some_ne_none _)
      exact ⟨other, (List.getElem?_set_ne hne).trans hother, hdescribes, houtcome⟩
    · obtain ⟨waiting, hwaiting, rfl⟩ := List.mem_map.mp hnew
      obtain ⟨hpending, hname⟩ := List.mem_filter.mp hwaiting
      obtain ⟨other, hother, hdescribes, -⟩ := h.waiting waiting hpending
      have hid : waiting.command = id := of_decide_eq_true hname
      rw [hid] at hother
      obtain rfl : command = other := Option.some.inj (hcommand.symm.trans hother)
      exact ⟨_, (congrArg _ hid).trans hself, hdescribes, rfl⟩
  executed j other queued hother hqueued hissued := by
    obtain ⟨rfl, rfl⟩ | ⟨-, hold⟩ := Indexed.set_cases hother
    · exact h.executed j command queued hcommand hqueued hissued
    · exact h.executed j other queued hold hqueued hissued

theorem exec_step {p : PipelineId} {context : Option ContextId} {results : List InvokeResult}
    {result : Option ExecResult} (hstep : step env s (.exec p context results result) = some t) :
    ∃ pipeline, s.pipelines[p]? = some pipeline ∧ pipeline.executed = false ∧
      t = patchedPipelineExec env s context p pipeline results result := by
  rw [step.eq_def] at hstep
  dsimp only at hstep
  split at hstep
  · exact absurd hstep.symm (Option.some_ne_none t)
  · next pipeline hpipeline =>
    split at hstep
    · next hopen => exact ⟨pipeline, hpipeline, hopen, (Option.some.inj hstep).symm⟩
    · exact absurd hstep.symm (Option.some_ne_none t)

theorem settle_step {error : Option EventError} (hstep : step env s (.settle id error) = some t) :
    ∃ command, s.commands[id]? = some command ∧ command.outcome = none ∧
      t = settleCommand s id command error := by
  rw [step.eq_def] at hstep
  dsimp only at hstep
  split at hstep
  · exact absurd hstep.symm (Option.some_ne_none t)
  · next command hcommand =>
    split at hstep
    · next hopen => exact ⟨command, hcommand, hopen.2, (Option.some.inj hstep).symm⟩
    · exact absurd hstep.symm (Option.some_ne_none t)

theorem resend_step {context : Option ContextId} {result : InvokeResult}
    (hstep : step env s (.resend id context result) = some t) :
    ∃ command, s.commands[id]? = some command ∧ command.issued = true ∧
      t = (patchedSendCommand env s id context command.instance' command.command result).2 := by
  rw [step.eq_def] at hstep
  dsimp only at hstep
  split at hstep
  · exact absurd hstep.symm (Option.some_ne_none t)
  · next command hcommand =>
    split at hstep
    · next hopen => exact ⟨command, hcommand, hopen.1, (Option.some.inj hstep).symm⟩
    · exact absurd hstep.symm (Option.some_ne_none t)

theorem Inv.step (h : Inv env s) {action : Action} (hguard : guard s action)
    (hstep : step env s action = some t) : Inv env t := by
  cases action with
  | command instance' context command sends result =>
      obtain rfl := Option.some.inj hstep
      rw [patchedRedisCommand_eq (s := issue s instance' command result) h.idle]
      exact h.issues instance' command result context
  | sendCommand instance' context command result =>
      obtain rfl := Option.some.inj hstep
      rw [patchedSendCommand_eq (s := issue s instance' (commandFromSendCommand command) result)
        h.idle]
      exact h.issues instance' (commandFromSendCommand command) result context
  | resend => exact hguard.elim
  | pipeline instance' context native =>
      obtain rfl := Option.some.inj hstep
      refine h.pipelines ?_ fun p pipeline hpipeline hdone => ?_
      · intro pipeline hpipeline
        rcases List.mem_append.mp hpipeline with hold | hnew
        · exact h.silent pipeline hold
        · rw [List.mem_singleton.mp hnew]
      · exact ⟨pipeline, Indexed.getElem?_concat_of_some hpipeline, hdone⟩
  | queue p command entry wrapped =>
      rw [IoRedis.step.eq_def] at hstep
      dsimp only at hstep
      split at hstep
      · exact absurd hstep.symm (Option.some_ne_none t)
      · split at hstep
        · obtain rfl := Option.some.inj hstep
          exact h.queue rfl
        · exact absurd hstep.symm (Option.some_ne_none t)
  | exec p context results result =>
      obtain ⟨pipeline, hpipeline, hopen, rfl⟩ := exec_step hstep
      exact h.executed_empty hpipeline hopen (hguard pipeline hpipeline) context results result
  | settle id error =>
      obtain ⟨command, hcommand, hopen, rfl⟩ := settle_step hstep
      exact h.settles hcommand hopen error
  | settleExec p result =>
      rw [IoRedis.step.eq_def] at hstep
      dsimp only at hstep
      split at hstep
      · exact absurd hstep.symm (Option.some_ne_none t)
      · next pipeline hpipeline =>
        obtain rfl := Option.some.inj hstep
        rw [h.silent pipeline (List.mem_of_getElem? hpipeline), finishExec_nil, push_nil]
        exact h.setPipeline hpipeline rfl id

/-! ## The guard is necessary -/

theorem mem_readPipelineCommands {p : PipelineId} {pipeline : Pipeline}
    {read : CommandId × ParsedRedisCommand} (hread : read ∈ readPipelineCommands s p pipeline) :
    read.1 ∈ queuedCommands s p := by
  rw [readPipelineCommands] at hread
  split at hread
  · obtain ⟨id, hid, hnative⟩ := List.mem_filterMap.mp hread
    obtain ⟨queued, -, hparsed⟩ := Option.bind_eq_some_iff.mp hnative
    obtain ⟨command, -, rfl⟩ := Option.map_eq_some_iff.mp hparsed
    exact hid
  · obtain ⟨id, hid, hwrapped⟩ := List.mem_filterMap.mp hread
    obtain ⟨command, -, hcommand⟩ := Option.bind_eq_some_iff.mp hwrapped
    obtain ⟨queued, -, hqueued⟩ := Option.bind_eq_some_iff.mp hcommand
    split at hqueued
    · rw [← Option.some.inj hqueued]
      exact hid
    · exact absurd hqueued.symm (Option.some_ne_none read)

theorem exists_finishExec {events : List RedisEvent} {event : RedisEvent} (hevent : event ∈ events)
    (result : ExecResult) : ∃ final ∈ finishExec events result, final.command = event.command := by
  cases result with
  | rows rows =>
      obtain ⟨index, hlt, rfl⟩ := List.getElem_of_mem hevent
      exact ⟨_, List.mem_mapIdx.mpr ⟨index, hlt, rfl⟩, rfl⟩
  | failed error => exact ⟨_, List.mem_map_of_mem hevent, rfl⟩

/-- The events that `exec` creates for the commands it reads. -/
def execEvents (env : Environment) (s : State) (context : Option ContextId) (p : PipelineId)
    (pipeline : Pipeline) : List RedisEvent :=
  (readPipelineCommands s p pipeline).map fun read =>
    createRedisEvent env read.1 (context.or pipeline.context) pipeline.instance' read.2

theorem patchedPipelineExec_some (s : State) (context : Option ContextId) (p : PipelineId)
    (pipeline : Pipeline) (results : List InvokeResult) (result : ExecResult) :
    patchedPipelineExec env s context p pipeline results (some result) =
      (sendQueue env (executing s p pipeline) (context.or pipeline.context) (queuedCommands s p)
        results).push (finishExec (execEvents env s context p pipeline) result) := rfl

theorem patchedPipelineExec_none (s : State) (context : Option ContextId) (p : PipelineId)
    (pipeline : Pipeline) (results : List InvokeResult) :
    patchedPipelineExec env s context p pipeline results none =
      let sent := sendQueue env (executing s p pipeline) (context.or pipeline.context)
        (queuedCommands s p) results
      { sent with
        pipelines :=
          sent.pipelines.set p
            { pipeline with
              executed := true
              recording := execEvents env s context p pipeline } } := rfl

/-- A command that `exec` reads from its queue has the event of `exec` and that of `sendCommand`. -/
theorem exec_records_twice (h : Inv env s) {p : PipelineId} {pipeline : Pipeline}
    (hpipeline : s.pipelines[p]? = some pipeline) (hopen : pipeline.executed = false)
    {read : CommandId × ParsedRedisCommand} (hread : read ∈ readPipelineCommands s p pipeline)
    (context : Option ContextId) (results : List InvokeResult) (result : Option ExecResult) :
    ¬ ExactlyOnce env (patchedPipelineExec env s context p pipeline results result) := by
  intro exactly
  obtain ⟨hinv, hpipelines, hissued⟩ :=
    h.executes hpipeline hopen (context.or pipeline.context) results
  obtain ⟨command, hcommand, hdone⟩ := hissued read.1 (mem_readPipelineCommands hread)
  have hsent := hinv.once read.1 command hcommand
  rw [hinv.recordings_eq, hdone, if_pos rfl] at hsent
  have hevent :
      createRedisEvent env read.1 (context.or pipeline.context) pipeline.instance' read.2 ∈
      execEvents env s context p pipeline := List.mem_map.mpr ⟨read, hread, rfl⟩
  have honce := exactly.once read.1 command
  cases result with
  | some result =>
      obtain ⟨final, hfinal, hname⟩ := exists_finishExec hevent result
      have hmore : 0 < (finishExec (execEvents env s context p pipeline) result).countP
          fun event => event.command = read.1 :=
        List.countP_pos_iff.mpr ⟨final, hfinal, decide_eq_true hname⟩
      rw [patchedPipelineExec_some, recordings] at honce
      have htotal := honce hcommand hdone
      simp only [State.push, List.countP_append] at htotal
      omega
  | none =>
      let new : Pipeline :=
        { pipeline with executed := true, recording := execEvents env s context p pipeline }
      have hmem : new ∈ (s.pipelines.set p { pipeline with executed := true }).set p new :=
        List.mem_of_getElem? (Indexed.getElem?_set_self_of_some
          (Indexed.getElem?_set_self_of_some hpipeline _) new)
      have hmore : 0 < (((s.pipelines.set p { pipeline with executed := true }).set p new).flatMap
          Pipeline.recording).countP fun event => event.command = read.1 :=
        List.countP_pos_iff.mpr ⟨_, List.mem_flatMap.mpr ⟨new, hmem, hevent⟩, decide_eq_true rfl⟩
      rw [patchedPipelineExec_none, recordings] at honce
      have htotal := honce hcommand hdone
      dsimp only at htotal
      rw [hpipelines, List.countP_append, List.countP_append] at htotal
      change _ + (((s.pipelines.set p { pipeline with executed := true }).set p new).flatMap
        Pipeline.recording).countP _ = 1 at htotal
      omega

theorem guard_of_exactlyOnce (h : Inv env s) {action : Action}
    (hstep : step env s action = some t) (exactly : ExactlyOnce env t) : guard s action := by
  cases action with
  | resend id context result =>
      obtain ⟨command, hcommand, hissued, rfl⟩ := resend_step hstep
      have honce := h.once id command hcommand
      rw [patchedSendCommand_eq h.idle] at exactly
      have htwice := exactly.once id command (by rw [record_commands]; exact hcommand) hissued
      have hsame : (createRedisEvent env id context command.instance' command.command).command =
        id := rfl
      rw [recordings_record, honce, hissued, if_pos rfl, if_pos hsame] at htwice
      exact absurd htwice (by decide)
  | exec p context results result =>
      obtain ⟨pipeline, hpipeline, hopen, rfl⟩ := exec_step hstep
      intro other hother
      obtain rfl : pipeline = other := Option.some.inj (hpipeline.symm.trans hother)
      rw [List.eq_nil_iff_forall_not_mem]
      intro read hread
      exact exec_records_twice h hpipeline hopen hread context results result exactly
  | command => trivial
  | sendCommand => trivial
  | pipeline => trivial
  | queue => trivial
  | settle => trivial
  | settleExec => trivial

end Facts

/-! ## Runs -/

theorem inv_initial : Inv env initial where
  idle _ := rfl
  silent _ h := absurd h List.not_mem_nil
  once _ _ h := absurd h.symm (Option.some_ne_none _)
  waiting _ h := absurd h List.not_mem_nil
  own _ h := absurd h List.not_mem_nil
  executed _ _ _ h := absurd h.symm (Option.some_ne_none _)

theorem inv_preserved : (system env).Preserved guard (Inv env) where
  init := by rintro s rfl; exact inv_initial env
  step _ _ _ h hguard hstep := h.step hguard hstep

/-- A run records each command of the host once, with its name, its key and its outcome, exactly if
the driver never sends a command again and no pipeline is executed that `exec` reads a command of. -/
theorem always_recordedOnce_iff (actions : List Action) :
    (system env).Always (ExactlyOnce env) initial actions ↔
      (system env).Guarded guard initial actions :=
  Transition.System.always_iff_guarded (inv_preserved env) (fun _ h => h.exactlyOnce)
    (fun _ _ _ h hstep exactly => guard_of_exactlyOnce h hstep exactly) (inv_initial env)

/-! ## A pipeline and an offline queue -/

def plainEnvironment : Environment where
  requestId _ := "alice"
  target _ := "redis://localhost:6379"
  scrubCacheKey key := key
  toUpperCase text := text

def getCommand : ParsedRedisCommand where
  name := "get"
  args := [some "cart"]

def getEntry : QueueEntry :=
  .object { name := some "get", args := some [some "cart"] } none

def executedPipeline : List Action :=
  [.pipeline 0 none true, .queue 0 getCommand getEntry true, .exec 0 none [.promise] none]

def offlineCommand : List Action :=
  [.command 0 none getCommand true .promise, .resend 0 none .promise]

/-- The command of an executed pipeline has two events, and so has a command that the driver sends
from its offline queue. -/
theorem commands_recorded_twice :
    ¬ (system plainEnvironment).Always (ExactlyOnce plainEnvironment) initial executedPipeline ∧
      ¬ (system plainEnvironment).Always (ExactlyOnce plainEnvironment) initial offlineCommand := by
  constructor
  · intro always
    have twice : ∃ s, (system plainEnvironment).exec initial executedPipeline = some s ∧
        recordings s 0 = 2 ∧ ∃ command, s.commands[0]? = some command ∧ command.issued = true := by
      decide
    obtain ⟨s, hrun, htwice, command, hcommand, hissued⟩ := twice
    have honce := (always.final hrun).once 0 command hcommand hissued
    exact absurd (htwice.symm.trans honce) (by decide)
  · intro always
    have twice : ∃ s, (system plainEnvironment).exec initial offlineCommand = some s ∧
        recordings s 0 = 2 ∧ ∃ command, s.commands[0]? = some command ∧ command.issued = true := by
      decide
    obtain ⟨s, hrun, htwice, command, hcommand, hissued⟩ := twice
    have honce := (always.final hrun).once 0 command hcommand hissued
    exact absurd (htwice.symm.trans honce) (by decide)

end ErrorCore.IoRedis
