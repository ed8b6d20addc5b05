import Mathlib.Logic.Function.Basic
import ErrorCore.Foundation.Transition
import ErrorCore.Transport.DeadLetterStore

/-!
# Three drainers over one dead-letter file

`SDKInstance.drainDeadLetters` runs once at start-up and
`ErrorCapturer.drainDeadLettersOnce` whenever the transport has recovered; both
belong to the process that appends, share its store object and are interleaved
at their `await`s only. `cmdDrain` of `errorcore drain` is a process of its own
with its own store options. All of them read a snapshot under the lock, send
outside it, and take the lock again to cut what they sent out of the file.

A step is one section under the lock, or the outcome of one `transport.send`.
The last three fields of the state are not in the program: they record which
lines an append has reported as stored, which payloads a send has delivered, and
which stored payloads a clearing step has removed before that.
-/

namespace ErrorCore.DeadLetterStore

/-- What the two processes are configured with. -/
structure Deployment where
  rt : Runtime
  sdk : DeadLetterStoreOptions
  cli : DeadLetterStoreOptions
  maxDrainOnStartup : Nat

inductive Drainer
  | startUp
  | recovery
  | cli
  deriving DecidableEq, Repr

def Deployment.options (cfg : Deployment) : Drainer → DeadLetterStoreOptions
  | .startUp | .recovery => cfg.sdk
  | .cli => cfg.cli

/-- The local variables of a send loop. The batch is `done ++ rest`, and the
head of `rest` is being sent. -/
structure Sending where
  snapshot : List Text
  entries : List DeadLetterDrainEntry
  done : List DeadLetterDrainEntry
  rest : List DeadLetterDrainEntry
  processedLineCount : Nat
  failedLineIndices : List Nat
  deriving DecidableEq, Repr

/-- What a clearing step cuts out of the file. -/
inductive Clearing
  | clearSent (sentLineCount : Nat)
  | cmdDrain (snapshotLineCount : Nat) (failedLineIndices : List Nat)
  deriving DecidableEq, Repr

/-- Where a drainer is. A drainer that is `draining` or `clearing` is about to
take the lock. -/
inductive Phase
  | idle
  | draining
  | sending (loop : Sending)
  | clearing (snapshot : List Text) (cut : Clearing)
  | finished
  deriving DecidableEq, Repr

namespace Sending

def lineCount (loop : Sending) : Nat := loop.snapshot.length

def batch (loop : Sending) : List DeadLetterDrainEntry := loop.done ++ loop.rest

/-- `processedLineCount === batch[batch.length - 1]?.lineNumber &&
batch.length === entries.length`. The recovery drainer's batch is all entries,
so that its own test is the first half. -/
def drainedEverything (loop : Sending) : Bool :=
  loop.batch.getLast?.map (·.lineNumber) = some loop.processedLineCount &&
    loop.batch.length = loop.entries.length

/-- The end of the loop of the two drainers in the SDK. -/
def stop (loop : Sending) (after : Phase) : Phase :=
  if loop.processedLineCount = 0 then after
  else
    .clearing loop.snapshot
      (.clearSent (if loop.drainedEverything then loop.lineCount else loop.processedLineCount))

/-- One iteration of the loop of the two drainers in the SDK: a failed send
breaks out of it. -/
def settleInSdk (loop : Sending) (entry : DeadLetterDrainEntry)
    (rest : List DeadLetterDrainEntry) (sent : Bool) (after : Phase) : Phase :=
  if sent then
    let loop :=
      { loop with done := loop.done ++ [entry], rest, processedLineCount := entry.lineNumber }
    if rest = [] then loop.stop after else .sending loop
  else
    loop.stop after

/-- One iteration of the loop of `cmdDrain`, which goes on after a failed send. -/
def settleInCli (loop : Sending) (entry : DeadLetterDrainEntry)
    (rest : List DeadLetterDrainEntry) (sent : Bool) : Phase :=
  let loop :=
    { loop with
      done := loop.done ++ [entry]
      rest
      failedLineIndices :=
        if sent then loop.failedLineIndices
        else loop.failedLineIndices ++ [entry.lineNumber - 1] }
  if rest = [] then .clearing loop.snapshot (.cmdDrain loop.lineCount loop.failedLineIndices)
  else .sending loop

end Sending

/-- The loop starts on a batch of the entries, if there is one. -/
def startLoop (snapshot : List Text) (result : DrainResult)
    (batch : List DeadLetterDrainEntry) (after : Phase) : Phase :=
  if batch = [] then after
  else
    .sending
      { snapshot, entries := result.entries, done := [], rest := batch, processedLineCount := 0,
        failedLineIndices := [] }

/-- `drainDeadLetters` and `drainDeadLettersOnce` after their call of `drain`:
without entries everything read is cleared, even if nothing was sent. -/
def afterDrainInSdk (snapshot : List Text) (result : DrainResult)
    (batch : List DeadLetterDrainEntry) (after : Phase) : Phase :=
  if result.entries = [] then
    if 0 < result.lineCount then .clearing snapshot (.clearSent result.lineCount) else after
  else
    startLoop snapshot result batch after

def drainDeadLetters (cfg : Deployment) (snapshot : List Text) (result : DrainResult) : Phase :=
  afterDrainInSdk snapshot result (result.entries.take cfg.maxDrainOnStartup) .finished

def drainDeadLettersOnce (snapshot : List Text) (result : DrainResult) : Phase :=
  afterDrainInSdk snapshot result result.entries .idle

def cmdDrain (snapshot : List Text) (result : DrainResult) : Phase :=
  startLoop snapshot result result.entries .idle

/-- What a drainer does when its run is over: the start-up drain happens once. -/
def Drainer.after : Drainer → Phase
  | .startUp => .finished
  | .recovery | .cli => .idle

/-- The test of the file a drainer starts with. -/
def Drainer.finds (d : Drainer) (file : StoreFile) : Bool :=
  match d with
  | .startUp | .recovery => hasPending file
  | .cli => file.isSome

/-- The lines a clearing step cuts, given the lines it finds. -/
def Clearing.cutLines (cut : Clearing) (lines : List Text) : List Text :=
  match cut with
  | .clearSent sentLineCount => lines.take sentLineCount
  | .cmdDrain snapshotLineCount failedLineIndices =>
      ((lines.take snapshotLineCount).zipIdx.filter fun (_, i) => i ∉ failedLineIndices).map
        Prod.fst

/-- The lines a clearing step leaves, given the lines it finds. -/
def Clearing.keptLines (cut : Clearing) (lines : List Text) : List Text :=
  match cut with
  | .clearSent sentLineCount => lines.drop sentLineCount
  | .cmdDrain snapshotLineCount failedLineIndices =>
      ((lines.take snapshotLineCount).zipIdx.filter fun (_, i) => i ∈ failedLineIndices).map
        Prod.fst ++ lines.drop snapshotLineCount

/-- The clearing section of `cmdDrain`; reading a file that is gone throws. -/
def clearInCli (file : StoreFile) (cut : Clearing) : StoreFile :=
  match file with
  | none => none
  | some content =>
      let kept := cut.keptLines (splitLines content)
      if kept = [] then none else some (joinLines kept)

/-- A line an append has reported as stored, with the payload it was made for. -/
structure Accepted where
  line : Text
  payload : Text
  deriving DecidableEq, Repr

structure State where
  file : StoreFile
  store : Store
  drainers : Drainer → Phase
  accepted : List Accepted
  acked : List DeadLetterDrainEntry
  sent : List Text
  lost : List Text

namespace State

def setDrainer (s : State) (d : Drainer) (phase : Phase) : State :=
  { s with drainers := Function.update s.drainers d phase }

@[simp] theorem setDrainer_same (s : State) (d : Drainer) (phase : Phase) :
    (s.setDrainer d phase).drainers d = phase := Function.update_self ..

theorem setDrainer_of_ne (s : State) {d e : Drainer} (phase : Phase) (h : e ≠ d) :
    (s.setDrainer d phase).drainers e = s.drainers e := Function.update_of_ne h ..

end State

/-- A drainer of the SDK that has not come to its next `await` yet. -/
def Phase.midTurn : Phase → Bool
  | .draining | .clearing .. => true
  | _ => false

/-- JavaScript runs to the next `await`: nothing else of the SDK process moves
while one of its drainers is between two locked sections. -/
def State.sdkFree (s : State) (self : Option Drainer) : Bool :=
  [Drainer.startUp, .recovery].all fun d => some d = self || !(s.drainers d).midTurn

def State.mayMove (s : State) : Drainer → Bool
  | .cli => true
  | d => s.sdkFree (some d)

inductive Action
  | appendPayloadSync (storedAt payload : Text)
  | appendFailureMarkerSync (storedAt code : Text)
  /-- The next locked section of a drainer, or its first test of the file. -/
  | run (d : Drainer)
  /-- The `transport.send` a drainer waits for resolves or rejects. -/
  | settle (d : Drainer) (sent : Bool)
  /-- The drainer gives up: its locked section throws, or the command is
  declined or killed. -/
  | abort (d : Drainer)
  deriving DecidableEq, Repr

section Step

variable (cfg : Deployment)

/-- What the drainer's next locked section reads or cuts. -/
def State.section (s : State) (d : Drainer) : Option State :=
  match s.drainers d with
  | .idle => some (s.setDrainer d (if d.finds s.file then .draining else d.after))
  | .draining =>
      let snapshot := linesOf s.file
      match d with
      | .startUp =>
          let result := drain cfg.rt cfg.sdk s.file s.store false
          some (s.setDrainer d (drainDeadLetters cfg snapshot result))
      | .recovery =>
          let result := drain cfg.rt cfg.sdk s.file s.store false
          some (s.setDrainer d (drainDeadLettersOnce snapshot result))
      | .cli =>
          let result := drain cfg.rt cfg.cli s.file Store.fresh true
          some (s.setDrainer d (cmdDrain snapshot result))
  | .clearing _ cut =>
      let removed := cut.cutLines (linesOf s.file)
      let unsent := s.accepted.filter fun a => a.line ∈ removed ∧ a.payload ∉ s.sent
      let s := { s with lost := s.lost ++ unsent.map Accepted.payload }
      match cut with
      | .clearSent sentLineCount =>
          let (file, store) := clearSent s.file s.store sentLineCount
          some ({ s with file, store }.setDrainer d d.after)
      | .cmdDrain .. =>
          some ({ s with file := clearInCli s.file cut }.setDrainer d d.after)
  | .sending _ | .finished => none

/-- The recovery drainer alone remembers what it delivered. -/
def State.markAcked (s : State) (d : Drainer) (entry : DeadLetterDrainEntry) (sent : Bool) :
    State :=
  match d, sent with
  | .recovery, true =>
      { s with store := DeadLetterStore.markAcked s.store entry.id, acked := entry :: s.acked }
  | _, _ => s

def State.recordSent (s : State) (entry : DeadLetterDrainEntry) (sent : Bool) : State :=
  if sent then { s with sent := entry.payload :: s.sent } else s

def State.settle (s : State) (d : Drainer) (sent : Bool) : Option State :=
  match s.drainers d with
  | .sending loop =>
      match loop.rest with
      | [] => none
      | entry :: rest =>
          let phase := match d with
            | .cli => loop.settleInCli entry rest sent
            | _ => loop.settleInSdk entry rest sent d.after
          some (((s.recordSent entry sent).markAcked d entry sent).setDrainer d phase)
  | _ => none

def State.abort (s : State) (d : Drainer) : Option State :=
  match d, s.drainers d with
  | _, .idle | _, .finished => none
  | .cli, _ => some (s.setDrainer d .idle)
  | _, .sending _ => none
  | _, _ => some (s.setDrainer d d.after)

def State.step (s : State) : Action → Option State
  | .appendPayloadSync storedAt payload =>
      if s.sdkFree none then
        let (stored, file, store) :=
          appendPayloadSync cfg.rt cfg.sdk s.file s.store storedAt payload
        let line := signedLine cfg.sdk (payloadEnvelope cfg.rt storedAt payload)
        some { s with
          file, store
          accepted := if stored then { line, payload } :: s.accepted else s.accepted }
      else
        none
  | .appendFailureMarkerSync storedAt code =>
      if s.sdkFree none then
        let (_, file, store) := appendFailureMarkerSync cfg.sdk s.file s.store storedAt code
        some { s with file, store }
      else
        none
  | .run d => if s.mayMove d then s.section cfg d else none
  | .settle d sent => if s.mayMove d then s.settle d sent else none
  | .abort d => if s.mayMove d then s.abort d else none

/-- A line that an append of the SDK writes for the payload. -/
def Accepted.Written (a : Accepted) : Prop :=
  ∃ storedAt, a.line = signedLine cfg.sdk (payloadEnvelope cfg.rt storedAt a.payload)

/-- Nobody is draining. The file is arbitrary, and so is what earlier appends
have put into it and what has been delivered. -/
def Initial (s : State) : Prop :=
  (∀ d, s.drainers d = .idle) ∧ (∀ a ∈ s.accepted, a.Written cfg) ∧
    s.store.ackedPayloadIds = [] ∧ s.acked = [] ∧ s.lost = []

def system : Transition.System State Action := { init := Initial cfg, step := State.step cfg }

/-- Every payload an append reported as stored was delivered before a clearing
step removed it. -/
def NothingLost (s : State) : Prop := s.lost = []

/-- The clearing step a drainer is about to make cuts an appended line only if
it would cut it out of the drainer's own snapshot as well, if the drainer's own
store reads the line, and if no other payload of the same id was delivered. -/
def State.ClearsOwnSnapshot (s : State) (d : Drainer) : Prop :=
  match s.drainers d with
  | .clearing snapshot cut =>
      ∀ a ∈ s.accepted, a.line ∈ cut.cutLines (linesOf s.file) →
        a.line ∈ cut.cutLines snapshot ∧
          (parseEnvelope cfg.rt (cfg.options d) a.line).isSome ∧
          ∀ e ∈ s.acked, e.id = computePayloadId cfg.rt a.payload → e.payload = a.payload
  | _ => True

instance (s : State) (d : Drainer) : Decidable (s.ClearsOwnSnapshot cfg d) := by
  unfold State.ClearsOwnSnapshot
  split <;> infer_instance

def ClearsOwnSnapshot (s : State) : Action → Prop
  | .run d => s.ClearsOwnSnapshot cfg d
  | _ => True

instance (s : State) (a : Action) : Decidable (ClearsOwnSnapshot cfg s a) := by
  cases a <;> simp only [ClearsOwnSnapshot] <;> infer_instance

end Step

end ErrorCore.DeadLetterStore
