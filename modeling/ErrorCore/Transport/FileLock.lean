import Mathlib.Logic.Function.Basic
import ErrorCore.Foundation.Transition

/-!
# The sidecar lock of the dead-letter file

`src/transport/file-lock.ts` takes a lock by making a directory and writing an
owner file into it. Every file-system call below is one atomic step, so that
any number of processes can interleave between two of them. A process is named
by its PID, and a dead process never runs again.

The owner file is represented by what `parseOwnerPid` reads out of it, the lock
file of earlier releases by what `parseLegacyPid` reads out of it. Sleeping and
the retry counter have no effect on the file system and belong to the step
before them.
-/

namespace ErrorCore.FileLock

abbrev Pid := Nat

def maxRetries : Nat := 20

/-- The content of `owner.json`: no file at all, or the PID it names, which is
`none` when the text holds no positive integer. -/
inductive OwnerFile
  | absent
  | present (pid : Option Pid)
  deriving DecidableEq, Repr

/-- What stands at `lockPath`. -/
inductive LockEntry
  | missing
  | directory (owner : OwnerFile)
  | file (legacyPid : Option Pid)
  deriving DecidableEq, Repr

/-- The two error codes by which `acquireLock` tells a failed write from a
contended lock. -/
inductive Errno
  | eexist
  | other
  deriving DecidableEq, Repr

/-- Who called `removeExistingLock`, and so what follows it. -/
inductive RemoveCaller
  | staleLock
  | failedWrite (err : Errno)
  | releaseLock
  deriving DecidableEq, Repr

/-- The next file-system call of a process. -/
inductive Phase
  | outside
  | mkdirSync
  | writeOwnerMetadata
  | lstatExisting
  | readOwnerFile
  | readLegacyFile
  | isProcessAlive (pid : Pid)
  | lstatRemove (caller : RemoveCaller)
  | rmSync (caller : RemoveCaller)
  | unlinkSync (caller : RemoveCaller)
  | holding
  | thrown
  deriving DecidableEq, Repr

/-- One process: its control point and the local variables of `acquireLock`. -/
structure Process where
  alive : Bool
  phase : Phase
  attempt : Nat
  removedStalePid : Option Pid
  lastHolder : Option Pid
  deriving DecidableEq, Repr

structure State where
  lock : LockEntry
  processes : Pid → Process

/-- The verdict of `readExistingLock`. -/
inductive ExistingLock
  | missing
  | active (holderPid : Option Pid)
  | stale (holderPid : Pid)
  deriving DecidableEq, Repr

namespace Process

def fresh (alive : Bool) : Process :=
  { alive, phase := .outside, attempt := 0, removedStalePid := none, lastHolder := none }

def goto (pr : Process) (phase : Phase) : Process := { pr with phase }

/-- Enter `acquireLock` with fresh local variables. -/
def acquireLock (pr : Process) : Process :=
  { pr with phase := .mkdirSync, attempt := 0, removedStalePid := none, lastHolder := none }

/-- The end of a loop body: try again, or give up after the last attempt. -/
def continueLoop (pr : Process) : Process :=
  if pr.attempt + 1 < maxRetries then
    { pr with phase := .mkdirSync, attempt := pr.attempt + 1 }
  else
    pr.goto .thrown

/-- The `catch` branch of `acquireLock`, once the verdict is known. -/
def onExisting (pr : Process) : ExistingLock → Process
  | .missing => pr.continueLoop
  | .active holderPid => { pr with lastHolder := holderPid }.continueLoop
  | .stale holderPid =>
      let pr := { pr with lastHolder := some holderPid }
      if pr.removedStalePid = some holderPid then
        pr.goto .thrown
      else
        { pr with removedStalePid := some holderPid }.goto (.lstatRemove .staleLock)

/-- `lockStateForPid` up to its call of `isProcessAlive`. -/
def lockStateForPid (pr : Process) : Option Pid → Process
  | none => pr.onExisting (.active none)
  | some pid => pr.goto (.isProcessAlive pid)

/-- `removeExistingLock` returned to its caller. -/
def afterRemove (pr : Process) : RemoveCaller → Process
  | .staleLock => pr.continueLoop
  | .failedWrite .eexist => pr.goto .lstatExisting
  | .failedWrite .other => pr.goto .thrown
  | .releaseLock => pr.goto .outside

/-- `removeExistingLock` threw: only `releaseLock` catches the error. -/
def afterRemoveError (pr : Process) : RemoveCaller → Process
  | .releaseLock => pr.goto .outside
  | _ => pr.goto .thrown

end Process

section Calls

variable (self : Pid) (alive : Pid → Bool) (lock : LockEntry) (pr : Process)

def mkdirSync : LockEntry × Process :=
  match lock with
  | .missing => (.directory .absent, pr.goto .writeOwnerMetadata)
  | .directory _ | .file _ => (lock, pr.goto .lstatExisting)

/-- The owner file is opened with flag `wx`: it must not exist yet, and neither
may the directory be gone. -/
def writeOwnerMetadata : LockEntry × Process :=
  match lock with
  | .directory .absent => (.directory (.present (some self)), pr.goto .holding)
  | .directory (.present _) => (lock, pr.goto (.lstatRemove (.failedWrite .eexist)))
  | .missing | .file _ => (lock, pr.goto (.lstatRemove (.failedWrite .other)))

def lstatExisting : Process :=
  match lock with
  | .missing => pr.onExisting .missing
  | .directory _ => pr.goto .readOwnerFile
  | .file _ => pr.goto .readLegacyFile

def readOwnerFile : Process :=
  match lock with
  | .directory (.present pid) => pr.lockStateForPid pid
  | .directory .absent | .missing | .file _ => pr.onExisting (.active none)

def readLegacyFile : Process :=
  match lock with
  | .file pid => pr.lockStateForPid pid
  | .missing => pr.onExisting .missing
  | .directory _ => pr.onExisting (.active none)

/-- `alive` is what `process.kill(pid, 0)` sees. -/
def isProcessAlive (pid : Pid) : Process :=
  pr.onExisting (if alive pid then .active (some pid) else .stale pid)

def lstatRemove (caller : RemoveCaller) : Process :=
  match lock with
  | .missing => pr.afterRemove caller
  | .directory _ => pr.goto (.rmSync caller)
  | .file _ => pr.goto (.unlinkSync caller)

/-- `rmSync` is recursive and forced: whatever stands there goes. -/
def rmSync (caller : RemoveCaller) : LockEntry × Process :=
  (.missing, pr.afterRemove caller)

def unlinkSync (caller : RemoveCaller) : LockEntry × Process :=
  match lock with
  | .file _ => (.missing, pr.afterRemove caller)
  | .missing | .directory _ => (lock, pr.afterRemoveError caller)

/-- One file-system call of process `self`: the entry it leaves at `lockPath`
and the process after it. -/
def runStep : Option (LockEntry × Process) :=
  match pr.phase with
  | .outside | .holding | .thrown => none
  | .mkdirSync => some (mkdirSync lock pr)
  | .writeOwnerMetadata => some (writeOwnerMetadata self lock pr)
  | .lstatExisting => some (lock, lstatExisting lock pr)
  | .readOwnerFile => some (lock, readOwnerFile lock pr)
  | .readLegacyFile => some (lock, readLegacyFile lock pr)
  | .isProcessAlive pid => some (lock, isProcessAlive alive pr pid)
  | .lstatRemove caller => some (lock, lstatRemove lock pr caller)
  | .rmSync caller => some (rmSync pr caller)
  | .unlinkSync caller => some (unlinkSync lock pr caller)

end Calls

/-- What a scheduler can do next: enter or leave the critical section with a
process, let it execute one file-system call, or kill it. -/
inductive Action
  | acquireLock (p : Pid)
  | run (p : Pid)
  | releaseLock (p : Pid)
  | die (p : Pid)
  deriving DecidableEq, Repr

namespace State

def alive (s : State) (p : Pid) : Bool := (s.processes p).alive

def setProcess (s : State) (p : Pid) (pr : Process) : State :=
  { s with processes := Function.update s.processes p pr }

@[simp] theorem setProcess_lock (s : State) (p : Pid) (pr : Process) :
    (s.setProcess p pr).lock = s.lock := rfl

@[simp] theorem setProcess_same (s : State) (p : Pid) (pr : Process) :
    (s.setProcess p pr).processes p = pr := Function.update_self ..

theorem setProcess_of_ne (s : State) {p q : Pid} (pr : Process) (h : q ≠ p) :
    (s.setProcess p pr).processes q = s.processes q := Function.update_of_ne h ..

def step (s : State) : Action → Option State
  | .acquireLock p =>
      if s.alive p && ((s.processes p).phase = .outside || (s.processes p).phase = .thrown) then
        some (s.setProcess p (s.processes p).acquireLock)
      else
        none
  | .run p =>
      if s.alive p then
        match runStep p s.alive s.lock (s.processes p) with
        | none => none
        | some (lock, pr) => some ({ s with lock }.setProcess p pr)
      else
        none
  | .releaseLock p =>
      if s.alive p && (s.processes p).phase = .holding then
        some (s.setProcess p ((s.processes p).goto (.lstatRemove .releaseLock)))
      else
        none
  | .die p =>
      if s.alive p then some (s.setProcess p { s.processes p with alive := false }) else none

end State

/-- Nobody is inside `acquireLock` and nobody holds the lock. What an earlier
process left at `lockPath` is arbitrary, and so is who is alive. -/
def Initial (s : State) : Prop := ∀ p, (s.processes p).phase = .outside

def system : Transition.System State Action := { init := Initial, step := State.step }

/-- The phases from the return of `acquireLock` to the return of `releaseLock`. -/
def Phase.isHolding : Phase → Bool
  | .holding | .lstatRemove .releaseLock | .rmSync .releaseLock | .unlinkSync .releaseLock => true
  | _ => false

/-- A live process that has returned from `acquireLock` and has not yet released. -/
def State.Holds (s : State) (p : Pid) : Prop :=
  s.alive p = true ∧ (s.processes p).phase.isHolding = true

instance (s : State) (p : Pid) : Decidable (s.Holds p) := by
  unfold State.Holds
  infer_instance

def MutualExclusion (s : State) : Prop := ∀ p q, s.Holds p → s.Holds q → p = q

/-- The removal a process is about to make outside `releaseLock` hits no
directory whose owner file names another live process. -/
def RemovesNoLiveLock (s : State) (q : Pid) : Prop :=
  match (s.processes q).phase, s.lock with
  | .rmSync .releaseLock, _ => True
  | .rmSync _, .directory (.present (some p)) => s.alive p = true → p = q
  | _, _ => True

instance (s : State) (q : Pid) : Decidable (RemovesNoLiveLock s q) := by
  unfold RemovesNoLiveLock
  split <;> infer_instance

/-- The steps that take down no live process's lock. -/
def RespectsOwner (s : State) : Action → Prop
  | .run q => RemovesNoLiveLock s q
  | _ => True

instance (s : State) (a : Action) : Decidable (RespectsOwner s a) := by
  cases a <;> simp only [RespectsOwner] <;> infer_instance

end ErrorCore.FileLock
