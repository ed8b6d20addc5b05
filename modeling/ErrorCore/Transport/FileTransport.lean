import Mathlib.Data.List.Lex
import Mathlib.Data.List.Sort
import ErrorCore.Foundation.Bytes
import ErrorCore.Foundation.Directory
import ErrorCore.Foundation.Transition

/-!
# The file transport

`src/transport/file-transport.ts`, and its copy in the worker source of
`src/transport/transport.ts`, append payloads to one file. A call of `send`
awaits the rotation that is in flight, if there is one, and starts its own:
`rotateOnce` renames a file that has become too large and cleans up old backups.

The file system performs what it was asked for at one time, and the callback
runs at a later one. With the callback everything runs that the promises it
settles are awaited by: first the call that the rotation belongs to, then those
that wait for it, in their order.
-/

namespace ErrorCore.FileTransport

structure Config where
  /-- `path.basename(path)`. -/
  base : Text
  /-- `path.dirname(path)` is a directory to make. -/
  hasDirectory : Bool
  maxSizeBytes : Int := 100 * 1024 * 1024
  maxBackups : Int := 5
  /-- The copy in the worker source, which cleans up synchronously. -/
  inWorker : Bool

/-- What the calls have written, each line with the number of its call. -/
structure File where
  otherBytes : Nat
  lines : List (Nat × Bytes)
  deriving DecidableEq, Repr

def File.empty : File := { otherBytes := 0, lines := [] }

def File.size (file : File) : Nat :=
  file.otherBytes + InsertionMap.total (fun line => line.2.length) file.lines

structure Disk where
  directory : Directory Text File
  /-- The files whose backup was deleted by a cleanup. -/
  cleaned : List Nat
  deriving DecidableEq, Repr

/-! ## Backups -/

def Config.backupName (cfg : Config) (stamp seq : Nat) : Text :=
  cfg.base ++ '.' :: (Nat.toDigits 10 stamp ++ '-' :: (Nat.toDigits 10 seq ++ (".bak" : Text)))

def Config.isBackup (cfg : Config) (name : Text) : Bool :=
  Text.startsWith name (cfg.base ++ ['.']) && Text.endsWith name ".bak"

/-- `backups.slice(maxBackups)`, and the loop from `maxBackups` on in the worker. -/
def Config.expiredBackups (cfg : Config) (names : List Text) : List Text :=
  let sorted := (names.filter cfg.isBackup).insertionSort fun a b =>
    Text.utf16Units a ≤ Text.utf16Units b
  let backups := sorted.reverse
  if cfg.inWorker || 0 ≤ cfg.maxBackups then backups.drop cfg.maxBackups.toNat
  else backups.drop (backups.length - (-cfg.maxBackups).toNat)

def Disk.unlink (disk : Disk) (name : Text) : Disk :=
  { directory := disk.directory.unlink name
    cleaned := (disk.directory.find? name).toList ++ disk.cleaned }

/-- `cleanupOldBackups` of the worker. Files that cannot be deleted stay. -/
def Disk.cleanupOldBackups (disk : Disk) (cfg : Config) (kept : List Text) : Disk :=
  ((cfg.expiredBackups (disk.directory.names.map (·.1))).filter (· ∉ kept)).foldl Disk.unlink disk

/-! ## Calls -/

/-- What a `rotateOnce` waits for, and with which result its callback will run. -/
inductive Rotation
  | stat
  | statted (size : Option Nat)
  | rename (stamp seq : Nat)
  | renamed (ok : Bool)
  | readdir
  | listed (names : Option (List Text))
  | unlink (name : Text) (rest : List Text)
  | unlinked (rest : List Text)
  deriving DecidableEq, Repr

/-- What a call of `send` waits for. -/
inductive Phase
  | waiting (other : Nat)
  | rotating (rotation : Rotation)
  | mkdir
  | madeDirectory (ok : Bool)
  | append
  | opened (file : Nat)
  | appended (ok : Bool)
  | resolved
  | rejected
  deriving DecidableEq, Repr

structure Call where
  payload : Bytes
  phase : Phase
  deriving DecidableEq, Repr

def Call.line (call : Call) : Bytes := call.payload ++ Bytes.ofText ['\n']

/-- A rotation belongs to the call that has started it. -/
structure State where
  disk : Disk
  calls : List Call
  rotatePromise : Option Nat
  rotateCounter : Nat
  /-- The file system has failed in another way than by a file that is not there. -/
  faulted : Bool
  deriving DecidableEq, Repr

inductive Action
  | send (payload : Bytes)
  /-- The file system performs what the call waits for, or fails, in a write after some bytes. -/
  | perform (i : Nat) (fault : Option Nat)
  /-- The callback runs at a time. In the worker, `kept` cannot be deleted. -/
  | callback (i now : Nat) (kept : List Text)
  deriving DecidableEq, Repr

/-- What the file system does. -/
def Disk.perform (disk : Disk) (cfg : Config) (i : Nat) (line : Bytes) (fault : Option Nat) :
    Phase → Option (Disk × Phase)
  | .rotating .stat =>
      let file := (disk.directory.find? cfg.base).bind (disk.directory.files[·]?)
      some (disk, .rotating (.statted (if fault.isSome then none else file.map File.size)))
  | .rotating (.rename stamp seq) =>
      match fault, disk.directory.rename cfg.base (cfg.backupName stamp seq) with
      | none, some directory => some ({ disk with directory }, .rotating (.renamed true))
      | _, _ => some (disk, .rotating (.renamed false))
  | .rotating .readdir =>
      let names := if fault.isSome then none else some (disk.directory.names.map (·.1))
      some (disk, .rotating (.listed names))
  | .rotating (.unlink name rest) =>
      some (if fault.isSome then disk else disk.unlink name, .rotating (.unlinked rest))
  | .mkdir => some (disk, .madeDirectory fault.isNone)
  | .append =>
      if fault.isSome then some (disk, .appended false)
      else
        let opened := disk.directory.openFile cfg.base File.empty
        some ({ disk with directory := opened.2 }, .opened opened.1)
  | .opened f =>
      match fault with
      | none =>
          let write (file : File) : File := { file with lines := file.lines ++ [(i, line)] }
          some ({ disk with directory := disk.directory.modify f write }, .appended true)
      | some written =>
          let write (file : File) : File :=
            { file with otherBytes := file.otherBytes + min written line.length }
          some ({ disk with directory := disk.directory.modify f write }, .appended false)
  | _ => none

/-- What becomes of a rotation when its callback runs. -/
inductive Resumed
  | settles (ok : Bool)
  | waits (rotation : Rotation)
  deriving DecidableEq, Repr

/-- The loop over the backups to delete. -/
def unlinkNext : List Text → Resumed
  | [] => .settles true
  | name :: rest => .waits (.unlink name rest)

/-- The rest of `rotateOnce`, up to where it waits again. -/
def Rotation.resume (cfg : Config) (now rotateCounter : Nat) : Rotation → Option Resumed
  | .statted none => some (.settles true)
  | .statted (some size) =>
      if size ≤ cfg.maxSizeBytes then some (.settles true)
      else some (.waits (.rename now (rotateCounter + 1)))
  | .renamed false => some (.settles false)
  | .renamed true => if cfg.inWorker then some (.settles true) else some (.waits .readdir)
  | .listed none => some (.settles true)
  | .listed (some names) => some (unlinkNext (cfg.expiredBackups names))
  | .unlinked rest => some (unlinkNext rest)
  | .stat | .rename _ _ | .readdir | .unlink _ _ => none

def Rotation.counter (rotateCounter : Nat) : Rotation → Nat
  | .rename _ seq => seq
  | _ => rotateCounter

/-- `ensureDirectory`, or the append where there is no directory to make. -/
def Config.afterRotation (cfg : Config) : Phase := if cfg.hasDirectory then .mkdir else .append

namespace State

section Steps

variable (cfg : Config) (s : State)

def phase? (i : Nat) : Option Phase := (s.calls[i]?).map (·.phase)

def put (i : Nat) (phase : Phase) : State :=
  { s with calls := s.calls.modify i fun call => { call with phase } }

/-- The calls that wait for the rotation of a call. -/
def waiters (i : Nat) : List Nat :=
  (List.range s.calls.length).filter fun j => s.phase? j = some (.waiting i)

/-- The calls whose `rotateOnce` is in flight. -/
def inFlight : List Nat :=
  (List.range s.calls.length).filter fun j =>
    match s.phase? j with
    | some (.rotating _) => true
    | _ => false

def send (payload : Bytes) : State :=
  match s.rotatePromise with
  | some other => { s with calls := s.calls ++ [{ payload, phase := .waiting other }] }
  | none =>
      { s with
        calls := s.calls ++ [{ payload, phase := .rotating .stat }]
        rotatePromise := some s.calls.length }

/-- The rotation settles: its own call resets `rotatePromise` and goes on, and those that wait for
it start a rotation each. -/
def settle (i : Nat) (ok : Bool) : State :=
  { s with
    calls := s.calls.mapIdx fun j call =>
      if j = i then { call with phase := if ok then cfg.afterRotation else .rejected }
      else if call.phase = .waiting i then
        { call with phase := if ok then .rotating .stat else .rejected }
      else call
    rotatePromise := if ok then (s.waiters i).getLast? else none }

def perform (i : Nat) (fault : Option Nat) : Option State :=
  match s.calls[i]? with
  | none => none
  | some call =>
      match s.disk.perform cfg i call.line fault call.phase with
      | none => none
      | some (disk, phase) =>
          some { s.put i phase with disk, faulted := s.faulted || fault.isSome }

/-- The callback of a rotation. The worker cleans up in it. -/
def callbackRotation (i now : Nat) (kept : List Text) (rotation : Rotation) : Option State :=
  match rotation.resume cfg now s.rotateCounter with
  | none => none
  | some (.waits next) =>
      some { s.put i (.rotating next) with rotateCounter := next.counter s.rotateCounter }
  | some (.settles ok) =>
      if cfg.inWorker ∧ rotation = .renamed true then
        let disk := s.disk.cleanupOldBackups cfg kept
        some { s.settle cfg i ok with disk, faulted := s.faulted || kept ≠ [] }
      else
        some (s.settle cfg i ok)

def callback (i now : Nat) (kept : List Text) : Option State :=
  match s.phase? i with
  | some (.rotating rotation) => s.callbackRotation cfg i now kept rotation
  | some (.madeDirectory ok) => some (s.put i (if ok then .append else .rejected))
  | some (.appended ok) => some (s.put i (if ok then .resolved else .rejected))
  | _ => none

def step : Action → Option State
  | .send payload => some (s.send payload)
  | .perform i fault => s.perform cfg i fault
  | .callback i now kept => s.callback cfg i now kept

/-- No call was made yet. The files are arbitrary, but the current one has no second name. -/
structure Initial : Prop where
  wellFormed : s.disk.directory.WellFormed
  unlinked : ∀ name f, (name, f) ∈ s.disk.directory.names →
    (cfg.base, f) ∈ s.disk.directory.names → name = cfg.base
  lines : ∀ file ∈ s.disk.directory.files, file.lines = []
  calls : s.calls = []
  rotatePromise : s.rotatePromise = none
  rotateCounter : s.rotateCounter = 0

def system : Transition.System State Action where
  init := Initial cfg
  step := step cfg

/-- How often the line of a call is in a file. -/
def written (i : Nat) : Nat :=
  (s.disk.directory.files.flatMap (·.lines)).countP fun line => line.1 = i

/-- The file is the current one or a backup, or was deleted by a cleanup. -/
def Stays (f : Nat) : Prop :=
  f ∈ s.disk.cleaned ∨
    ∃ name, (name, f) ∈ s.disk.directory.names ∧ (name = cfg.base ∨ cfg.isBackup name = true)

/-- The line of a call is in one file, once. -/
def Keeps (i : Nat) (line : Bytes) : Prop :=
  s.written i = 1 ∧ ∃ f file, s.disk.directory.files[f]? = some file ∧ (i, line) ∈ file.lines ∧
    s.Stays cfg f

/-- One rotation at a time, no call rejected by a working file system, and every line kept. -/
structure Rotates : Prop where
  single : s.inFlight.length ≤ 1
  accepted : ∀ i, s.phase? i = some .rejected → s.faulted = true
  once : ∀ i, s.written i ≤ 1
  kept : ∀ i call, s.calls[i]? = some call → call.phase = .resolved → s.Keeps cfg i call.line

/-- The callback of the call fulfils its rotation. -/
def fulfils (i now : Nat) : Bool :=
  match s.phase? i with
  | some (.rotating rotation) => rotation.resume cfg now s.rotateCounter = some (.settles true)
  | _ => false

/-- A rotation that is fulfilled is awaited by one other call at most. -/
def WakesOne : Action → Prop
  | .callback i now _ => s.fulfils cfg i now = true → (s.waiters i).length ≤ 1
  | .send _ | .perform _ _ => True

instance (a : Action) : Decidable (s.WakesOne cfg a) :=
  match a with
  | .callback i now _ =>
      inferInstanceAs (Decidable (s.fulfils cfg i now = true → (s.waiters i).length ≤ 1))
  | .send _ | .perform _ _ => .isTrue trivial

end Steps

end State

end ErrorCore.FileTransport
