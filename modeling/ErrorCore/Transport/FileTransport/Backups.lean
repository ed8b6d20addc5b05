import ErrorCore.Transport.FileTransport.Rotation

/-!
# The backups of the file transport

Rotations one after the other: each `rotateOnce` has cleaned up before the next
one starts. Between them the calls write to the current file.
-/

namespace ErrorCore.FileTransport

open Backups (NameLe Stamp)

/-- What an append does. -/
def Disk.appendLine (disk : Disk) (cfg : Config) (i : Nat) (line : Bytes) : Disk :=
  let opened := disk.directory.openFile cfg.base File.empty
  let write (file : File) : File := { file with lines := file.lines ++ [(i, line)] }
  { disk with directory := opened.2.modify opened.1 write }

/-- The current file, if it has become too large. -/
def Disk.oversized (disk : Disk) (cfg : Config) : Option Nat :=
  (disk.directory.find? cfg.base).filter fun f =>
    (disk.directory.files[f]?).any fun file => cfg.maxSizeBytes < file.size

/-- The renaming of a `rotateOnce` and its cleanup. -/
def Disk.rotate (disk : Disk) (cfg : Config) (stamp : Stamp) : Option Disk :=
  match disk.directory.rename cfg.base (cfg.backupName stamp.now stamp.seq) with
  | none => none
  | some directory => some (Disk.cleanupOldBackups { disk with directory } cfg [])

/-- The disk under a transport, with the rotations so far. -/
structure Rotating where
  disk : Disk
  rotateCounter : Nat
  rotated : List (Stamp × Nat)
  deriving DecidableEq, Repr

inductive RotatingAction
  | append (i : Nat) (line : Bytes)
  | rotateOnce (now : Nat)

namespace Rotating

variable (cfg : Config) (s : Rotating)

/-- What a `rotateOnce` renames away. -/
def rotation? : RotatingAction → Option (Stamp × Nat)
  | .append _ _ => none
  | .rotateOnce now => (s.disk.oversized cfg).map fun f => (⟨now, s.rotateCounter + 1⟩, f)

def step (a : RotatingAction) : Option Rotating :=
  match a, s.rotation? cfg a with
  | .append i line, _ => some { s with disk := s.disk.appendLine cfg i line }
  | .rotateOnce _, none => some s
  | .rotateOnce _, some (stamp, f) =>
      (s.disk.rotate cfg stamp).map fun disk =>
        { disk, rotateCounter := stamp.seq, rotated := s.rotated ++ [(stamp, f)] }

/-- Files of any names but those of backups. -/
def system : Transition.System Rotating RotatingAction where
  init s := (∀ pair ∈ s.disk.directory.names, cfg.isBackup pair.1 = false) ∧
    s.rotateCounter = 0 ∧ s.rotated = []
  step := step cfg

def view : Backups.Rotations Nat where
  onDisk := s.disk.directory.names.filter fun pair => cfg.isBackup pair.1
  rotateCounter := s.rotateCounter
  rotated := s.rotated

end Rotating

/-! ## Steps -/

variable {cfg : Config} {disk : Disk}

theorem Disk.unlinkAll_names (names : List Text) (disk : Disk) :
    (names.foldl Disk.unlink disk).directory.names =
      disk.directory.names.filter fun pair => pair.1 ∉ names := by
  induction names generalizing disk with
  | nil => simp
  | cons name names ih =>
      rw [List.foldl_cons, ih]
      simp only [Disk.unlink, Directory.unlink, InsertionMap.delete, List.filter_filter]
      apply List.filter_congr
      intro pair _
      simp [Bool.and_comm]

/-- With a limit that is not negative, the backups that expire are those after it. -/
theorem expiredBackups_eq (hmax : 0 ≤ cfg.maxBackups) (names : List Text) :
    cfg.expiredBackups names =
      (Backups.newestFirst (names.filter cfg.isBackup)).drop cfg.maxBackups.toNat := by
  have hslice : (cfg.inWorker || decide (0 ≤ cfg.maxBackups)) = true := by simp [hmax]
  unfold Config.expiredBackups
  simp only [hslice, if_true]
  rfl

/-- The backups that a cleanup leaves. -/
theorem Disk.cleanupOldBackups_keeps (hmax : 0 ≤ cfg.maxBackups) (disk : Disk)
    (hnodup : ((disk.directory.names.filter fun pair => cfg.isBackup pair.1).map (·.1)).Nodup) :
    Retention.KeepsGreatest (fun a b : Text × Nat => NameLe a.1 b.1) cfg.maxBackups.toNat
      (disk.directory.names.filter fun pair => cfg.isBackup pair.1)
      ((disk.cleanupOldBackups cfg []).directory.names.filter fun pair => cfg.isBackup pair.1) := by
  have hbackups : (disk.directory.names.map (·.1)).filter cfg.isBackup =
      (disk.directory.names.filter fun pair => cfg.isBackup pair.1).map (·.1) := by
    rw [List.filter_map]
    rfl
  have hall : ∀ names : List Text, names.filter (fun name => name ∉ ([] : List Text)) = names := by
    intro names
    simp
  have hswap (p q : Text × Nat → Bool) (names : List (Text × Nat)) :
      (names.filter p).filter q = (names.filter q).filter p := by
    rw [List.filter_filter, List.filter_filter]
    exact List.filter_congr fun _ _ => Bool.and_comm _ _
  unfold Disk.cleanupOldBackups
  rw [hall, Disk.unlinkAll_names, expiredBackups_eq hmax, hbackups, hswap]
  exact Backups.keepsGreatest_of_delete hnodup

namespace Rotating

variable {s t : Rotating} {a : RotatingAction}

theorem appendLine_backups (disk : Disk) (i : Nat) (line : Bytes) :
    ((disk.appendLine cfg i line).directory.names.filter fun pair => cfg.isBackup pair.1) =
      disk.directory.names.filter fun pair => cfg.isBackup pair.1 := by
  unfold Disk.appendLine
  rw [Directory.modify_names]
  rcases Directory.openFile_cases disk.directory cfg.base File.empty with ⟨-, heq⟩ | ⟨-, -, heq⟩
  · rw [heq]
  · have hbase : cfg.isBackup cfg.base = false := by
      by_contra hbackup
      exact ne_base_of_isBackup (Bool.eq_true_of_not_eq_false hbackup) rfl
    rw [heq, List.filter_append]
    simp [hbase]

/-- The renaming of a `rotateOnce` adds one backup. -/
theorem rename_backups {directory : Directory Text File} (stamp : Stamp) {f : Nat}
    (hfind : disk.directory.find? cfg.base = some f)
    (hrename : disk.directory.rename cfg.base (cfg.backupName stamp.now stamp.seq) =
      some directory)
    (hnew : cfg.backupName stamp.now stamp.seq ∉
      (disk.directory.names.filter fun pair => cfg.isBackup pair.1).map (·.1)) :
    (directory.names.filter fun pair => cfg.isBackup pair.1) =
      (disk.directory.names.filter fun pair => cfg.isBackup pair.1) ++
        [Backups.backup cfg.base (stamp, f)] := by
  obtain ⟨g, hfind', rfl⟩ := Directory.rename_eq_some_iff.mp hrename
  obtain rfl := Option.some.inj (hfind.symm.trans hfind')
  have hbackup := @isBackup_backupName cfg stamp.now stamp.seq
  rw [List.filter_append]
  congr 1
  · simp only [InsertionMap.delete, List.filter_filter]
    apply List.filter_congr
    intro pair hpair
    cases hpair' : cfg.isBackup pair.1 with
    | false => simp
    | true =>
        have hbase : pair.1 ≠ cfg.base := ne_base_of_isBackup hpair'
        have hother : pair.1 ≠ cfg.backupName stamp.now stamp.seq := by
          intro heq
          apply hnew
          rw [← heq]
          exact List.mem_map_of_mem (List.mem_filter.mpr ⟨hpair, hpair'⟩)
        simp [hbase, hother]
  · simp [hbackup]
    rfl

/-- What a step does to the backups. -/
theorem step_moves (hmax : 0 ≤ cfg.maxBackups)
    (h : Backups.Consistent cfg.base cfg.maxBackups.toNat (s.view cfg))
    (hstep : s.step cfg a = some t) :
    Backups.Moves cfg.base NameLe cfg.maxBackups.toNat (s.rotation? cfg a) (s.view cfg)
      (t.view cfg) := by
  cases a with
  | append i line =>
      obtain rfl := Option.some.inj hstep
      have hview : ({ s with disk := s.disk.appendLine cfg i line } : Rotating).view cfg =
          s.view cfg := by
        unfold view
        rw [appendLine_backups]
      rw [hview]
      exact .stays (s.view cfg) (Nat.le_refl _)
  | rotateOnce now =>
      cases hlarge : s.disk.oversized cfg with
      | none =>
          have hrotation : s.rotation? cfg (.rotateOnce now) = none := by
            rw [rotation?, hlarge]
            rfl
          unfold step at hstep
          simp only [hrotation] at hstep
          obtain rfl := Option.some.inj hstep
          rw [hrotation]
          exact .stays (s.view cfg) (Nat.le_refl _)
      | some f =>
          have hrotation : s.rotation? cfg (.rotateOnce now) =
              some (⟨now, s.rotateCounter + 1⟩, f) := by
            rw [rotation?, hlarge]
            rfl
          have hfind : s.disk.directory.find? cfg.base = some f :=
            (Option.filter_eq_some_iff.mp hlarge).1
          have hnew : Backups.name cfg.base ⟨now, s.rotateCounter + 1⟩ ∉
              (s.view cfg).onDisk.map (·.1) :=
            h.name_notMem ⟨now, s.rotateCounter + 1⟩ (Nat.lt_succ_self _)
          unfold step at hstep
          simp only [hrotation] at hstep
          obtain ⟨disk, hrotate, rfl⟩ := Option.map_eq_some_iff.mp hstep
          unfold Disk.rotate at hrotate
          split at hrotate
          · cases hrotate
          · next directory hrename =>
              obtain rfl := Option.some.inj hrotate
              have hbackups := rename_backups ⟨now, s.rotateCounter + 1⟩ hfind hrename hnew
              rw [hrotation]
              apply Backups.Moves.rotates (s.view cfg) now f
              have hnodup : ((directory.names.filter fun pair => cfg.isBackup pair.1).map
                  (·.1)).Nodup := by
                rw [hbackups, List.map_append]
                exact List.Nodup.append h.names_nodup (List.nodup_singleton _)
                  (List.disjoint_singleton.mpr hnew)
              have hkeeps := Disk.cleanupOldBackups_keeps hmax { s.disk with directory } hnodup
              rw [hbackups] at hkeeps
              exact hkeeps

end Rotating

/-! ## The calls that rotate -/

namespace State

/-- A call is at work on its rotation. -/
structure AtWork (s : State) (i : Nat) (disk : Disk) (rotateCounter : Nat) (rotation : Rotation) :
    Prop where
  disk : s.disk = disk
  counter : s.rotateCounter = rotateCounter
  phase : s.phase? i = some (.rotating rotation)

/-- The file system performs what a rotation waits for, and its callback runs. -/
def turn (i now : Nat) : List Action := [.perform i none, .callback i now []]

variable {s : State} {i rotateCounter : Nat} {disk after : Disk} {rotation performed : Rotation}

theorem AtWork.perform (h : s.AtWork i disk rotateCounter rotation)
    (hperform : ∀ line, disk.perform cfg i line none (.rotating rotation) =
      some (after, .rotating performed)) :
    ∃ t, s.step cfg (.perform i none) = some t ∧ t.AtWork i after rotateCounter performed := by
  obtain ⟨call, hcall, hphase⟩ := Option.map_eq_some_iff.mp h.phase
  refine ⟨{ s.put i (.rotating performed) with disk := after, faulted := s.faulted || false },
    ?_, rfl, h.counter, ?_⟩
  · simp only [step, State.perform, hcall, hphase, h.disk, hperform, Option.isSome_none]
  · have hput := phase?_put hcall (.rotating performed) i
    rw [if_pos rfl] at hput
    exact hput

/-- A turn after which the rotation goes on. -/
theorem AtWork.turn_waits (cfg : Config) (now : Nat) (after : Disk) (performed next : Rotation)
    (h : s.AtWork i disk rotateCounter rotation)
    (hperform : ∀ line, disk.perform cfg i line none (.rotating rotation) =
      some (after, .rotating performed))
    (hresume : performed.resume cfg now rotateCounter = some (.waits next))
    (hcounter : next.counter rotateCounter = rotateCounter) :
    ∃ t, (system cfg).exec s (turn i now) = some t ∧ t.AtWork i after rotateCounter next := by
  obtain ⟨u, hstep, hu⟩ := h.perform hperform
  obtain ⟨call, hcall, -⟩ := Option.map_eq_some_iff.mp hu.phase
  have hput := phase?_put hcall (.rotating next) i
  rw [if_pos rfl] at hput
  refine ⟨{ u.put i (.rotating next) with rotateCounter := next.counter u.rotateCounter },
    ?_, hu.disk, ?_, hput⟩
  · have hcallback : u.step cfg (.callback i now []) =
        some { u.put i (.rotating next) with rotateCounter := next.counter u.rotateCounter } := by
      simp only [step, callback, hu.phase, callbackRotation, hu.counter, hresume]
    rw [turn, Transition.System.exec_cons hstep, Transition.System.exec_singleton]
    exact hcallback
  · rw [hu.counter, hcounter]

/-- A turn after which the rotation is over. -/
theorem AtWork.turn_settles (cfg : Config) (now : Nat) (after : Disk) (performed : Rotation)
    (h : s.AtWork i disk rotateCounter rotation)
    (hperform : ∀ line, disk.perform cfg i line none (.rotating rotation) =
      some (after, .rotating performed))
    (hresume : performed.resume cfg now rotateCounter = some (.settles true)) :
    ∃ t, (system cfg).exec s (turn i now) = some t ∧ t.rotateCounter = rotateCounter ∧
      t.disk = if cfg.inWorker ∧ performed = .renamed true then after.cleanupOldBackups cfg []
        else after := by
  obtain ⟨u, hstep, hu⟩ := h.perform hperform
  rw [turn, Transition.System.exec_cons hstep, Transition.System.exec_singleton]
  by_cases hworker : cfg.inWorker ∧ performed = .renamed true
  · refine ⟨{ u.settle cfg i true with
      disk := u.disk.cleanupOldBackups cfg [], faulted := u.faulted || ([] : List Text) ≠ [] },
      ?_, hu.counter, ?_⟩
    · change u.callback cfg i now [] = _
      simp only [callback, hu.phase, callbackRotation, hu.counter, hresume, if_pos hworker]
    · rw [if_pos hworker, hu.disk]
  · refine ⟨u.settle cfg i true, ?_, hu.counter, ?_⟩
    · change u.callback cfg i now [] = _
      simp only [callback, hu.phase, callbackRotation, hu.counter, hresume, if_neg hworker]
    · rw [if_neg hworker]
      exact hu.disk

/-- The loop that deletes the expired backups. -/
theorem AtWork.unlinks (cfg : Config) (now : Nat) {name : Text} {rest : List Text}
    (h : s.AtWork i disk rotateCounter (.unlink name rest)) :
    ∃ t, (system cfg).exec s ((name :: rest).flatMap fun _ => turn i now) = some t ∧
      t.rotateCounter = rotateCounter ∧ t.disk = (name :: rest).foldl Disk.unlink disk := by
  induction rest generalizing s disk name with
  | nil =>
      obtain ⟨t, hrun, hcounter, hdisk⟩ := h.turn_settles cfg now (disk.unlink name)
        (.unlinked []) (fun _ => rfl) rfl
      refine ⟨t, by simpa using hrun, hcounter, ?_⟩
      rw [hdisk, if_neg (fun hall => by cases hall.2)]
      rfl
  | cons other rest ih =>
      obtain ⟨u, hrun, hu⟩ := h.turn_waits cfg now (disk.unlink name) (.unlinked (other :: rest))
        (.unlink other rest) (fun _ => rfl) rfl rfl
      obtain ⟨t, hrest, hcounter, hdisk⟩ := ih hu
      refine ⟨t, ?_, hcounter, hdisk⟩
      rw [List.flatMap_cons, Transition.System.exec_append hrun]
      exact hrest

/-- A call whose rotation is about to rename leaves the disk that `rotate` describes, once its
callbacks have run without another call in between. -/
theorem AtWork.rotates {stamp : Stamp}
    (h : s.AtWork i disk rotateCounter (.rename stamp.now stamp.seq))
    (hrotate : disk.rotate cfg stamp = some after) :
    ∃ run t, (system cfg).exec s run = some t ∧ t.rotateCounter = rotateCounter ∧
      t.disk = after := by
  unfold Disk.rotate at hrotate
  split at hrotate
  · cases hrotate
  · next directory hrename =>
      obtain rfl := Option.some.inj hrotate
      let renamed : Disk := { disk with directory }
      have hperform : ∀ line, disk.perform cfg i line none
          (.rotating (.rename stamp.now stamp.seq)) =
            some (renamed, .rotating (.renamed true)) := by
        intro line
        simp only [Disk.perform, hrename]
        rfl
      cases hworker : cfg.inWorker with
      | true =>
          obtain ⟨t, hrun, hcounter, hdisk⟩ := h.turn_settles cfg stamp.now renamed _ hperform
            (by simp only [Rotation.resume, hworker, if_true])
          exact ⟨_, t, hrun, hcounter, by rw [hdisk, if_pos ⟨hworker, rfl⟩]⟩
      | false =>
          obtain ⟨u, hfirst, hu⟩ := h.turn_waits cfg stamp.now renamed _ .readdir hperform
            (by simp only [Rotation.resume, hworker, Bool.false_eq_true, if_false]) rfl
          have hlist : ∀ line, renamed.perform cfg i line none (.rotating .readdir) =
              some (renamed, .rotating (.listed (some (renamed.directory.names.map (·.1))))) :=
            fun _ => rfl
          have hall : ∀ names : List Text,
              names.filter (fun name => name ∉ ([] : List Text)) = names := by
            intro names
            simp
          cases hexpired : cfg.expiredBackups (renamed.directory.names.map (·.1)) with
          | nil =>
              obtain ⟨t, hrun, hcounter, hdisk⟩ := hu.turn_settles cfg stamp.now renamed _ hlist
                (by rw [Rotation.resume, hexpired]; rfl)
              refine ⟨_, t, (Transition.System.exec_append hfirst).trans hrun, hcounter, ?_⟩
              rw [hdisk, if_neg (fun hall => by cases hall.2), Disk.cleanupOldBackups, hexpired]
              rfl
          | cons name rest =>
              obtain ⟨v, hsecond, hv⟩ := hu.turn_waits cfg stamp.now renamed _
                (.unlink name rest) hlist (by rw [Rotation.resume, hexpired]; rfl) rfl
              obtain ⟨t, hrun, hcounter, hdisk⟩ := hv.unlinks cfg stamp.now
              refine ⟨_, t, ((Transition.System.exec_append hfirst).trans
                ((Transition.System.exec_append hsecond).trans hrun)), hcounter, ?_⟩
              rw [hdisk, Disk.cleanupOldBackups, hexpired, hall]

end State

end ErrorCore.FileTransport
