import ErrorCore.Foundation.InsertionMap
import ErrorCore.Transport.Backups
import ErrorCore.Transport.DeadLetterStore

/-!
# The backups of the dead-letter store

Every entry, a payload or a marker, is written by `appendEnvelopeSync`, which
renames a full file away before it writes. A store that is to have no backups
refuses the entry instead. Nothing else changes the backups.
-/

namespace ErrorCore.DeadLetterStore

open Backups (NameLe Stamp)

/-- A store over its file and the backups beside it, with the rotations so far. -/
structure Rotating where
  file : StoreFile
  store : Store
  backups : List (Text × Text)
  rotateCounter : Nat
  rotated : List (Stamp × Text)
  deriving DecidableEq, Repr

inductive RotatingAction
  /-- `appendEnvelopeSync` at a time. -/
  | appendEnvelope (envelope : UnsignedEnvelope) (now : Nat)
  /-- What the other methods do to the file and the store, whatever it is. -/
  | rewrite (file : StoreFile) (store : Store)

def cleanupOldBackupsSync (opts : DeadLetterStoreOptions) (backups : List (Text × Text)) :
    List (Text × Text) :=
  if opts.maxBackups < 0 then backups
  else
    backups.filter fun backup =>
      backup.1 ∉ (Backups.newestFirst (backups.map (·.1))).drop opts.maxBackups.toNat

namespace Rotating

variable (opts : DeadLetterStoreOptions) (base : Text) (s : Rotating)

/-- What an entry makes the store rename away. -/
def rotation? : RotatingAction → Option (Stamp × Text)
  | .appendEnvelope _ now =>
      if exceedsMaxSize opts s.file = true ∧ 0 < opts.maxBackups then
        some (⟨now, s.rotateCounter + 1⟩, s.file.getD [])
      else none
  | .rewrite _ _ => none

/-- The store, its backups included, after a rotation. -/
def rotate : Option (Stamp × Text) → Rotating
  | none => s
  | some (stamp, content) =>
      { s with
        backups := cleanupOldBackupsSync opts
          (InsertionMap.set s.backups (Backups.name base stamp) content)
        rotateCounter := stamp.seq
        rotated := s.rotated ++ [(stamp, content)] }

def step : RotatingAction → Option Rotating
  | .appendEnvelope envelope now =>
      let (_, file, store) := DeadLetterStore.appendEnvelopeSync opts s.file s.store envelope
      some { s.rotate opts base (s.rotation? opts (.appendEnvelope envelope now)) with file, store }
  | .rewrite file store => some { s with file, store }

/-- A store without backups over a file of any content. -/
def system : Transition.System Rotating RotatingAction where
  init s := s.backups = [] ∧ s.rotateCounter = 0 ∧ s.rotated = []
  step := step opts base

def view : Backups.Rotations Text where
  onDisk := s.backups
  rotateCounter := s.rotateCounter
  rotated := s.rotated

end Rotating

/-! ## Steps -/

variable {opts : DeadLetterStoreOptions} {base : Text}

theorem cleanupOldBackupsSync_keeps (hmax : 0 ≤ opts.maxBackups) {backups : List (Text × Text)}
    (hnodup : (backups.map (·.1)).Nodup) :
    Retention.KeepsGreatest (fun a b : Text × Text => NameLe a.1 b.1) opts.maxBackups.toNat backups
      (cleanupOldBackupsSync opts backups) := by
  rw [cleanupOldBackupsSync, if_neg (not_lt.mpr hmax)]
  exact Backups.keepsGreatest_of_delete hnodup

namespace Rotating

variable {s t : Rotating} {a : RotatingAction}

theorem rotate_moves (h : Backups.Consistent base opts.maxBackups.toNat s.view) :
    Backups.Moves base NameLe opts.maxBackups.toNat (s.rotation? opts a) s.view
      (s.rotate opts base (s.rotation? opts a)).view := by
  cases a with
  | appendEnvelope envelope now =>
      by_cases hrotates : exceedsMaxSize opts s.file = true ∧ 0 < opts.maxBackups
      · have hrotation : s.rotation? opts (.appendEnvelope envelope now) =
            some (⟨now, s.rotateCounter + 1⟩, s.file.getD []) := if_pos hrotates
        have hnew : Backups.name base ⟨now, s.rotateCounter + 1⟩ ∉ s.backups.map (·.1) :=
          h.name_notMem ⟨now, s.rotateCounter + 1⟩ (Nat.lt_succ_self _)
        rw [hrotation, rotate, InsertionMap.set_of_notMem hnew]
        apply Backups.Moves.rotates s.view now _
        apply cleanupOldBackupsSync_keeps (le_of_lt hrotates.2)
        rw [List.map_append]
        exact List.Nodup.append h.names_nodup (List.nodup_singleton _)
          (List.disjoint_singleton.mpr hnew)
      · have hrotation : s.rotation? opts (.appendEnvelope envelope now) = none :=
          if_neg hrotates
        rw [hrotation]
        exact .stays s.view (Nat.le_refl _)
  | rewrite file store => exact .stays s.view (Nat.le_refl _)

/-- What a step does to the backups. -/
theorem step_moves (h : Backups.Consistent base opts.maxBackups.toNat s.view)
    (hstep : s.step opts base a = some t) :
    Backups.Moves base NameLe opts.maxBackups.toNat (s.rotation? opts a) s.view t.view := by
  cases a with
  | appendEnvelope envelope now =>
      obtain rfl := Option.some.inj hstep
      exact rotate_moves h
  | rewrite file store =>
      obtain rfl := Option.some.inj hstep
      exact .stays s.view (Nat.le_refl _)

end Rotating

end ErrorCore.DeadLetterStore
