import ErrorCore.Transport.DeadLetterStore.Backups
import ErrorCore.Transport.FileTransport.Backups
import ErrorCore.Transport.LocalEventStore.Backups

/-!
# Which backups are kept

The three components keep their newest backups in the runs whose rotations are
orderly, and in no others. Ten rotations within one millisecond are not: the
name of the tenth comes before that of the ninth.
-/

namespace ErrorCore.Backups

open Transition (System)

/-- Runs of the file transport keep the newest backups exactly when each rotation is orderly. -/
theorem fileTransport_keeps_iff {cfg : FileTransport.Config} (hmax : 0 ≤ cfg.maxBackups)
    {s : FileTransport.Rotating} (hs : (FileTransport.Rotating.system cfg).init s)
    (run : List FileTransport.RotatingAction) :
    (FileTransport.Rotating.system cfg).Always
        (fun s => Retained cfg.base cfg.maxBackups.toNat (s.view cfg)) s run ↔
      (FileTransport.Rotating.system cfg).Guarded
        (fun s a => Orderly cfg.maxBackups.toNat s.rotated (s.rotation? cfg a)) s run := by
  apply always_retained_iff NameLe (fun _ _ => nameLe_name_iff) _ _ hs
  · rintro s ⟨hnames, -, hrotated⟩
    refine ⟨List.filter_eq_nil_iff.mpr ?_, hrotated⟩
    intro pair hpair
    rw [hnames pair hpair]
    exact Bool.false_ne_true
  · exact fun s a t h hstep => FileTransport.Rotating.step_moves hmax h hstep

theorem deadLetterStore_keeps_iff {opts : DeadLetterStore.DeadLetterStoreOptions} {base : Text}
    {s : DeadLetterStore.Rotating} (hs : (DeadLetterStore.Rotating.system opts base).init s)
    (run : List DeadLetterStore.RotatingAction) :
    (DeadLetterStore.Rotating.system opts base).Always
        (fun s => Retained base opts.maxBackups.toNat s.view) s run ↔
      (DeadLetterStore.Rotating.system opts base).Guarded
        (fun s a => Orderly opts.maxBackups.toNat s.rotated (s.rotation? opts a)) s run := by
  apply always_retained_iff NameLe (fun _ _ => nameLe_name_iff) _ _ hs
  · rintro s ⟨hbackups, -, hrotated⟩
    exact ⟨hbackups, hrotated⟩
  · exact fun s a t h hstep => DeadLetterStore.Rotating.step_moves h hstep

theorem localEventStore_keeps_iff {numbers : Json.NumberFormat} {opts : LocalEventStoreOptions}
    (hmax : 0 ≤ opts.maxBackups) {s : LocalEventStore.Rotating}
    (hs : (LocalEventStore.Rotating.system numbers opts).init s)
    (run : List LocalEventStore.RotatingAction) :
    (LocalEventStore.Rotating.system numbers opts).Always
        (fun s => Retained opts.base opts.maxBackups.toNat s.view) s run ↔
      (LocalEventStore.Rotating.system numbers opts).Guarded
        (fun s a => Orderly opts.maxBackups.toNat s.rotated (s.rotation? opts a)) s run := by
  apply always_retained_iff LocalEventStore.NameLe
    (fun _ _ => LocalEventStore.nameLe_name_iff) _ _ hs
  · rintro s ⟨hbackups, -, hrotated⟩
    exact ⟨hbackups, hrotated⟩
  · exact fun s a t h hstep => LocalEventStore.Rotating.step_moves hmax h hstep

/-- In any run of the three, the newest backups are kept after every step if and only if the
backup that has to go is in each step the one with the first name. -/
theorem newest_backups_kept_iff (base : Text) :
    (∀ (cfg : FileTransport.Config) (s : FileTransport.Rotating)
        (run : List FileTransport.RotatingAction),
      0 ≤ cfg.maxBackups → (FileTransport.Rotating.system cfg).init s →
      ((FileTransport.Rotating.system cfg).Always
          (fun s => Retained cfg.base cfg.maxBackups.toNat (s.view cfg)) s run ↔
        (FileTransport.Rotating.system cfg).Guarded
          (fun s a => Orderly cfg.maxBackups.toNat s.rotated (s.rotation? cfg a)) s run)) ∧
    (∀ (opts : DeadLetterStore.DeadLetterStoreOptions) (s : DeadLetterStore.Rotating)
        (run : List DeadLetterStore.RotatingAction),
      (DeadLetterStore.Rotating.system opts base).init s →
      ((DeadLetterStore.Rotating.system opts base).Always
          (fun s => Retained base opts.maxBackups.toNat s.view) s run ↔
        (DeadLetterStore.Rotating.system opts base).Guarded
          (fun s a => Orderly opts.maxBackups.toNat s.rotated (s.rotation? opts a)) s run)) ∧
    (∀ (numbers : Json.NumberFormat) (opts : LocalEventStoreOptions)
        (s : LocalEventStore.Rotating) (run : List LocalEventStore.RotatingAction),
      0 ≤ opts.maxBackups → (LocalEventStore.Rotating.system numbers opts).init s →
      ((LocalEventStore.Rotating.system numbers opts).Always
          (fun s => Retained opts.base opts.maxBackups.toNat s.view) s run ↔
        (LocalEventStore.Rotating.system numbers opts).Guarded
          (fun s a => Orderly opts.maxBackups.toNat s.rotated (s.rotation? opts a)) s run)) :=
  ⟨fun _ _ run hmax hs => fileTransport_keeps_iff hmax hs run,
    fun _ _ run hs => deadLetterStore_keeps_iff hs run,
    fun _ _ _ run hmax hs => localEventStore_keeps_iff hmax hs run⟩

/-! ## Rotations within one millisecond -/

/-- A file transport that rotates before every second line and keeps one backup. -/
def oneBackup : FileTransport.Config where
  base := "errors.log"
  hasDirectory := false
  maxSizeBytes := 0
  maxBackups := 1
  inWorker := false

def emptyDisk : FileTransport.Rotating where
  disk := { directory := { names := [], files := [] }, cleaned := [] }
  rotateCounter := 0
  rotated := []

theorem emptyDisk_init : (FileTransport.Rotating.system oneBackup).init emptyDisk := by
  refine ⟨?_, rfl, rfl⟩
  intro pair hpair
  cases hpair

/-- So many lines with a rotation after each, all at one time. -/
def burst (count : Nat) : List FileTransport.RotatingAction :=
  (List.range count).flatMap fun i => [.append i [49], .rotateOnce 1700000000000]

theorem newest_backups_kept_nine : (FileTransport.Rotating.system oneBackup).Always
    (fun s => Retained oneBackup.base oneBackup.maxBackups.toNat (s.view oneBackup)) emptyDisk
      (burst 9) := by
  apply ((newest_backups_kept_iff ("errors.log" : Text)).1 oneBackup emptyDisk (burst 9)
    (by decide) emptyDisk_init).mpr
  decide +kernel

/-- The tenth rotation of the burst is deleted by its own cleanup. -/
theorem newest_backup_deleted : ¬ (FileTransport.Rotating.system oneBackup).Always
    (fun s => Retained oneBackup.base oneBackup.maxBackups.toNat (s.view oneBackup)) emptyDisk
      (burst 10) := by
  intro h
  have hrun : ((FileTransport.Rotating.system oneBackup).exec emptyDisk (burst 10)).map (fun t =>
      (t.rotated.getLast?, (t.view oneBackup).onDisk)) =
      some (some (⟨1700000000000, 10⟩, 9),
        [("errors.log.1700000000000-9.bak".toList, 8)]) := by
    decide +kernel
  obtain ⟨t, hexec, ht⟩ := Option.map_eq_some_iff.mp hrun
  obtain ⟨hlast, hdisk⟩ := Prod.mk.inj ht
  have hnewest := (h.final hexec).newest (by decide) _ hlast
  rw [hdisk] at hnewest
  revert hnewest
  decide +kernel

end ErrorCore.Backups
