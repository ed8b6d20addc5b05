import ErrorCore.Transport.Backups
import ErrorCore.Transport.LocalEventStore

/-!
# The backups of the local event store

An append renames a full file away before it writes. Nothing else changes the
backups.
-/

namespace ErrorCore.LocalEventStore

open Backups (Stamp)

/-- A store over its files, with the rotations so far. -/
structure Rotating where
  files : StoreFiles
  rotateCounter : Nat
  rotated : List (Stamp × Text)
  deriving DecidableEq, Repr

inductive RotatingAction
  | append (call : AppendCall)
  | remove (ids : List Text) (outcome : WriteOutcome)

namespace Rotating

variable (numbers : Json.NumberFormat) (opts : LocalEventStoreOptions) (s : Rotating)

/-- What an append renames away. -/
def rotation? : RotatingAction → Option (Stamp × Text)
  | .append call =>
      if call.outcome ≠ .skipped ∧ isFull opts s.files = true ∧ call.renames = true then
        some (⟨call.now, s.rotateCounter + 1⟩, s.files.file.getD [])
      else none
  | .remove _ _ => none

def afterAppend (call : AppendCall) : Rotating :=
  let (_, files, rotateCounter) := LocalEventStore.append opts s.files s.rotateCounter call
  { files, rotateCounter, rotated := s.rotated ++ (s.rotation? opts (.append call)).toList }

def step : RotatingAction → Option Rotating
  | .append call => some (s.afterAppend opts call)
  | .remove ids outcome =>
      some { s with files := LocalEventStore.remove numbers s.files ids outcome }

/-- A store without backups over a file of any content. -/
def system : Transition.System Rotating RotatingAction where
  init s := s.files.backups = [] ∧ s.rotateCounter = 0 ∧ s.rotated = []
  step := step numbers opts

def view : Backups.Rotations Text where
  onDisk := s.files.backups
  rotateCounter := s.rotateCounter
  rotated := s.rotated

end Rotating

variable {numbers : Json.NumberFormat} {opts : LocalEventStoreOptions}

/-! ## The order of the backups -/

theorem before_iff {a b : Text} :
    before a b = true ↔ a.map Char.toNat < b.map Char.toNat := by
  induction a generalizing b with
  | nil =>
      cases b with
      | nil => simp [before]
      | cons d b => simp [before]
  | cons c a ih =>
      cases b with
      | nil => simp [before]
      | cons d b =>
          rw [List.map_cons, List.map_cons, List.cons_lt_cons_iff, ← ih, before]
          simp only [Bool.or_eq_true, Bool.and_eq_true, decide_eq_true_eq, Char.toNat_inj]

/-- `a` comes no later than `b` in the sorted names. -/
def NameLe (a b : Text) : Prop := before b a = false

theorem nameLe_iff {a b : Text} : NameLe a b ↔ a.map Char.toNat ≤ b.map Char.toNat := by
  rw [NameLe, Bool.eq_false_iff, ne_eq, before_iff, not_lt]

theorem nameLe_name_iff {base : Text} {a b : Stamp} :
    NameLe (Backups.name base a) (Backups.name base b) ↔ a.sortKey ≤ b.sortKey := by
  have hcodes (stamp : Stamp) : (Backups.name base stamp).map Char.toNat =
      (base.map Char.toNat ++ ['.'.toNat]) ++ stamp.sortKey := by
    rw [Backups.name, List.map_append, List.append_assoc, stamp.sortKey_eq]
    rfl
  rw [nameLe_iff, hcodes, hcodes, ← not_lt, ← not_lt, Backups.append_lt_append_iff]

theorem insertBackup_perm (backup : Text × Text) (backups : List (Text × Text)) :
    (insertBackup backup backups).Perm (backup :: backups) := by
  induction backups with
  | nil => exact List.Perm.refl _
  | cons other rest ih =>
      unfold insertBackup
      split
      · exact (ih.cons other).trans (List.Perm.swap backup other rest)
      · exact List.Perm.refl _

theorem insertBackup_pairwise {backup : Text × Text} {backups : List (Text × Text)}
    (h : backups.Pairwise fun a b => NameLe b.1 a.1) :
    (insertBackup backup backups).Pairwise fun a b => NameLe b.1 a.1 := by
  induction backups with
  | nil => exact List.pairwise_singleton _ _
  | cons other rest ih =>
      obtain ⟨hother, hrest⟩ := List.pairwise_cons.mp h
      unfold insertBackup
      split
      · next hbefore =>
          refine List.pairwise_cons.mpr ⟨?_, ih hrest⟩
          intro later hlater
          rcases List.mem_cons.mp ((insertBackup_perm backup rest).subset hlater) with rfl | hold
          · exact nameLe_iff.mpr (le_of_lt (before_iff.mp hbefore))
          · exact hother later hold
      · next hnot =>
          have hle : NameLe other.1 backup.1 := Bool.eq_false_of_not_eq_true hnot
          refine List.pairwise_cons.mpr ⟨?_, h⟩
          intro later hlater
          rcases List.mem_cons.mp hlater with rfl | hold
          · exact hle
          · exact nameLe_iff.mpr
              (le_trans (nameLe_iff.mp (hother later hold)) (nameLe_iff.mp hle))

theorem newestFirst_perm (backups : List (Text × Text)) : (newestFirst backups).Perm backups := by
  induction backups with
  | nil => exact List.Perm.refl _
  | cons backup rest ih => exact (insertBackup_perm backup _).trans (ih.cons backup)

theorem newestFirst_pairwise (backups : List (Text × Text)) :
    (newestFirst backups).Pairwise fun a b => NameLe b.1 a.1 := by
  induction backups with
  | nil => exact List.Pairwise.nil
  | cons backup rest ih => exact insertBackup_pairwise ih

theorem cleanupOldBackupsSync_keeps (hmax : 0 ≤ opts.maxBackups) (backups : List (Text × Text)) :
    Retention.KeepsGreatest (fun a b : Text × Text => NameLe a.1 b.1) opts.maxBackups.toNat backups
      (cleanupOldBackupsSync opts backups) := by
  refine ⟨newestFirst backups, newestFirst_perm backups, newestFirst_pairwise backups, ?_⟩
  rw [cleanupOldBackupsSync, if_neg (not_lt.mpr hmax)]

/-! ## Steps -/

namespace Rotating

variable {s t : Rotating} {a : RotatingAction}

/-- `rotateIfNeededSync` in an append. -/
def rotateIfNeeded (opts : LocalEventStoreOptions) (s : Rotating) (call : AppendCall) :
    StoreFiles × Nat :=
  LocalEventStore.rotateIfNeededSync opts s.files s.rotateCounter call.now call.renames

theorem rotateIfNeeded_moves {call : AppendCall} (hmax : 0 ≤ opts.maxBackups)
    (h : Backups.Consistent opts.base opts.maxBackups.toNat s.view)
    (hoccurs : call.outcome ≠ .skipped) :
    Backups.Moves opts.base NameLe opts.maxBackups.toNat (s.rotation? opts (.append call)) s.view
      { onDisk := (s.rotateIfNeeded opts call).1.backups
        rotateCounter := (s.rotateIfNeeded opts call).2
        rotated := s.rotated ++ (s.rotation? opts (.append call)).toList } := by
  unfold rotateIfNeeded
  by_cases hfull : isFull opts s.files = true
  · by_cases hrenames : call.renames = true
    · have hrotation : s.rotation? opts (.append call) =
          some (⟨call.now, s.rotateCounter + 1⟩, s.files.file.getD []) :=
        if_pos ⟨hoccurs, hfull, hrenames⟩
      have hnew : rotatedName opts call.now (s.rotateCounter + 1) ∉
          s.files.backups.map (·.1) :=
        h.name_notMem ⟨call.now, s.rotateCounter + 1⟩ (Nat.lt_succ_self _)
      rw [hrotation, rotateIfNeededSync, if_pos hfull, if_pos hrenames,
        InsertionMap.set_of_notMem hnew]
      exact .rotates s.view call.now _ (cleanupOldBackupsSync_keeps hmax _)
    · have hrotation : s.rotation? opts (.append call) = none :=
        if_neg fun hall => hrenames hall.2.2
      rw [hrotation, rotateIfNeededSync, if_pos hfull, if_neg hrenames, Option.toList_none,
        List.append_nil]
      exact .stays s.view (Nat.le_succ _)
  · have hrotation : s.rotation? opts (.append call) = none :=
      if_neg fun hall => hfull hall.2.1
    rw [hrotation, rotateIfNeededSync, if_neg hfull, Option.toList_none, List.append_nil]
    exact .stays s.view (Nat.le_refl _)

theorem appendFileSyncDurable_backups (outcome : WriteOutcome) (line : Text) (files : StoreFiles) :
    (appendFileSyncDurable outcome line files).backups = files.backups := by
  unfold appendFileSyncDurable
  split <;> rfl

theorem remove_backups (files : StoreFiles) (ids : List Text) (outcome : WriteOutcome) :
    (LocalEventStore.remove numbers files ids outcome).backups = files.backups := by
  unfold LocalEventStore.remove
  split
  · rfl
  · split <;> rfl

theorem view_append_of_skipped {call : AppendCall} (h : call.outcome = .skipped) :
    (s.afterAppend opts call).view = s.view := by
  have happend : LocalEventStore.append opts s.files s.rotateCounter call =
      (false, s.files, s.rotateCounter) := if_pos h
  have hnone : s.rotation? opts (.append call) = none := if_neg fun hall => hall.1 h
  unfold view afterAppend
  rw [happend, hnone, Option.toList_none, List.append_nil]

theorem view_append {call : AppendCall} (h : call.outcome ≠ .skipped) :
    (s.afterAppend opts call).view =
      { onDisk := (s.rotateIfNeeded opts call).1.backups
        rotateCounter := (s.rotateIfNeeded opts call).2
        rotated := s.rotated ++ (s.rotation? opts (.append call)).toList } := by
  have happend : LocalEventStore.append opts s.files s.rotateCounter call =
      (decide (call.outcome = .done),
        appendFileSyncDurable call.outcome call.line (s.rotateIfNeeded opts call).1,
        (s.rotateIfNeeded opts call).2) := if_neg h
  unfold view afterAppend
  rw [happend]
  simp only [appendFileSyncDurable_backups]

/-- What a step does to the backups. -/
theorem step_moves (hmax : 0 ≤ opts.maxBackups)
    (h : Backups.Consistent opts.base opts.maxBackups.toNat s.view)
    (hstep : s.step numbers opts a = some t) :
    Backups.Moves opts.base NameLe opts.maxBackups.toNat (s.rotation? opts a) s.view t.view := by
  cases a with
  | append call =>
      obtain rfl := Option.some.inj hstep
      by_cases hskipped : call.outcome = .skipped
      · have hnone : s.rotation? opts (.append call) = none :=
          if_neg fun hall => hall.1 hskipped
        rw [hnone, view_append_of_skipped hskipped]
        exact .stays s.view (Nat.le_refl _)
      · rw [view_append hskipped]
        exact rotateIfNeeded_moves hmax h hskipped
  | remove ids outcome =>
      obtain rfl := Option.some.inj hstep
      simp only [view, remove_backups]
      exact .stays s.view (Nat.le_refl _)

end Rotating

end ErrorCore.LocalEventStore
