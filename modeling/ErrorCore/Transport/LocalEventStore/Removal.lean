import ErrorCore.Transport.LocalEventStore

/-!
# Removals that are cut off

`remove` opens the file for writing, which empties it, and only then writes the
lines back that stay. A failure before the file is open changes nothing, and one
after the write has nothing left to change. A failure in between leaves a part
of the new content, and what that part does not hold is gone.
-/

namespace ErrorCore.LocalEventStore

variable (numbers : Json.NumberFormat)

/-- `readAll` still returns every record that was not to be removed. -/
def KeepsOthers (files : StoreFiles) (ids : List Text) (outcome : WriteOutcome) : Prop :=
  ∀ record ∈ readAll numbers files, record.id ∉ ids →
    record ∈ readAll numbers (remove numbers files ids outcome)

/-- The characters before a line that follows the others. -/
def lineStart (before : List Text) : Nat := (before.flatMap (· ++ ['\n'])).length

/-- What `written` characters hold of one of the lines is read as the record. -/
def Reaches (written : Nat) (lines : List Text) (record : LocalEventStoreRecord) : Prop :=
  ∃ before line after, lines = before ++ line :: after ∧
    record ∈ recordsOf numbers [line.take (written - lineStart before)]

variable {numbers} {files : StoreFiles} {ids : List Text} {content : Text}
variable {lines : List Text} {record : LocalEventStoreRecord} {written : Nat}

@[simp] theorem lineStart_nil : lineStart [] = 0 := rfl

@[simp] theorem lineStart_cons (line : Text) (before : List Text) :
    lineStart (line :: before) = line.length + 1 + lineStart before := by
  simp only [lineStart, List.flatMap_cons, List.length_append, List.length_singleton]

theorem join_newline (lines : List Text) (h : lines ≠ []) :
    Text.join ['\n'] lines ++ ['\n'] = lines.flatMap (· ++ ['\n']) := by
  induction lines with
  | nil => exact absurd rfl h
  | cons line lines ih =>
      cases lines with
      | nil =>
          rw [List.flatMap_cons, List.flatMap_nil, List.append_nil, Text.join,
            List.intercalate_singleton]
      | cons next lines =>
          have hrest := ih (List.cons_ne_nil next lines)
          rw [List.flatMap_cons, ← hrest, Text.join, Text.join, List.intercalate_cons_cons,
            List.append_assoc, List.append_assoc]

theorem rewritten_eq (ids : List Text) (content : Text) :
    rewritten numbers ids content = (keptLines numbers ids content).flatMap (· ++ ['\n']) := by
  by_cases h : keptLines numbers ids content = []
  · rw [rewritten, if_pos h, h, List.flatMap_nil]
  · rw [rewritten, if_neg h, join_newline _ h]

theorem reaches_nil : ¬ Reaches numbers written [] record := by
  rintro ⟨before, line, after, hlines, -⟩
  exact absurd hlines.symm (List.append_ne_nil_of_right_ne_nil before (List.cons_ne_nil line after))

/-- The record is on the first line, or on one of the others if the write comes that far. -/
theorem reaches_cons {line : Text} :
    Reaches numbers written (line :: lines) record ↔
      record ∈ recordsOf numbers [line.take written] ∨
        Reaches numbers (written - (line.length + 1)) lines record := by
  constructor
  · rintro ⟨before, other, after, hlines, hrecord⟩
    cases before with
    | nil =>
        obtain ⟨rfl, -⟩ := List.cons.inj hlines
        exact .inl hrecord
    | cons first before =>
        obtain ⟨rfl, hrest⟩ := List.cons.inj hlines
        refine .inr ⟨before, other, after, hrest, ?_⟩
        rwa [lineStart_cons, Nat.sub_add_eq] at hrecord
  · rintro (hrecord | ⟨before, other, after, hrest, hrecord⟩)
    · exact ⟨[], line, lines, rfl, hrecord⟩
    · refine ⟨line :: before, other, after, by rw [hrest, List.cons_append], ?_⟩
      rwa [lineStart_cons, Nat.sub_add_eq]

theorem not_reaches_zero : ¬ Reaches numbers 0 lines record := by
  rintro ⟨before, line, after, -, hrecord⟩
  rw [Nat.zero_sub, List.take_zero, recordsOf_empty] at hrecord
  exact absurd hrecord List.not_mem_nil

/-- A part of written lines holds the records that it reaches. -/
theorem mem_records_take (hlines : ∀ line ∈ lines, '\n' ∉ line) :
    record ∈ records numbers ((lines.flatMap (· ++ ['\n'])).take written) ↔
      Reaches numbers written lines record := by
  induction lines generalizing written with
  | nil =>
      rw [List.flatMap_nil, List.take_nil, records_nil]
      exact iff_of_false List.not_mem_nil reaches_nil
  | cons line lines ih =>
      have hline : '\n' ∉ line := hlines line List.mem_cons_self
      have hrest : record ∈ records numbers
            ((lines.flatMap (· ++ ['\n'])).take (written - (line.length + 1))) ↔
          Reaches numbers (written - (line.length + 1)) lines record :=
        ih fun other hother => hlines other (List.mem_cons_of_mem _ hother)
      rw [reaches_cons, ← hrest, List.flatMap_cons, List.append_assoc, List.singleton_append]
      by_cases hlength : written ≤ line.length
      · have hzero : written - (line.length + 1) = 0 := by omega
        have hnot : '\n' ∉ line.take written := fun hmem => hline (List.mem_of_mem_take hmem)
        rw [List.take_append_of_le_length hlength, hzero, List.take_zero, records_nil, records,
          Text.split_of_notMem hnot]
        exact (or_iff_left List.not_mem_nil).symm
      · obtain ⟨more, rfl⟩ := Nat.exists_eq_add_of_lt (Nat.lt_of_not_le hlength)
        have hmore : line.length + more + 1 - line.length = more + 1 := by omega
        have hsub : line.length + more + 1 - (line.length + 1) = more := by omega
        have hall : line.take (line.length + more + 1) = line := List.take_of_length_le (by omega)
        have hsplit (rest : Text) : Text.split '\n' (line ++ '\n' :: rest) =
            Text.split '\n' line ++ Text.split '\n' rest := List.splitOn_append_cons_self _ _
        rw [List.take_append, hall, hmore, List.take_succ_cons, hsub, records, hsplit,
          Text.split_of_notMem hline, recordsOf_append, List.mem_append]
        rfl

theorem remove_done (hids : ids ≠ []) (hfile : files.file = some content) :
    remove numbers files ids .done =
      { files with file := some (rewritten numbers ids content) } := by
  simp only [remove, if_neg hids, hfile]
  rfl

theorem remove_cut (hids : ids ≠ []) (hfile : files.file = some content) :
    remove numbers files ids (.cut written) =
      { files with file := some ((rewritten numbers ids content).take written) } := by
  simp only [remove, if_neg hids, hfile]
  rfl

theorem remove_eq_self {outcome : WriteOutcome} (h : ids = [] ∨ files.file = none ∨
    outcome = .unopened ∨ outcome = .skipped) : remove numbers files ids outcome = files := by
  unfold remove
  rcases h with rfl | hfile | rfl | rfl
  · exact if_pos rfl
  · simp only [hfile, ite_self]
  · cases files.file with
    | none => exact ite_self _
    | some content => exact ite_self _
  · cases files.file with
    | none => exact ite_self _
    | some content => exact ite_self _

/-- A rewrite that comes to an end keeps the others, and one that does not begin does too. -/
theorem keepsOthers_of_not_cut {outcome : WriteOutcome} (h : ∀ written, outcome ≠ .cut written) :
    KeepsOthers numbers files ids outcome := by
  intro record hrecord hid
  by_cases hsame : ids = [] ∨ files.file = none ∨ outcome = .unopened ∨ outcome = .skipped
  · rwa [remove_eq_self hsame]
  · simp only [not_or] at hsame
    obtain ⟨hids, hnone, hunopened, hskipped⟩ := hsame
    obtain ⟨content, hfile⟩ := Option.ne_none_iff_exists'.mp hnone
    cases outcome with
    | done =>
        rw [readAll, hfile] at hrecord
        rw [remove_done hids hfile]
        change record ∈ records numbers (rewritten numbers ids content)
        rw [records_rewritten, List.mem_filter]
        exact ⟨hrecord, decide_eq_true hid⟩
    | cut written => exact absurd rfl (h written)
    | unopened => exact absurd rfl hunopened
    | skipped => exact absurd rfl hskipped

/-- A removal keeps the records that are not to be removed exactly when its write, if it is cut
off, has come as far as a line of each of them. -/
theorem keepsOthers_iff (files : StoreFiles) (ids : List Text) (outcome : WriteOutcome) :
    KeepsOthers numbers files ids outcome ↔
      ∀ content written, ids ≠ [] → files.file = some content → outcome = .cut written →
        ∀ record ∈ records numbers content, record.id ∉ ids →
          Reaches numbers written (keptLines numbers ids content) record := by
  have hcut (content : Text) (written : Nat) (record : LocalEventStoreRecord) (hids : ids ≠ [])
      (hfile : files.file = some content) :
      record ∈ readAll numbers (remove numbers files ids (.cut written)) ↔
        Reaches numbers written (keptLines numbers ids content) record := by
    have hlines : ∀ line ∈ keptLines numbers ids content, '\n' ∉ line := fun line hline =>
      Text.notMem_of_mem_split (List.mem_filter.mp hline).1
    rw [remove_cut hids hfile, ← mem_records_take hlines, ← rewritten_eq]
    rfl
  constructor
  · rintro h content written hids hfile rfl record hrecord hid
    rw [← hcut content written record hids hfile]
    refine h record ?_ hid
    rwa [readAll, hfile]
  · intro h
    cases outcome with
    | cut written =>
        intro record hrecord hid
        by_cases hids : ids = []
        · rwa [remove_eq_self (.inl hids)]
        · cases hfile : files.file with
          | none =>
              rw [readAll, hfile] at hrecord
              exact absurd hrecord List.not_mem_nil
          | some content =>
              rw [hcut content written record hids hfile]
              rw [readAll, hfile] at hrecord
              exact h content written hids hfile rfl record hrecord hid
    | done => exact keepsOthers_of_not_cut fun _ => WriteOutcome.noConfusion
    | unopened => exact keepsOthers_of_not_cut fun _ => WriteOutcome.noConfusion
    | skipped => exact keepsOthers_of_not_cut fun _ => WriteOutcome.noConfusion

/-- A record that is still to be delivered. -/
def waitingRecord : LocalEventStoreRecord where
  id := "b"
  storedAt := "2026-01-01T00:00:00.000Z"
  payloadKind := .error
  payload := "payload"

/-- The process dies between opening the file and writing: the other record is gone. -/
theorem remove_loses_others :
    ¬ ∀ numbers files ids outcome, KeepsOthers numbers files ids outcome := by
  intro h
  have hall := h { print := id, print_nat := fun _ _ => rfl }
    { file := some (recordLine waitingRecord ++ ['\n']), backups := [] } ["a"] (.cut 0)
  have hmem : waitingRecord ∈ records { print := id, print_nat := fun _ _ => rfl }
      (recordLine waitingRecord ++ ['\n']) := by
    rw [records_line]
    exact List.mem_singleton_self waitingRecord
  rw [keepsOthers_iff] at hall
  exact not_reaches_zero (hall _ 0 (by decide) rfl rfl waitingRecord hmem (by decide))

end ErrorCore.LocalEventStore
