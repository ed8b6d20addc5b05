import ErrorCore.Foundation.Lines
import ErrorCore.Transport.DeadLetterStore.Lines

/-!
# Appending and draining

An append that comes to its write adds one line at the end of the file. Text
that has no newline yet is continued by it, so that the line on its own is in
the file only behind a newline. What a drain lists is read line by line.
-/

namespace ErrorCore.DeadLetterStore

/-! ## What a drain lists -/

section Entries

variable {rt : Runtime} {opts : DeadLetterStoreOptions} {store : Store}

theorem le_lineNumber_of_mem_drainEntries {n : Nat} {lines : List Text} :
    ∀ e ∈ drainEntries rt opts store n lines, n ≤ e.lineNumber := by
  induction lines generalizing n with
  | nil => simp [drainEntries]
  | cons line lines ih =>
      intro e he
      rw [drainEntries] at he
      split at he
      · have := ih e he
        omega
      · split at he
        · have := ih e he
          omega
        · rcases List.mem_cons.mp he with rfl | he
          · exact Nat.le_refl _
          · have := ih e he
            omega

theorem pairwise_drainEntries (n : Nat) (lines : List Text) :
    (drainEntries rt opts store n lines).Pairwise (·.lineNumber < ·.lineNumber) := by
  induction lines generalizing n with
  | nil => exact .nil
  | cons line lines ih =>
      rw [drainEntries]
      split
      · exact ih _
      · split
        · exact ih _
        · exact .cons (fun e he => le_lineNumber_of_mem_drainEntries e he) (ih _)

theorem mem_drainEntries (store : Store) (n : Nat) {i : Nat} {lines : List Text}
    {line id payload : Text} (hline : lines[i]? = some line)
    (hparse : parsePayload rt opts line = some (id, payload)) :
    id ∈ store.ackedPayloadIds ∨
      { lineNumber := n + i, id, payload } ∈ drainEntries rt opts store n lines := by
  induction lines generalizing n i with
  | nil => simp at hline
  | cons first lines ih =>
      rw [drainEntries]
      cases i with
      | zero =>
          obtain rfl : first = line := by simpa using hline
          simp only [hparse]
          split
          case isTrue acked => exact .inl acked
          case isFalse => exact .inr List.mem_cons_self
      | succ i =>
          rw [List.getElem?_cons_succ] at hline
          rw [show n + (i + 1) = n + 1 + i by omega]
          rcases ih (n + 1) hline with acked | listed
          · exact .inl acked
          · refine .inr ?_
            split
            · exact listed
            · split
              · exact listed
              · exact List.mem_cons_of_mem _ listed

/-- What is listed, without the line numbers. -/
theorem drainEntries_payloads (n : Nat) (lines : List Text) :
    (drainEntries rt opts store n lines).map (fun e => (e.id, e.payload)) =
      (lines.filterMap (parsePayload rt opts)).filter fun found =>
        decide (found.1 ∉ store.ackedPayloadIds) := by
  induction lines generalizing n with
  | nil => rfl
  | cons line lines ih =>
      rw [drainEntries, List.filterMap_cons]
      split
      · next hread =>
        rw [hread]
        exact ih (n + 1)
      · next id payload hread =>
        rw [hread, List.filter_cons]
        by_cases hacked : id ∈ store.ackedPayloadIds
        · rw [if_pos hacked, if_neg (by simp [hacked])]
          exact ih (n + 1)
        · rw [if_neg hacked, if_pos (by simp [hacked]), List.map_cons, ih (n + 1)]

theorem drainEntries_append (n : Nat) (lines more : List Text) :
    drainEntries rt opts store n (lines ++ more) =
      drainEntries rt opts store n lines ++
        drainEntries rt opts store (n + lines.length) more := by
  induction lines generalizing n with
  | nil => rfl
  | cons line lines ih =>
      have hindex : n + (line :: lines).length = n + 1 + lines.length := by
        rw [List.length_cons]
        omega
      rw [hindex, List.cons_append, drainEntries, drainEntries]
      split
      · exact ih (n + 1)
      · split
        · exact ih (n + 1)
        · rw [ih (n + 1), List.cons_append]

/-- An entry that is listed was read from the line of its number. -/
theorem exists_line_of_mem_drainEntries {n : Nat} {lines : List Text} :
    ∀ e ∈ drainEntries rt opts store n lines, ∃ i line, lines[i]? = some line ∧
      e.lineNumber = n + i ∧ parsePayload rt opts line = some (e.id, e.payload) ∧
      e.id ∉ store.ackedPayloadIds := by
  induction lines generalizing n with
  | nil => simp [drainEntries]
  | cons first lines ih =>
      have hrest : ∀ e ∈ drainEntries rt opts store (n + 1) lines, ∃ i line,
          (first :: lines)[i]? = some line ∧ e.lineNumber = n + i ∧
            parsePayload rt opts line = some (e.id, e.payload) ∧ e.id ∉ store.ackedPayloadIds := by
        intro e he
        obtain ⟨i, line, hline, hnumber, hread⟩ := ih e he
        refine ⟨i + 1, line, hline, ?_, hread⟩
        omega
      intro e he
      rw [drainEntries] at he
      split at he
      · exact hrest e he
      · next id payload hparse =>
        split at he
        · exact hrest e he
        · next hnew =>
          rcases List.mem_cons.mp he with rfl | he
          · exact ⟨0, first, rfl, rfl, hparse, hnew⟩
          · exact hrest e he

end Entries

/-! ## The lines of a file that grows -/

section Content

variable {content line : Text} {lines : List Text}

/-- The lines that a newline ends. -/
def closedLines (content : Text) : List Text :=
  (Text.closedParts '\n' content).filter (· ≠ [])

theorem splitLines_eq (content : Text) :
    splitLines content =
      closedLines content ++ [Text.openPart '\n' content].filter (· ≠ []) := by
  rw [splitLines, Text.split_eq, List.filter_append]
  rfl

theorem splitLines_append (hne : line ≠ []) (hnewline : '\n' ∉ line) :
    splitLines (content ++ (line ++ ['\n'])) =
      closedLines content ++ [Text.openPart '\n' content ++ line] := by
  have hopen : '\n' ∉ Text.openPart '\n' content ++ line := by
    rw [List.mem_append, not_or]
    exact ⟨Text.notMem_openPart '\n' content, hnewline⟩
  have hlast : Text.split '\n' (Text.openPart '\n' content ++ (line ++ ['\n'])) =
      [Text.openPart '\n' content ++ line, []] := by
    rw [← List.append_assoc, Text.split, List.splitOn_append_cons_self_of_not_mem hopen]
    rfl
  rw [splitLines, Text.split_append, hlast, List.filter_append]
  simp [closedLines, hne]

theorem notMem_of_mem_splitLines (h : line ∈ splitLines content) : '\n' ∉ line :=
  Text.notMem_of_mem_split (List.mem_filter.mp h).1

theorem ne_nil_of_mem_splitLines (h : line ∈ splitLines content) : line ≠ [] := by
  simpa using (List.mem_filter.mp h).2

/-- Lines that are written back are read again. -/
theorem splitLines_joinLines (hne : lines ≠ [])
    (hlines : ∀ line ∈ lines, line ≠ [] ∧ '\n' ∉ line) : splitLines (joinLines lines) = lines := by
  rw [splitLines, joinLines, Text.split_join_append hne fun line hline => (hlines line hline).2,
    List.filter_append]
  have hkept : lines.filter (· ≠ []) = lines := by
    rw [List.filter_eq_self]
    intro line hline
    exact decide_eq_true (hlines line hline).1
  rw [hkept]
  simp

end Content

/-! ## Appends -/

theorem ensurePendingCountInitialized_acked (rt : Runtime) (opts : DeadLetterStoreOptions)
    (file : StoreFile) (store : Store) :
    (ensurePendingCountInitialized rt opts file store).ackedPayloadIds =
      store.ackedPayloadIds := by
  rw [ensurePendingCountInitialized]
  split
  · rfl
  · rfl

theorem rotateIfNeededSync_acked {opts : DeadLetterStoreOptions} {file file' : StoreFile}
    {store store' : Store} (h : rotateIfNeededSync opts file store = some (file', store')) :
    store'.ackedPayloadIds = store.ackedPayloadIds := by
  rw [rotateIfNeededSync] at h
  split at h
  · split at h
    · exact nomatch h
    · obtain ⟨_, rfl⟩ := Prod.mk.inj (Option.some.inj h)
      rfl
  · obtain ⟨_, rfl⟩ := Prod.mk.inj (Option.some.inj h)
    rfl

theorem appendEnvelopeSync_acked (opts : DeadLetterStoreOptions) (file : StoreFile)
    (store : Store) (envelope : UnsignedEnvelope) :
    (appendEnvelopeSync opts file store envelope).2.2.ackedPayloadIds =
      store.ackedPayloadIds := by
  rw [appendEnvelopeSync]
  split
  · rfl
  · exact rotateIfNeededSync_acked ‹_›

theorem appendPayloadSync_acked (rt : Runtime) (opts : DeadLetterStoreOptions) (file : StoreFile)
    (store : Store) (storedAt payload : Text) :
    (appendPayloadSync rt opts file store storedAt payload).2.2.ackedPayloadIds =
      store.ackedPayloadIds := by
  have initialized := ensurePendingCountInitialized_acked rt opts file store
  have appended := appendEnvelopeSync_acked opts file
    (ensurePendingCountInitialized rt opts file store) (payloadEnvelope rt storedAt payload)
  rw [appendPayloadSync]
  split
  · rfl
  · simp only
    split
    · exact initialized
    · split
      all_goals
        rename_i heq
        rw [heq] at appended
        exact appended.trans initialized

/-- A call of `appendPayloadSync` or of `appendFailureMarkerSync`. -/
inductive Entry
  | ofPayload (storedAt payload : Text)
  | ofMarker (storedAt code : Text)
  deriving DecidableEq, Repr

namespace Entry

section Calls

variable (rt : Runtime) (opts : DeadLetterStoreOptions) (a : Entry)
variable (file : StoreFile) (store : Store)

def apply : Bool × StoreFile × Store :=
  match a with
  | .ofPayload storedAt payload => appendPayloadSync rt opts file store storedAt payload
  | .ofMarker storedAt code => appendFailureMarkerSync opts file store storedAt code

def storedAt : Text :=
  match a with
  | .ofPayload storedAt _ | .ofMarker storedAt _ => storedAt

def envelope : UnsignedEnvelope :=
  match a with
  | .ofPayload storedAt payload => payloadEnvelope rt storedAt payload
  | .ofMarker storedAt code => { storedAt, content := .marker code }

/-- The line that is written. -/
def line : Text := signedLine opts (a.envelope rt)

/-- The payload was delivered before, which counts as stored. -/
def wasAcked : Bool :=
  match a with
  | .ofPayload _ payload =>
      Text.byteLength payload ≤ opts.maxPayloadBytes &&
        decide (computePayloadId rt payload ∈ store.ackedPayloadIds)
  | .ofMarker _ _ => false

def isOversized : Bool :=
  match a with
  | .ofPayload _ payload => opts.maxPayloadBytes < Text.byteLength payload
  | .ofMarker _ _ => false

/-- The call comes to its write. A full file without backups refuses the entry. -/
def writes : Bool :=
  !a.isOversized opts && !a.wasAcked rt opts store &&
    !(exceedsMaxSize opts file && opts.maxBackups ≤ 0)

end Calls

end Entry

section Spec

variable {rt : Runtime} {opts : DeadLetterStoreOptions} {a : Entry}
variable {file : StoreFile} {store : Store}

/-- The file is renamed away before the next entry. -/
def rotates (opts : DeadLetterStoreOptions) (file : StoreFile) : Bool :=
  exceedsMaxSize opts file && 0 < opts.maxBackups

/-- The text that the next entry is written behind. -/
def contentBefore (opts : DeadLetterStoreOptions) (file : StoreFile) : Text :=
  if rotates opts file then [] else file.getD []

theorem appendEnvelopeSync_of_refused {envelope : UnsignedEnvelope}
    (h : (exceedsMaxSize opts file && decide (opts.maxBackups ≤ 0)) = true) :
    appendEnvelopeSync opts file store envelope = (false, file, store) := by
  obtain ⟨hsize, hbackups⟩ := Bool.and_eq_true_iff.mp h
  rw [appendEnvelopeSync, rotateIfNeededSync, if_pos hsize, if_pos (of_decide_eq_true hbackups)]

theorem rotateIfNeededSync_eq
    (h : (exceedsMaxSize opts file && decide (opts.maxBackups ≤ 0)) = false) :
    rotateIfNeededSync opts file store =
      some (if rotates opts file then (none, { store with pendingPayloadCount := some 0 })
        else (file, store)) := by
  rw [rotateIfNeededSync, rotates]
  cases hsize : exceedsMaxSize opts file with
  | false => rfl
  | true =>
      rw [hsize, Bool.true_and, decide_eq_false_iff_not] at h
      have hbackups : decide (0 < opts.maxBackups) = true := decide_eq_true (Int.not_le.mp h)
      rw [if_pos rfl, if_neg h, Bool.true_and, if_pos hbackups]

theorem rotateIfNeededSync_of_taken
    (h : (exceedsMaxSize opts file && decide (opts.maxBackups ≤ 0)) = false) :
    ∃ file' store', rotateIfNeededSync opts file store = some (file', store') ∧
      file'.getD [] = contentBefore opts file ∧
      store'.ackedPayloadIds = store.ackedPayloadIds := by
  rw [rotateIfNeededSync_eq h, contentBefore]
  cases rotates opts file with
  | false => exact ⟨file, store, rfl, rfl, rfl⟩
  | true => exact ⟨none, _, rfl, rfl, rfl⟩

theorem appendEnvelopeSync_of_taken {envelope : UnsignedEnvelope}
    (h : (exceedsMaxSize opts file && decide (opts.maxBackups ≤ 0)) = false) :
    ∃ store', appendEnvelopeSync opts file store envelope =
        (true, some (contentBefore opts file ++ (signedLine opts envelope ++ ['\n'])), store') ∧
      store'.ackedPayloadIds = store.ackedPayloadIds := by
  obtain ⟨file', store', hrotated, hbefore, hsame⟩ := rotateIfNeededSync_of_taken h
  rw [appendEnvelopeSync, hrotated, ← hbefore]
  exact ⟨store', rfl, hsame⟩

namespace Entry

theorem line_ne_nil : a.line rt opts ≠ [] := stringify_ne_nil _

theorem newline_not_mem_line : '\n' ∉ a.line rt opts := newline_not_mem_stringify _

/-- A call that comes to its write adds its line and reports it. -/
theorem apply_of_writes (h : a.writes rt opts file store = true) :
    ∃ store', a.apply rt opts file store =
        (true, some (contentBefore opts file ++ (a.line rt opts ++ ['\n'])), store') ∧
      store'.ackedPayloadIds = store.ackedPayloadIds := by
  rw [writes, Bool.and_eq_true, Bool.and_eq_true, Bool.not_eq_true', Bool.not_eq_true',
    Bool.not_eq_true'] at h
  obtain ⟨⟨hsize, hacked⟩, htaken⟩ := h
  cases a with
  | ofPayload storedAt payload =>
      have hfits : ¬ opts.maxPayloadBytes < Text.byteLength payload := of_decide_eq_false hsize
      have hinitialized := ensurePendingCountInitialized_acked rt opts file store
      have hnew : computePayloadId rt payload ∉ store.ackedPayloadIds := by
        rw [wasAcked, decide_eq_true (Nat.not_lt.mp hfits), Bool.true_and] at hacked
        exact of_decide_eq_false hacked
      obtain ⟨store', happend, hsame⟩ : ∃ store', appendEnvelopeSync opts file
          (ensurePendingCountInitialized rt opts file store) (payloadEnvelope rt storedAt payload) =
            (true, some (contentBefore opts file ++
              (signedLine opts (payloadEnvelope rt storedAt payload) ++ ['\n'])), store') ∧
            store'.ackedPayloadIds =
              (ensurePendingCountInitialized rt opts file store).ackedPayloadIds :=
        appendEnvelopeSync_of_taken htaken
      rw [apply, appendPayloadSync, if_neg hfits]
      simp only [hinitialized, if_neg hnew, happend]
      exact ⟨_, rfl, hsame.trans hinitialized⟩
  | ofMarker storedAt code => exact appendEnvelopeSync_of_taken htaken

/-- A call that does not leaves the file, and reports success for what was delivered before. -/
theorem apply_of_not_writes (h : a.writes rt opts file store = false) :
    ∃ store', a.apply rt opts file store = (a.wasAcked rt opts store, file, store') ∧
      store'.ackedPayloadIds = store.ackedPayloadIds := by
  cases a with
  | ofPayload storedAt payload =>
      have hinitialized := ensurePendingCountInitialized_acked rt opts file store
      by_cases hsize : opts.maxPayloadBytes < Text.byteLength payload
      · have hacked : (ofPayload storedAt payload).wasAcked rt opts store = false := by
          rw [wasAcked, decide_eq_false (Nat.not_le.mpr hsize), Bool.false_and]
        rw [apply, appendPayloadSync, if_pos hsize, hacked]
        exact ⟨_, rfl, rfl⟩
      · rw [apply, appendPayloadSync, if_neg hsize]
        by_cases hnew : computePayloadId rt payload ∈ store.ackedPayloadIds
        · have hacked : (ofPayload storedAt payload).wasAcked rt opts store = true := by
            rw [wasAcked, decide_eq_true (Nat.not_lt.mp hsize), Bool.true_and]
            exact decide_eq_true hnew
          simp only [hinitialized, if_pos hnew, hacked]
          exact ⟨_, rfl, hinitialized⟩
        · have hacked : (ofPayload storedAt payload).wasAcked rt opts store = false := by
            rw [wasAcked, decide_eq_false hnew, Bool.and_false]
          have hrefused : (exceedsMaxSize opts file && decide (opts.maxBackups ≤ 0)) = true := by
            rw [writes, hacked, isOversized, decide_eq_false hsize] at h
            simpa using h
          simp only [hinitialized, if_neg hnew, appendEnvelopeSync_of_refused hrefused, hacked]
          exact ⟨_, rfl, hinitialized⟩
  | ofMarker storedAt code =>
      have hrefused : (exceedsMaxSize opts file && decide (opts.maxBackups ≤ 0)) = true := by
        rw [writes, wasAcked, isOversized] at h
        simpa using h
      rw [apply, appendFailureMarkerSync, appendEnvelopeSync_of_refused hrefused]
      exact ⟨_, rfl, rfl⟩

end Entry

end Spec

end ErrorCore.DeadLetterStore
