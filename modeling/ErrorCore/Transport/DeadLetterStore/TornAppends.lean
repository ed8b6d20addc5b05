import ErrorCore.Transport.DeadLetterStore.Agreement

/-!
# Appends that are torn

A write that fails, or that the process dies in, leaves a part of its line. The
next entry is written behind that part, with no newline between them, and is
reported as stored. What stands behind a newline stays as it was.
-/

namespace ErrorCore.DeadLetterStore.Session

/-- How the write of an append ends. -/
inductive Write
  | whole
  | torn (written : Nat) (crashes : Bool)
  deriving DecidableEq, Repr

section Calls

variable (rt : Runtime) (opts : DeadLetterStoreOptions) (s : Session)

/-- The store when an append comes to its write: the counter is initialized for a payload. -/
def storeBefore (entry : Entry) : Store :=
  match entry with
  | .ofPayload _ _ => ensurePendingCountInitialized rt opts s.file s.store
  | .ofMarker _ _ => s.store

/-- An append whose write is torn: it reports a failure, if it reports at all. -/
def tear (entry : Entry) (written : Nat) (crashes : Bool) : Session :=
  match rotateIfNeededSync opts s.file (s.storeBefore rt opts entry) with
  | none => s
  | some (file, store) =>
      { s with
        file := some (file.getD [] ++ (entry.line rt opts ++ ['\n']).take written)
        store := if crashes then Store.fresh else store }

def tornStep (s : Session) : Entry × Write → Option Session
  | (entry, .whole) => some (s.append rt opts entry)
  | (entry, .torn written crashes) =>
      if entry.writes rt opts s.file s.store then some (s.tear rt opts entry written crashes)
      else none

/-- Appends to a file of any content, by processes that have acknowledged nothing. -/
def tornAppends : Transition.System Session (Entry × Write) where
  init s := s.stored = [] ∧ s.store.ackedPayloadIds = []
  step := tornStep rt opts

/-- A drain lists every stored payload that its reader takes. -/
def ListsStored : Prop :=
  ∀ payload ∈ s.stored, isDrainable rt opts payload = true →
    ∃ e ∈ (drain rt opts s.file s.store true).entries, e.payload = payload

/-- The entry is not written behind a part of a line, and the file is not renamed away with what
was stored. -/
def StartsNewLine : Entry × Write → Prop
  | (entry, write) =>
      entry.writes rt opts s.file s.store = true →
        (rotates opts s.file = true → s.stored = []) ∧
          (write = .whole → entry.payloads ≠ [] →
            Text.openPart '\n' (contentBefore opts s.file) = [])

instance (call : Entry × Write) : Decidable (s.StartsNewLine rt opts call) :=
  match call with
  | (entry, write) =>
      inferInstanceAs (Decidable (entry.writes rt opts s.file s.store = true →
        (rotates opts s.file = true → s.stored = []) ∧
          (write = .whole → entry.payloads ≠ [] →
            Text.openPart '\n' (contentBefore opts s.file) = [])))

/-- Every stored payload that the reader takes has a line of its own behind which a newline
stands. -/
structure Recorded : Prop where
  acked : s.store.ackedPayloadIds = []
  lines : ∀ payload ∈ s.stored, isDrainable rt opts payload = true →
    ∃ line ∈ closedLines (s.file.getD []),
      parsePayload rt opts line = some (computePayloadId rt payload, payload)

end Calls

variable {rt : Runtime} {crt : CryptoRuntime} {opts : DeadLetterStoreOptions}
variable {primary : Bytes} {keys : List Bytes} {s t : Session} {entry : Entry}
variable {content text line : Text}

/-! ## Closed lines -/

theorem mem_closedLines_append (h : line ∈ closedLines content) :
    line ∈ closedLines (content ++ text) := by
  obtain ⟨hpart, hne⟩ := List.mem_filter.mp h
  refine List.mem_filter.mpr ⟨?_, hne⟩
  rw [Text.closedParts_append]
  exact List.mem_append_left _ hpart

theorem mem_linesOf_of_closed (h : line ∈ closedLines (s.file.getD [])) :
    line ∈ linesOf s.file := by
  cases hfile : s.file with
  | none =>
      rw [hfile] at h
      exact absurd h List.not_mem_nil
  | some content =>
      rw [hfile, Option.getD_some] at h
      rw [linesOf, splitLines_eq]
      exact List.mem_append_left _ h

/-- A line that starts a line is closed by its newline. -/
theorem mem_closedLines_line (hopen : Text.openPart '\n' content = []) :
    entry.line rt opts ∈ closedLines (content ++ (entry.line rt opts ++ ['\n'])) := by
  have hclosed : Text.openPart '\n' (content ++ (entry.line rt opts ++ ['\n'])) = [] := by
    rw [← List.append_assoc]
    exact Text.openPart_append_separator '\n' _
  have hlines := splitLines_eq (content ++ (entry.line rt opts ++ ['\n']))
  rw [hclosed, splitLines_append Entry.line_ne_nil Entry.newline_not_mem_line, hopen,
    List.nil_append] at hlines
  have hall : closedLines content ++ [entry.line rt opts] =
      closedLines (content ++ (entry.line rt opts ++ ['\n'])) := by
    simpa using hlines
  rw [← hall]
  exact List.mem_append_right _ List.mem_cons_self

theorem contentBefore_eq (hrotates : rotates opts s.file = true → s.stored = [])
    {payload : Text} (hpayload : payload ∈ s.stored) :
    contentBefore opts s.file = s.file.getD [] := by
  rw [contentBefore, if_neg]
  intro hrotated
  rw [hrotates hrotated] at hpayload
  contradiction

/-! ## Steps -/

theorem Recorded.listsStored (h : Recorded rt opts s) : s.ListsStored rt opts := by
  intro payload hpayload hdrainable
  obtain ⟨line, hline, hread⟩ := h.lines payload hpayload hdrainable
  obtain ⟨i, hi⟩ := List.mem_iff_getElem?.mp (mem_linesOf_of_closed hline)
  rcases mem_drainEntries s.store 1 hi hread with hacked | hlisted
  · rw [h.acked] at hacked
    contradiction
  · exact ⟨_, hlisted, rfl⟩

/-- What was recorded stays recorded behind any text that is written. -/
theorem Recorded.write (h : Recorded rt opts s)
    (hrotates : rotates opts s.file = true → s.stored = []) :
    ∀ payload ∈ s.stored, isDrainable rt opts payload = true →
      ∃ line ∈ closedLines (contentBefore opts s.file ++ text),
        parsePayload rt opts line = some (computePayloadId rt payload, payload) := by
  intro payload hpayload hdrainable
  obtain ⟨line, hline, hread⟩ := h.lines payload hpayload hdrainable
  rw [contentBefore_eq hrotates hpayload]
  exact ⟨line, mem_closedLines_append hline, hread⟩

theorem Recorded.append (h : Recorded rt opts s) (chain : IsChain crt opts.verifier primary keys)
    (hclock : (rt.parseDate entry.storedAt).isSome = true)
    (hstarts : s.StartsNewLine rt opts (entry, .whole)) :
    Recorded rt opts (s.append rt opts entry) := by
  cases hwrites : entry.writes rt opts s.file s.store with
  | false =>
      obtain ⟨store', happly, hacked⟩ := Entry.apply_of_not_writes hwrites
      have hnever : entry.wasAcked rt opts s.store = false := by
        cases entry with
        | ofPayload storedAt payload => simp [Entry.wasAcked, h.acked]
        | ofMarker storedAt code => rfl
      rw [append_eq happly, hnever]
      exact ⟨hacked.trans h.acked, h.lines⟩
  | true =>
      obtain ⟨store', happly, hacked⟩ := Entry.apply_of_writes hwrites
      obtain ⟨hrotates, hopen⟩ := hstarts hwrites
      rw [append_eq happly, if_pos rfl]
      refine ⟨hacked.trans h.acked, ?_⟩
      intro payload hpayload hdrainable
      rcases List.mem_append.mp hpayload with hold | hnew
      · exact h.write hrotates payload hold hdrainable
      · cases entry with
        | ofMarker storedAt code => exact absurd hnew List.not_mem_nil
        | ofPayload storedAt payload' =>
            obtain rfl := List.mem_singleton.mp hnew
            have hfits : Text.byteLength payload ≤ opts.maxPayloadBytes := by
              simp only [Entry.writes, Entry.isOversized, Bool.and_eq_true, Bool.not_eq_true',
                decide_eq_false_iff_not, Nat.not_lt] at hwrites
              exact hwrites.1.1
            have hdate : (rt.parseDate storedAt).isSome = true := hclock
            refine ⟨_, mem_closedLines_line (hopen rfl (List.cons_ne_nil _ _)), ?_⟩
            rw [parsePayload_ofPayload chain hdate, passesReader_eq hfits, if_pos hdrainable]

theorem Recorded.tear (h : Recorded rt opts s) {written : Nat} {crashes : Bool}
    (hwrites : entry.writes rt opts s.file s.store = true)
    (hrotates : rotates opts s.file = true → s.stored = []) :
    Recorded rt opts (s.tear rt opts entry written crashes) := by
  have htaken : (exceedsMaxSize opts s.file && decide (opts.maxBackups ≤ 0)) = false := by
    simp only [Entry.writes, Bool.and_eq_true, Bool.not_eq_true'] at hwrites
    exact hwrites.2
  have hinitialized : (s.storeBefore rt opts entry).ackedPayloadIds = s.store.ackedPayloadIds := by
    cases entry with
    | ofPayload storedAt payload => exact ensurePendingCountInitialized_acked rt opts _ _
    | ofMarker storedAt code => rfl
  obtain ⟨file', store', hrotated, hbefore, hsame⟩ : ∃ file' store',
      rotateIfNeededSync opts s.file (s.storeBefore rt opts entry) = some (file', store') ∧
        file'.getD [] = contentBefore opts s.file ∧
        store'.ackedPayloadIds = (s.storeBefore rt opts entry).ackedPayloadIds :=
    rotateIfNeededSync_of_taken htaken
  rw [Session.tear, hrotated]
  dsimp only
  rw [hbefore]
  refine ⟨?_, h.write hrotates⟩
  cases crashes with
  | true => rfl
  | false => exact hsame.trans (hinitialized.trans h.acked)

theorem Recorded.step (h : Recorded rt opts s) (chain : IsChain crt opts.verifier primary keys)
    {call : Entry × Write} (hclock : (rt.parseDate call.1.storedAt).isSome = true)
    (hstarts : s.StartsNewLine rt opts call) (hstep : s.tornStep rt opts call = some t) :
    Recorded rt opts t := by
  obtain ⟨entry, write⟩ := call
  cases write with
  | whole =>
      obtain rfl := Option.some.inj hstep
      exact h.append chain hclock hstarts
  | torn written crashes =>
      rw [tornStep] at hstep
      split at hstep
      · next hwrites =>
        obtain rfl := Option.some.inj hstep
        exact h.tear hwrites (hstarts hwrites).1
      · contradiction

theorem recorded_of_init (h : (tornAppends rt opts).init s) : Recorded rt opts s := by
  obtain ⟨hstored, hacked⟩ := h
  refine ⟨hacked, ?_⟩
  intro payload hpayload
  rw [hstored] at hpayload
  contradiction

theorem recorded_preserved (chain : IsChain crt opts.verifier primary keys) :
    (tornAppends rt opts).Preserved
      (fun s call => s.StartsNewLine rt opts call ∧
        (rt.parseDate call.1.storedAt).isSome = true) (Recorded rt opts) where
  init _ hs := recorded_of_init hs
  step _ _ _ h hguard hstep := h.step chain hguard.2 hguard.1 hstep

/-- After a torn payload a marker ends the line, and the payload is stored at the second attempt. -/
def containedRun : List (Entry × Write) :=
  [(.ofPayload exampleTime "p", .whole), (.ofPayload exampleTime "q", .torn 20 false),
    (.ofMarker exampleTime "EC_CAPTURE_FAILED", .whole), (.ofPayload exampleTime "q", .whole)]

/-- The disk is full after 20 characters of the first payload, and has room for the second one. -/
def tornRun : List (Entry × Write) :=
  [(.ofPayload exampleTime "p", .torn 20 false), (.ofPayload exampleTime "q", .whole)]

end ErrorCore.DeadLetterStore.Session
