import ErrorCore.Pii.Scrubber.Redaction
import ErrorCore.Recording.ByteAccounting
import ErrorCore.Spool.PayloadSpool

/-!
# The budgets of the payload spool

The counters of the spool agree with its entries in every state. Its caps hold
exactly as long as every body that passes the checks with its original size
passes them with the length that is stored as well. Scrubbing can lengthen a
body, so a run of real calls can exceed the caps.
-/

namespace ErrorCore.PayloadSpool

open InsertionMap

/-- The length of an entry's blob. -/
def blobLength (pair : Text × PayloadSpoolEntry) : Nat := pair.2.bytes.length

/-- The length of an entry's blob where it belongs to the request. -/
def lengthFor (requestKey : Text) (pair : Text × PayloadSpoolEntry) : Nat :=
  if requestKeyOf pair.2.ref.requestId = requestKey then blobLength pair else 0

/-- The counters agree with the entries. -/
structure Accounted (s : PayloadSpool) : Prop where
  used : s.usedBytes = total blobLength s.entries
  request : ∀ requestKey, s.requestBytes requestKey = total (lengthFor requestKey) s.entries

/-- The counters agree with the entries, and the entries are within the caps. -/
structure Budgeted (options : PayloadSpoolOptions) (s : PayloadSpool) : Prop
    extends Accounted s where
  global : s.usedBytes ≤ options.globalMaxBytes
  perRequest : ∀ requestKey,
    total (lengthFor requestKey) s.entries ≤ options.perRequestMaxBytes
  perBlob : ∀ pair ∈ s.entries, blobLength pair ≤ options.perBlobMaxBytes

/-- A body that passes the checks with its original size passes them with its stored length. -/
def ChecksStoredLength (options : PayloadSpoolOptions) (s : PayloadSpool) : Action → Prop
  | .store sweptAt _ reading input =>
      (s.sweep options sweptAt).previewReason options reading input = none →
        (s.sweep options sweptAt).capReason options (requestKeyOf input.requestId)
          options.perRequestMaxBytes input.bytes.length input.complete = none
  | .markRequestComplete _ _ | .sweep _ => True

/-- The keys are names of distinct blobs that were given out. -/
structure Keyed (s : PayloadSpool) : Prop where
  nodup : (s.entries.map (·.1)).Nodup
  named : ∀ pair ∈ s.entries, ∃ n < s.nextBlobId, pair.1 = blobName n

variable {options : PayloadSpoolOptions} {s t : PayloadSpool} {now : Int}
variable {kept rest : List (Text × PayloadSpoolEntry)} {blobId : Text} {entry : PayloadSpoolEntry}

theorem blobName_injective {m n : Nat} (h : blobName m = blobName n) : m = n := by
  have hdigits : Nat.toDigits 10 m = Nat.toDigits 10 n := List.append_cancel_left h
  have hback : ∀ k, Nat.ofDigitChars 10 (Nat.toDigits 10 k) 0 = k :=
    fun k => Nat.ofDigitChars_toDigits (by decide) (by decide)
  rw [← hback m, ← hback n, hdigits]

theorem Keyed.fresh (h : Keyed s) : blobName s.nextBlobId ∉ s.entries.map (·.1) := by
  intro hmem
  obtain ⟨pair, hpair, heq⟩ := List.mem_map.mp hmem
  obtain ⟨n, hlt, hname⟩ := h.named pair hpair
  have := blobName_injective (hname.symm.trans heq)
  omega

/-! ## Sweeping -/

theorem deleteEntry_entries (hentries : s.entries = kept ++ (blobId, entry) :: rest)
    (hnodup : (s.entries.map (·.1)).Nodup) :
    (s.deleteEntry blobId entry).entries = kept ++ rest := by
  rw [hentries] at hnodup
  show delete s.entries blobId = kept ++ rest
  rw [hentries]
  exact delete_append_cons hnodup

theorem Accounted.deleteEntry (h : Accounted s)
    (hentries : s.entries = kept ++ (blobId, entry) :: rest)
    (hnodup : (s.entries.map (·.1)).Nodup) : Accounted (s.deleteEntry blobId entry) := by
  refine ⟨?_, fun requestKey => ?_⟩
  · have hused := h.used
    rw [deleteEntry_entries hentries hnodup]
    rw [hentries] at hused
    show s.usedBytes - entry.bytes.length = _
    simp only [total_append, total_cons, blobLength] at hused ⊢
    omega
  · have hrequest := h.request requestKey
    rw [deleteEntry_entries hentries hnodup]
    rw [hentries] at hrequest
    simp only [total_append, total_cons] at hrequest ⊢
    by_cases hkey : requestKeyOf entry.ref.requestId = requestKey
    · subst hkey
      simp only [lengthFor, blobLength, if_true] at hrequest
      simp only [PayloadSpool.deleteEntry, Function.update_self, hrequest, lengthFor, blobLength]
      omega
    · have hne : requestKey ≠ requestKeyOf entry.ref.requestId := fun heq => hkey heq.symm
      simp only [lengthFor, hkey, if_false] at hrequest
      simp only [PayloadSpool.deleteEntry, Function.update_of_ne hne, hrequest, lengthFor]
      omega

/-- What a loop of `sweep` keeps of the entries still to come. -/
def survivors (options : PayloadSpoolOptions) (now : Int)
    (entries : List (Text × PayloadSpoolEntry)) : List (Text × PayloadSpoolEntry) :=
  entries.filter fun pair => !expired options now pair.2

/-- The loop deletes what is expired and keeps the accounts. -/
theorem sweepEntries_spec (hentries : s.entries = kept ++ rest)
    (hnodup : (s.entries.map (·.1)).Nodup) :
    (sweepEntries options now rest s).entries = kept ++ survivors options now rest ∧
      (sweepEntries options now rest s).nextBlobId = s.nextBlobId ∧
      (Accounted s → Accounted (sweepEntries options now rest s)) := by
  induction rest generalizing s kept with
  | nil => exact ⟨hentries, rfl, id⟩
  | cons pair rest ih =>
      obtain ⟨blobId, entry⟩ := pair
      rw [sweepEntries]
      cases hexpired : expired options now entry with
      | true =>
          have hdeleted := deleteEntry_entries hentries hnodup
          have hdistinct : ((s.deleteEntry blobId entry).entries.map (·.1)).Nodup := by
            rw [hdeleted]
            rw [hentries] at hnodup
            exact hnodup.sublist ((List.Sublist.append_left (List.sublist_cons_self _ _) _).map _)
          obtain ⟨hkept, hnext, haccounted⟩ := ih hdeleted hdistinct
          simp only [if_true]
          refine ⟨?_, hnext, fun h => haccounted (h.deleteEntry hentries hnodup)⟩
          rw [hkept]
          simp [survivors, hexpired]
      | false =>
          have hsplit : s.entries = (kept ++ [(blobId, entry)]) ++ rest := by
            rw [hentries, List.append_assoc]
            rfl
          obtain ⟨hkept, hnext, haccounted⟩ := ih hsplit hnodup
          simp only [Bool.false_eq_true, if_false]
          refine ⟨?_, hnext, haccounted⟩
          rw [hkept]
          simp [survivors, hexpired]

theorem sweep_entries (h : Keyed s) :
    (s.sweep options now).entries = survivors options now s.entries :=
  (sweepEntries_spec (List.nil_append _).symm h.nodup).1

theorem sweep_nextBlobId (h : Keyed s) : (s.sweep options now).nextBlobId = s.nextBlobId :=
  (sweepEntries_spec (List.nil_append _).symm h.nodup).2.1

theorem Accounted.sweep (h : Accounted s) (hkeyed : Keyed s) :
    Accounted (s.sweep options now) :=
  (sweepEntries_spec (List.nil_append _).symm hkeyed.nodup).2.2 h

theorem Keyed.sweep (h : Keyed s) : Keyed (s.sweep options now) := by
  refine ⟨?_, ?_⟩
  · rw [sweep_entries h]
    exact h.nodup.sublist (List.filter_sublist.map _)
  · intro pair hmem
    rw [sweep_entries h] at hmem
    rw [sweep_nextBlobId h]
    exact h.named pair (List.mem_filter.mp hmem).1

theorem Budgeted.sweep (h : Budgeted options s) (hkeyed : Keyed s) :
    Budgeted options (s.sweep options now) := by
  have haccounted : Accounted (s.sweep options now) := h.toAccounted.sweep hkeyed
  have hentries : (s.sweep options now).entries = survivors options now s.entries :=
    sweep_entries hkeyed
  refine ⟨haccounted, ?_, fun requestKey => ?_, fun pair hmem => ?_⟩
  · have hle : total blobLength (survivors options now s.entries) ≤ total blobLength s.entries :=
      total_filter_le _
    have hused := h.used
    have hglobal := h.global
    rw [haccounted.used, hentries]
    omega
  · rw [hentries]
    exact (total_filter_le _).trans (h.perRequest requestKey)
  · rw [hentries] at hmem
    exact h.perBlob pair (List.mem_filter.mp hmem).1

/-! ## Completion -/

section Completion

variable {requestId : Text}

@[simp] theorem completedEntry_ref :
    (completedEntry requestId now entry).ref = entry.ref := by
  unfold completedEntry
  split <;> rfl

@[simp] theorem completedEntry_bytes :
    (completedEntry requestId now entry).bytes = entry.bytes := by
  unfold completedEntry
  split <;> rfl

theorem Keyed.markRequestComplete (h : Keyed s) : Keyed (s.markRequestComplete requestId now) := by
  refine ⟨?_, ?_⟩
  · simpa [PayloadSpool.markRequestComplete, Function.comp_def] using h.nodup
  · intro pair hmem
    obtain ⟨before, hbefore, rfl⟩ := List.mem_map.mp hmem
    exact h.named before hbefore

theorem Accounted.markRequestComplete (h : Accounted s) :
    Accounted (s.markRequestComplete requestId now) := by
  refine ⟨?_, fun requestKey => ?_⟩
  · show s.usedBytes = total blobLength (s.entries.map _)
    rw [total_map fun pair _ => by simp [blobLength]]
    exact h.used
  · show s.requestBytes requestKey = total (lengthFor requestKey) (s.entries.map _)
    rw [total_map fun pair _ => by simp [lengthFor, blobLength]]
    exact h.request requestKey

theorem Budgeted.markRequestComplete (h : Budgeted options s) :
    Budgeted options (s.markRequestComplete requestId now) := by
  refine ⟨h.toAccounted.markRequestComplete, h.global, fun requestKey => ?_, ?_⟩
  · show total (lengthFor requestKey) (s.entries.map _) ≤ _
    rw [total_map fun pair _ => by simp [lengthFor, blobLength]]
    exact h.perRequest requestKey
  · intro pair hmem
    obtain ⟨before, hbefore, rfl⟩ := List.mem_map.mp hmem
    simpa [blobLength] using h.perBlob before hbefore

end Completion

/-! ## Storing -/

section Storing

variable {createdAtMs : Int} {reading : PressureReading} {input : PayloadSpoolStoreInput}

/-- The entry that a body kept whole gets. -/
def entryFor (s : PayloadSpool) (options : PayloadSpoolOptions) (createdAtMs : Int)
    (input : PayloadSpoolStoreInput) : PayloadSpoolEntry where
  ref :=
    buildRef input (blobName s.nextBlobId) .spool (input.bytes.take options.previewBytes).length
      none
  bytes := input.bytes
  createdAtMs := createdAtMs
  completedAtMs := none
  state := .active

/-- A preview changes no entry and no count of bytes. -/
theorem storeSwept_preview {reason : PayloadPreviewReason}
    (h : s.previewReason options reading input = some reason) :
    (s.storeSwept options createdAtMs reading input).spool =
      { s with
        nextBlobId := s.nextBlobId + 1
        previewOnlyCount := s.previewOnlyCount + 1 } := by
  simp only [storeSwept, h]

/-- A body that is kept whole goes to the end under a new name and onto both counters. -/
theorem storeSwept_kept (hkeyed : Keyed s)
    (h : s.previewReason options reading input = none) :
    (s.storeSwept options createdAtMs reading input).spool =
      { s with
        entries := s.entries ++ [(blobName s.nextBlobId, s.entryFor options createdAtMs input)]
        requestBytes :=
          Function.update s.requestBytes (requestKeyOf input.requestId)
            (s.requestBytes (requestKeyOf input.requestId) + input.bytes.length)
        usedBytes := s.usedBytes + input.bytes.length
        nextBlobId := s.nextBlobId + 1 } := by
  simp only [storeSwept, h, keep, set_of_notMem hkeyed.fresh]
  rfl

theorem Keyed.storeSwept (h : Keyed s) :
    Keyed (s.storeSwept options createdAtMs reading input).spool := by
  cases hreason : s.previewReason options reading input with
  | some reason =>
      rw [storeSwept_preview hreason]
      refine ⟨h.nodup, fun pair hmem => ?_⟩
      obtain ⟨n, hlt, hname⟩ := h.named pair hmem
      exact ⟨n, Nat.lt_succ_of_lt hlt, hname⟩
  | none =>
      rw [storeSwept_kept h hreason]
      refine ⟨?_, fun pair hmem => ?_⟩
      · show (List.map (·.1) (s.entries ++ [_])).Nodup
        rw [List.map_append, List.nodup_append]
        refine ⟨h.nodup, List.nodup_singleton _, ?_⟩
        rintro name hname _ hnew rfl
        have heq : name = blobName s.nextBlobId := List.mem_singleton.mp hnew
        rw [heq] at hname
        exact h.fresh hname
      · rcases List.mem_append.mp hmem with hold | hnew
        · obtain ⟨n, hlt, hname⟩ := h.named pair hold
          exact ⟨n, Nat.lt_succ_of_lt hlt, hname⟩
        · obtain rfl := List.mem_singleton.mp hnew
          exact ⟨s.nextBlobId, Nat.lt_succ_self _, rfl⟩

theorem total_kept (measure : Text × PayloadSpoolEntry → Nat) (name : Text) :
    total measure (s.entries ++ [(name, entry)]) =
      total measure s.entries + measure (name, entry) := by
  rw [total_append, total_cons, total_nil, Nat.add_zero]

theorem Accounted.storeSwept (h : Accounted s) (hkeyed : Keyed s) :
    Accounted (s.storeSwept options createdAtMs reading input).spool := by
  cases hreason : s.previewReason options reading input with
  | some reason =>
      rw [storeSwept_preview hreason]
      exact ⟨h.used, h.request⟩
  | none =>
      rw [storeSwept_kept hkeyed hreason]
      refine ⟨?_, fun requestKey => ?_⟩
      · have hused := h.used
        show s.usedBytes + input.bytes.length = total blobLength (s.entries ++ [_])
        rw [total_kept]
        simp only [blobLength, entryFor]
        omega
      · have hrequest := h.request requestKey
        show Function.update s.requestBytes _ _ requestKey =
          total (lengthFor requestKey) (s.entries ++ [_])
        rw [total_kept]
        by_cases hkey : requestKeyOf input.requestId = requestKey
        · subst hkey
          rw [Function.update_self, hrequest]
          simp [lengthFor, blobLength, entryFor, buildRef]
        · rw [Function.update_of_ne fun heq => hkey heq.symm, hrequest]
          simp [lengthFor, entryFor, buildRef, hkey]

/-- The checks on the stored length are what the caps ask of the new entry. -/
theorem capReason_eq_none_iff {requestKey : Text} {cap size : Nat} {complete : Bool} :
    s.capReason options requestKey cap size complete = none ↔
      size ≤ options.perBlobMaxBytes ∧ complete = true ∧
        s.requestBytes requestKey + size ≤ cap ∧ s.usedBytes + size ≤ options.globalMaxBytes := by
  simp only [capReason]
  split
  · simp
    omega
  · split
    · simp [*]
    · split
      · simp
        omega
      · split
        · simp
          omega
        · simp [*]
          omega

theorem complete_of_previewReason (h : s.previewReason options reading input = none) :
    input.complete = true := by
  unfold previewReason at h
  simp only at h
  split at h
  · contradiction
  · exact (capReason_eq_none_iff.mp h).2.1

theorem Budgeted.storeSwept (h : Budgeted options s) (hkeyed : Keyed s)
    (hchecks : s.previewReason options reading input = none →
      s.capReason options (requestKeyOf input.requestId) options.perRequestMaxBytes
        input.bytes.length input.complete = none) :
    Budgeted options (s.storeSwept options createdAtMs reading input).spool := by
  have haccounted : Accounted (s.storeSwept options createdAtMs reading input).spool :=
    h.toAccounted.storeSwept hkeyed
  cases hreason : s.previewReason options reading input with
  | some reason =>
      rw [storeSwept_preview hreason] at haccounted ⊢
      exact ⟨haccounted, h.global, h.perRequest, h.perBlob⟩
  | none =>
      obtain ⟨hblob, -, hrequest, hglobal⟩ := capReason_eq_none_iff.mp (hchecks hreason)
      rw [storeSwept_kept hkeyed hreason] at haccounted ⊢
      refine ⟨haccounted, hglobal, fun requestKey => ?_, fun pair hmem => ?_⟩
      · rw [← haccounted.request requestKey]
        show Function.update s.requestBytes _ _ requestKey ≤ _
        by_cases hkey : requestKey = requestKeyOf input.requestId
        · rw [hkey, Function.update_self]
          exact hrequest
        · rw [Function.update_of_ne hkey, h.request requestKey]
          exact h.perRequest requestKey
      · rcases List.mem_append.mp hmem with hold | hnew
        · exact h.perBlob pair hold
        · obtain rfl := List.mem_singleton.mp hnew
          exact hblob

/-- When the spool is within its caps after a body was kept, the checks hold of its length. -/
theorem checks_of_budgeted (hkeyed : Keyed s)
    (h : Budgeted options (s.storeSwept options createdAtMs reading input).spool)
    (hreason : s.previewReason options reading input = none) :
    s.capReason options (requestKeyOf input.requestId) options.perRequestMaxBytes
      input.bytes.length input.complete = none := by
  have hcomplete : input.complete = true := complete_of_previewReason hreason
  rw [storeSwept_kept hkeyed hreason] at h
  refine capReason_eq_none_iff.mpr ⟨?_, hcomplete, ?_, h.global⟩
  · exact h.perBlob _ (List.mem_append_right _ List.mem_cons_self)
  · have hcap := h.perRequest (requestKeyOf input.requestId)
    rw [← h.request] at hcap
    simpa using hcap

end Storing

/-! ## Runs -/

/-- The invariant of the runs that keep to the caps. -/
structure Sound (options : PayloadSpoolOptions) (s : PayloadSpool) : Prop where
  keyed : Keyed s
  budgeted : Budgeted options s

theorem new_accounted : Accounted new := ⟨rfl, fun _ => rfl⟩

theorem new_keyed : Keyed new := ⟨List.nodup_nil, nofun⟩

theorem new_sound : Sound options new where
  keyed := new_keyed
  budgeted := ⟨new_accounted, Int.natCast_nonneg _, fun _ => Nat.zero_le _, nofun⟩

theorem Keyed.step (h : Keyed s) (a : Action) : Keyed (s.step options a) := by
  cases a with
  | store sweptAt createdAtMs reading input => exact h.sweep.storeSwept
  | markRequestComplete requestId now => exact h.markRequestComplete
  | sweep now => exact h.sweep

theorem Accounted.step (h : Accounted s) (hkeyed : Keyed s) (a : Action) :
    Accounted (s.step options a) := by
  cases a with
  | store sweptAt createdAtMs reading input => exact (h.sweep hkeyed).storeSwept hkeyed.sweep
  | markRequestComplete requestId now => exact h.markRequestComplete
  | sweep now => exact h.sweep hkeyed

theorem Sound.step (h : Sound options s) {a : Action} (hchecks : ChecksStoredLength options s a) :
    Sound options (s.step options a) := by
  refine ⟨h.keyed.step a, ?_⟩
  cases a with
  | store sweptAt createdAtMs reading input =>
      exact (h.budgeted.sweep h.keyed).storeSwept h.keyed.sweep hchecks
  | markRequestComplete requestId now => exact h.budgeted.markRequestComplete
  | sweep now => exact h.budgeted.sweep h.keyed

theorem sound_preserved :
    (system options).Preserved (ChecksStoredLength options) (Sound options) where
  init s hs := by
    rw [show s = new from hs]
    exact new_sound
  step s a t h hchecks hstep := by
    cases hstep
    exact h.step hchecks

/-- The counters agree with the entries in every run, within the caps or not. -/
theorem accounted_preserved :
    (system options).Preserved (fun _ _ => True) fun s => Keyed s ∧ Accounted s where
  init s hs := by
    rw [show s = new from hs]
    exact ⟨new_keyed, new_accounted⟩
  step s a t h _ hstep := by
    cases hstep
    exact ⟨h.1.step a, h.2.step h.1 a⟩

/-- A run stays within its budgets exactly when each body that is kept for its original size also
passes the checks with the length that is stored. -/
theorem always_budgeted_iff (options : PayloadSpoolOptions) (run : List Action) :
    (system options).Always (Budgeted options) new run ↔
      (system options).Guarded (ChecksStoredLength options) new run := by
  apply Transition.System.always_iff_guarded sound_preserved
  · exact fun s h => h.budgeted
  · intro s a t hsound hstep hbudgeted
    cases hstep
    cases a with
    | store sweptAt createdAtMs reading input =>
        exact fun hreason => checks_of_budgeted hsound.keyed.sweep hbudgeted hreason
    | markRequestComplete requestId now => trivial
    | sweep now => trivial
  · exact new_sound

/-! ## A body that scrubbing lengthens -/

def reportWith (note : Text) : Json.Value :=
  .object [("password", .string "a"), ("note", .string note)]

def reportBody : Json.Value := reportWith (List.replicate 1010 'x')

def reportBytes : List UInt8 := Scrubber.asciiBytes (Json.stringify reportBody)

def jsonType : Text := "application/json"

def jsonHeaders : Headers := [("content-type", jsonType)]

/-- The functions of the scrubber, on bodies in ASCII. -/
def scrubbingDeps : BodyCaptureDeps where
  scrubBodyBuffer bytes headers :=
    Scrubber.plainScrubber.scrubBodyBuffer bytes (contentTypeOf headers)
  scrubKeyValueAssignments := Scrubber.plainScrubber.scrubKeyValueAssignments
  toString := Scrubber.plainScrubber.decode
  ofString := Scrubber.plainScrubber.encode
  sha256 _ := []

/-- The report after it was captured in one chunk. -/
def reportState : AccumulatorState :=
  { AccumulatorState.released with
    chunks := [reportBytes]
    totalBytesSeen := reportBytes.length
    capturedBytes := reportBytes.length }

/-- What `materializeBody` stores of the report. -/
def reportInput : PayloadSpoolStoreInput :=
  CaptureState.storeInput scrubbingDeps
    { CaptureState.ambientEvent with seq := 1, estimatedBytes := 0 } reportState
    (some jsonHeaders)

theorem parseJson_reportBody :
    Scrubber.plainScrubber.parseJson (Scrubber.plainScrubber.decode .utf8 reportBytes) =
      some reportBody := by
  have hdecode : Scrubber.plainScrubber.decode .utf8 reportBytes = Json.stringify reportBody := by
    decide +kernel
  have hcanonical : ∀ note,
      Json.Canonical Scrubber.plainScrubber.formatNumber (reportWith note) := by
    simp [reportWith, Json.Canonical, Json.CanonicalFields]
  rw [hdecode, Scrubber.parseJson, reportBody, Json.parse_stringify (hcanonical _)]
  rfl

theorem scrubbedBody_json {state : AccumulatorState} {headers : Option Headers}
    (hcontent : contentTypeOf headers = some jsonType) :
    CaptureState.scrubbedBody scrubbingDeps state headers =
      Scrubber.plainScrubber.scrubBodyBuffer state.chunks.flatten (some jsonType) := by
  have hplain : isPlainTextContentType (some jsonType) = false := by decide +kernel
  simp only [CaptureState.scrubbedBody, scrubPlainTextKeyValues, hcontent, hplain,
    Bool.false_eq_true, if_false, scrubbingDeps]

theorem reportInput_length :
    reportInput.originalSize = 1036 ∧ reportInput.bytes.length = 1045 := by
  refine ⟨by decide +kernel, ?_⟩
  have hbody : reportInput.bytes =
      Scrubber.plainScrubber.scrubBodyBuffer reportBytes (some jsonType) := by
    have hchunks : reportState.chunks.flatten = reportBytes := by
      simp only [reportState, List.flatten_cons, List.flatten_nil, List.append_nil]
    rw [reportInput, CaptureState.storeInput, scrubbedBody_json (by decide +kernel), hchunks]
  rw [hbody, Scrubber.scrubBodyBuffer_json (by decide +kernel) (by decide +kernel)
    parseJson_reportBody]
  decide +kernel

/-- Room for bodies of 1040 bytes, below the megabytes of the other caps. -/
def reportOptions : PayloadSpoolOptions where
  globalMaxBytes := 64 * 1024 * 1024
  perRequestMaxBytes := 2 * 1024 * 1024
  perBlobMaxBytes := 1040
  previewBytes := 8 * 1024
  completedTtlMs := 60000

/-- The report has a size within the cap for a blob and is stored with a length beyond it. -/
theorem reportRun_not_budgeted :
    ¬ ∀ options run, (system options).Always (Budgeted options) new run := by
  intro claim
  have always := claim reportOptions [.store 0 0 ⟨1, 2, 0⟩ reportInput]
  obtain ⟨hsize, hlength⟩ := reportInput_length
  have hbudgeted : Budgeted reportOptions
      (new.storeSwept reportOptions 0 ⟨1, 2, 0⟩ reportInput).spool :=
    always.2
  have hreason : new.previewReason reportOptions ⟨1, 2, 0⟩ reportInput = none := by
    simp only [previewReason, hsize]
    decide +kernel
  have hchecks := checks_of_budgeted new_keyed hbudgeted hreason
  have hcapped := (capReason_eq_none_iff.mp hchecks).1
  rw [hlength] at hcapped
  exact absurd hcapped (by decide)

end ErrorCore.PayloadSpool
