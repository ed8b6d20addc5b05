import ErrorCore.Transport.WebhookTransport.QueueDiscipline

/-!
# What becomes of unacknowledged records

A record whose send resolved has up to three copies: in the queue, in the batch
in flight and in the file that a restart reads. The queue drops its oldest
record when it overflows and relies on the file; the file is renamed away when
it is full and relies on the queue; a restart relies on the file alone. Two
conditions on the steps keep a copy of every record and keep unacknowledged
records in the store.
-/

namespace ErrorCore.WebhookTransport

open LocalEventStore

/-- A step of the transport, or a new process that constructs one over the same files. -/
inductive ProcessAction
  | run (a : Action)
  | restart (readable : Bool)
  deriving DecidableEq, Repr

namespace State

section Processes

variable (numbers : Json.NumberFormat) (cfg : WebhookTransportConfig)

def processStep (s : State) : ProcessAction → Option State
  | .run a => s.step numbers cfg a
  | .restart readable =>
      some (construct numbers cfg s.files readable s.issued s.resolved s.acknowledged)

/-- Transports over one path, one after the other, from files of any content. -/
def processes : Transition.System State ProcessAction where
  init s := ∃ files readable,
    s = construct numbers cfg files readable (idsOf (LocalEventStore.readAll numbers files)) [] []
  step := processStep numbers cfg

/-! ## The property -/

/-- The ids of the records that `readAll` returns. -/
def stored (s : State) : List Text := idsOf (s.readAll numbers)

/-- Every record whose send resolved is acknowledged, queued, in flight or in the store. -/
def Covered (s : State) : Prop :=
  ∀ id ∈ s.resolved, id ∉ s.acknowledged →
    id ∈ idsOf s.queue ∨ id ∈ idsOf s.inFlight ∨ id ∈ s.stored numbers

/-- A record leaves the store acknowledged. -/
def RemovesAcknowledged (s : State) (a : ProcessAction) : Prop :=
  ∀ t, processStep numbers cfg s a = some t →
    ∀ id ∈ s.stored numbers, id ∉ t.stored numbers → id ∈ t.acknowledged

/-! ## The conditions -/

def content (s : State) : Text := s.files.file.getD []

/-- The append of the call renames the file away. -/
def rotates (s : State) (call : SendCall) : Bool := isFull cfg.store s.files && call.renames

/-- The records of the lines that the append of a call leaves as they are: the line that has no
newline yet is continued, and a file that is rotated is not read again. -/
def leftInFile (s : State) (call : SendCall) : List Text :=
  if s.rotates cfg call then []
  else idsOf (recordsOf numbers (Text.closedParts '\n' s.content))

/-- The queue without the record that an overflow drops. -/
def leftInQueue (s : State) : List Text :=
  idsOf (if cfg.maxBufferEvents ≤ s.queue.length then s.queue.drop 1 else s.queue)

/-- The records of the file when the rewrite without the batch of a loop is cut off. -/
def leftByCut (s : State) (i written : Nat) : List Text :=
  idsOf (records numbers ((rewritten numbers
    ((s.loops[i]?).elim [] fun loop => idsOf loop.batch) s.content).take written))

/-- The step leaves a copy of each unacknowledged record: an append or an overflow that takes one
copy leaves another, a restart finds all of them in the store, and a rewrite that is cut off loses
none that is not in memory. -/
def KeepsACopy (s : State) : ProcessAction → Prop
  | .run (.send call) =>
      call.outcome ≠ .skipped → ∀ id ∈ s.resolved, id ∉ s.acknowledged →
        id ∈ s.leftInQueue cfg ∨ id ∈ idsOf s.inFlight ∨ id ∈ s.leftInFile numbers cfg call
  | .run (.attempt i .acknowledged (.cut written)) =>
      cfg.retainOnAck = false → ∀ id ∈ s.resolved, id ∉ s.acknowledged →
        id ∈ idsOf s.queue ∨ id ∈ idsOf s.inFlight ∨ id ∈ s.leftByCut numbers i written
  | .restart _ => ∀ id ∈ s.resolved, id ∉ s.acknowledged → id ∈ s.stored numbers
  | _ => True

/-- The step takes no unacknowledged record out of the store: neither does its append, by a
rotation or by continuing the record's line, nor a rewrite that is cut off. -/
def KeepsUnacknowledged (s : State) : ProcessAction → Prop
  | .run (.send call) =>
      call.outcome ≠ .skipped → ∀ id ∈ s.stored numbers, id ∉ s.acknowledged →
        id ∈ s.leftInFile numbers cfg call
  | .run (.attempt i .acknowledged (.cut written)) =>
      cfg.retainOnAck = false → ∀ id ∈ s.stored numbers, id ∉ s.acknowledged →
        id ∈ ((s.loops[i]?).elim [] fun loop => idsOf loop.batch) ∨
          id ∈ s.leftByCut numbers i written
  | _ => True

instance (s : State) (a : ProcessAction) : Decidable (KeepsACopy numbers cfg s a) :=
  match a with
  | .run (.send call) =>
      inferInstanceAs (Decidable (call.outcome ≠ .skipped →
        ∀ id ∈ s.resolved, id ∉ s.acknowledged →
          id ∈ s.leftInQueue cfg ∨ id ∈ idsOf s.inFlight ∨ id ∈ s.leftInFile numbers cfg call))
  | .run (.attempt i .acknowledged (.cut written)) =>
      inferInstanceAs (Decidable (cfg.retainOnAck = false →
        ∀ id ∈ s.resolved, id ∉ s.acknowledged →
          id ∈ idsOf s.queue ∨ id ∈ idsOf s.inFlight ∨ id ∈ s.leftByCut numbers i written))
  | .restart _ =>
      inferInstanceAs (Decidable (∀ id ∈ s.resolved, id ∉ s.acknowledged → id ∈ s.stored numbers))
  | .run .timer | .run .flush | .run (.resumeFlush _) | .run (.attempt _ (.failed _) _)
  | .run (.attempt _ .acknowledged .done) | .run (.attempt _ .acknowledged .unopened)
  | .run (.attempt _ .acknowledged .skipped) | .run (.finalize _) | .run .shutdown =>
      .isTrue trivial

instance (s : State) (a : ProcessAction) : Decidable (KeepsUnacknowledged numbers cfg s a) :=
  match a with
  | .run (.send call) =>
      inferInstanceAs (Decidable (call.outcome ≠ .skipped →
        ∀ id ∈ s.stored numbers, id ∉ s.acknowledged → id ∈ s.leftInFile numbers cfg call))
  | .run (.attempt i .acknowledged (.cut written)) =>
      inferInstanceAs (Decidable (cfg.retainOnAck = false →
        ∀ id ∈ s.stored numbers, id ∉ s.acknowledged →
          id ∈ ((s.loops[i]?).elim [] fun loop => idsOf loop.batch) ∨
            id ∈ s.leftByCut numbers i written))
  | .run .timer | .run .flush | .run (.resumeFlush _) | .run (.attempt _ (.failed _) _)
  | .run (.attempt _ .acknowledged .done) | .run (.attempt _ .acknowledged .unopened)
  | .run (.attempt _ .acknowledged .skipped) | .run (.finalize _) | .run .shutdown
  | .restart _ =>
      .isTrue trivial

end Processes

variable {numbers : Json.NumberFormat} {cfg : WebhookTransportConfig} {s t : State}
variable {i : Nat} {id : Text}

/-! ## Memory -/

theorem mem_inFlight :
    id ∈ idsOf s.inFlight ↔ ∃ loop ∈ s.loops, id ∈ idsOf loop.batch := by
  simp only [idsOf, inFlight, List.mem_map, List.mem_flatMap]
  constructor
  · rintro ⟨record, ⟨loop, hloop, hrecord⟩, rfl⟩
    exact ⟨loop, hloop, record, hrecord, rfl⟩
  · rintro ⟨loop, hloop, record, hrecord, rfl⟩
    exact ⟨record, ⟨loop, hloop, hrecord⟩, rfl⟩

/-- The record is in the queue or in flight. -/
def InMemory (s : State) (id : Text) : Prop := id ∈ idsOf s.queue ∨ id ∈ idsOf s.inFlight

theorem Covered.copy (h : Covered numbers s) (hid : id ∈ s.resolved) (hnot : id ∉ s.acknowledged) :
    s.InMemory id ∨ id ∈ s.stored numbers :=
  or_assoc.mpr (h id hid hnot)

theorem Covered.of_copies
    (h : ∀ id ∈ s.resolved, id ∉ s.acknowledged → s.InMemory id ∨ id ∈ s.stored numbers) :
    Covered numbers s :=
  fun id hid hnot => or_assoc.mp (h id hid hnot)

theorem mem_nextBatch (cfg : WebhookTransportConfig) (h : id ∈ idsOf s.queue) :
    id ∈ idsOf (s.nextBatch cfg).1.batch ∨ id ∈ idsOf (s.nextBatch cfg).2 := by
  rw [← nextBatch_append s cfg, idsOf_append, List.mem_append] at h
  exact h

theorem InMemory.drainQueue (h : s.InMemory id) : (s.drainQueue cfg).InMemory id := by
  unfold State.drainQueue
  split
  · exact h
  · rcases h with hqueue | hflight
    · rcases mem_nextBatch cfg hqueue with hbatch | hrest
      · right
        exact mem_inFlight.mpr ⟨_, List.mem_append_right _ List.mem_cons_self, hbatch⟩
      · exact .inl hrest
    · right
      obtain ⟨loop, hloop, hid⟩ := mem_inFlight.mp hflight
      exact mem_inFlight.mpr ⟨loop, List.mem_append_left _ hloop, hid⟩

theorem mem_pushed {queue : List LocalEventStoreRecord} {record : LocalEventStoreRecord}
    (h : id ∈ idsOf (if cfg.maxBufferEvents ≤ queue.length then queue.drop 1 else queue) ∨
      id = record.id) : id ∈ idsOf (pushed cfg queue record) := by
  unfold pushed
  split
  · next hfull =>
      rw [if_pos hfull] at h
      simpa [idsOf] using h
  · next hroom =>
      rw [if_neg hroom] at h
      simpa [idsOf] using h

theorem InMemory.enqueue {record : LocalEventStoreRecord} {schedule : Bool}
    (h : id ∈ s.leftInQueue cfg ∨ id = record.id ∨ id ∈ idsOf s.inFlight) :
    (s.enqueue cfg record schedule).InMemory id := by
  have hpushed : InMemory
      { s with queue := pushed cfg s.queue record, sent := s.sent ++ [record.id] } id := by
    rcases h with hqueue | hrecord | hflight
    · exact .inl (mem_pushed (.inl hqueue))
    · exact .inl (mem_pushed (.inr hrecord))
    · exact .inr hflight
  unfold State.enqueue
  simp only
  split
  · exact hpushed
  · split
    · exact hpushed.drainQueue
    · exact hpushed

/-- Replacing a loop keeps what the other loops send. -/
theorem mem_inFlight_set {loop next : Loop} (hi : s.loops[i]? = some loop)
    (h : id ∈ idsOf s.inFlight) :
    id ∈ idsOf loop.batch ∨ ∃ other ∈ s.loops.set i next, id ∈ idsOf other.batch := by
  obtain ⟨other, hother, hid⟩ := mem_inFlight.mp h
  obtain ⟨j, hj⟩ := List.mem_iff_getElem?.mp hother
  by_cases hsame : i = j
  · subst hsame
    rw [hi] at hj
    cases hj
    exact .inl hid
  · right
    refine ⟨other, List.mem_iff_getElem?.mpr ⟨j, ?_⟩, hid⟩
    rw [List.getElem?_set_ne hsame]
    exact hj

theorem InMemory.continueLoop {batch : List LocalEventStoreRecord} {attempt : Nat}
    (hi : s.loops[i]? = some (.sending batch attempt)) (h : s.InMemory id) :
    id ∈ idsOf batch ∨ (s.continueLoop cfg i).InMemory id := by
  obtain ⟨hlt, -⟩ := List.getElem?_eq_some_iff.mp hi
  rcases h with hqueue | hflight
  · rcases mem_nextBatch cfg hqueue with hbatch | hrest
    · exact .inr (.inr (mem_inFlight.mpr ⟨_, List.mem_set hlt _, hbatch⟩))
    · exact .inr (.inl hrest)
  · rcases mem_inFlight_set hi hflight with hbatch | hother
    · exact .inl hbatch
    · exact .inr (.inr (mem_inFlight.mpr hother))

theorem InMemory.putBack {batch : List LocalEventStoreRecord} {attempt : Nat}
    (hi : s.loops[i]? = some (.sending batch attempt)) (h : s.InMemory id) :
    (s.putBack i batch).InMemory id := by
  have hqueue : id ∈ idsOf batch ∨ id ∈ idsOf s.queue → id ∈ idsOf (batch ++ s.queue) := by
    intro hid
    rw [idsOf, List.map_append, List.mem_append]
    exact hid
  rcases h with hid | hflight
  · exact .inl (hqueue (.inr hid))
  · rcases mem_inFlight_set hi hflight with hbatch | hother
    · exact .inl (hqueue (.inl hbatch))
    · exact .inr (mem_inFlight.mpr hother)

theorem InMemory.retry {batch : List LocalEventStoreRecord} {attempt : Nat}
    (hi : s.loops[i]? = some (.sending batch attempt)) (h : s.InMemory id) :
    InMemory { s with loops := s.loops.set i (.sending batch (attempt + 1)) } id := by
  obtain ⟨hlt, -⟩ := List.getElem?_eq_some_iff.mp hi
  rcases h with hqueue | hflight
  · exact .inl hqueue
  · right
    rcases mem_inFlight_set hi hflight with hbatch | hother
    · exact mem_inFlight.mpr ⟨_, List.mem_set hlt _, hbatch⟩
    · exact mem_inFlight.mpr hother

theorem InMemory.finalize (hi : s.loops[i]? = some .returned) (h : s.InMemory id) :
    InMemory { s with loops := s.loops.set i .closed, drainPromise := none } id := by
  rcases h with hqueue | hflight
  · exact .inl hqueue
  · right
    rcases mem_inFlight_set hi hflight with hbatch | hother
    · exact absurd hbatch List.not_mem_nil
    · exact mem_inFlight.mpr hother

/-! ## Files -/

section Files

variable {files : StoreFiles} {call : AppendCall} {rotateCounter : Nat}
variable {opts : LocalEventStoreOptions}

/-- An append leaves the records of the lines before the open one, unless the file is rotated. -/
theorem mem_append (houtcome : call.outcome ≠ .skipped)
    (hrotates : (isFull opts files && call.renames) = false)
    (h : id ∈ idsOf (recordsOf numbers (Text.closedParts '\n' (files.file.getD [])))) :
    id ∈ idsOf (LocalEventStore.readAll numbers (LocalEventStore.append opts files rotateCounter
      call).2.1) := by
  have hkeeps : (rotateIfNeededSync opts files rotateCounter call.now call.renames).1 = files := by
    unfold rotateIfNeededSync
    split
    · next hfull =>
        rw [hfull, Bool.true_and] at hrotates
        simp [hrotates]
    · rfl
  have hwritten : ∀ text, id ∈ idsOf (records numbers (files.file.getD [] ++ text)) := by
    intro text
    rw [records_append, idsOf, List.map_append]
    exact List.mem_append_left _ h
  simp only [LocalEventStore.append, if_neg houtcome, hkeeps]
  cases hwrite : call.outcome with
  | done => exact hwritten _
  | cut written => exact hwritten _
  | unopened =>
      cases hfile : files.file with
      | none => simp [hfile, Text.closedParts, recordsOf, idsOf] at h
      | some content =>
          have hold := hwritten []
          rw [hfile, Option.getD_some, List.append_nil] at hold
          simpa only [appendFileSyncDurable, LocalEventStore.readAll, hfile] using hold
  | skipped => exact absurd hwrite houtcome

theorem append_skipped (houtcome : call.outcome = .skipped) :
    LocalEventStore.append opts files rotateCounter call = (false, files, rotateCounter) :=
  if_pos houtcome

/-- What a rewrite takes from the store is in the batch, or was cut off. -/
theorem mem_remove {ids : List Text} {removal : WriteOutcome}
    (h : id ∈ idsOf (LocalEventStore.readAll numbers files)) (hids : id ∉ ids)
    (hcut : ∀ written, removal = .cut written →
      id ∈ idsOf (records numbers ((rewritten numbers ids (files.file.getD [])).take written))) :
    id ∈ idsOf (LocalEventStore.readAll numbers
      (LocalEventStore.remove numbers files ids removal)) := by
  unfold LocalEventStore.remove
  split
  · exact h
  · cases hfile : files.file with
    | none => exact h
    | some content =>
        cases removal with
        | done =>
            have hrecords : LocalEventStore.readAll numbers files = records numbers content := by
              rw [LocalEventStore.readAll, hfile]
            rw [hrecords, idsOf, List.mem_map] at h
            obtain ⟨record, hrecord, rfl⟩ := h
            show record.id ∈ idsOf (records numbers (rewritten numbers ids content))
            rw [records_rewritten, idsOf]
            refine List.mem_map_of_mem (List.mem_filter.mpr ⟨hrecord, ?_⟩)
            exact decide_eq_true hids
        | cut written =>
            have hleft := hcut written rfl
            rw [hfile] at hleft
            exact hleft
        | unopened => exact h
        | skipped => exact h

end Files

/-! ## What the steps leave alone -/

section Frame

variable {record : LocalEventStoreRecord} {schedule : Bool}

@[simp] theorem drainQueue_files : (s.drainQueue cfg).files = s.files := by
  unfold drainQueue
  split <;> rfl

@[simp] theorem drainQueue_resolved : (s.drainQueue cfg).resolved = s.resolved := by
  unfold drainQueue
  split <;> rfl

@[simp] theorem drainQueue_acknowledged :
    (s.drainQueue cfg).acknowledged = s.acknowledged := by
  unfold drainQueue
  split <;> rfl

@[simp] theorem enqueue_files : (s.enqueue cfg record schedule).files = s.files := by
  unfold enqueue
  simp only
  split
  · rfl
  · split
    · exact drainQueue_files
    · rfl

@[simp] theorem enqueue_resolved : (s.enqueue cfg record schedule).resolved = s.resolved := by
  unfold enqueue
  simp only
  split
  · rfl
  · split
    · exact drainQueue_resolved
    · rfl

@[simp] theorem enqueue_acknowledged :
    (s.enqueue cfg record schedule).acknowledged = s.acknowledged := by
  unfold enqueue
  simp only
  split
  · rfl
  · split
    · exact drainQueue_acknowledged
    · rfl

variable {records : List LocalEventStoreRecord}

@[simp] theorem enqueueExistingRecords_files :
    (s.enqueueExistingRecords cfg records).files = s.files := by
  induction records generalizing s with
  | nil => rfl
  | cons record records ih => exact ih.trans enqueue_files

@[simp] theorem enqueueExistingRecords_resolved :
    (s.enqueueExistingRecords cfg records).resolved = s.resolved := by
  induction records generalizing s with
  | nil => rfl
  | cons record records ih => exact ih.trans enqueue_resolved

@[simp] theorem enqueueExistingRecords_acknowledged :
    (s.enqueueExistingRecords cfg records).acknowledged = s.acknowledged := by
  induction records generalizing s with
  | nil => rfl
  | cons record records ih => exact ih.trans enqueue_acknowledged

end Frame

/-- A send is rejected, or the record it finds is queued. Either way the files are those of its
append. -/
theorem send_cases (numbers : Json.NumberFormat) (cfg : WebhookTransportConfig) (s : State)
    (call : SendCall) :
    ∃ appended : State,
      appended.files = (LocalEventStore.append cfg.store s.files s.rotateCounter
        call.toAppendCall).2.1 ∧
      appended.queue = s.queue ∧ appended.loops = s.loops ∧
      appended.acknowledged = s.acknowledged ∧ appended.resolved = s.resolved ∧
      (s.send numbers cfg call = appended ∨
        ∃ record, call.outcome = .done ∧ record.id = call.id ∧ s.send numbers cfg call =
          { appended with resolved := call.id :: s.resolved }.enqueue cfg record true) := by
  refine ⟨{ s with
    files := (LocalEventStore.append cfg.store s.files s.rotateCounter call.toAppendCall).2.1
    rotateCounter :=
      (LocalEventStore.append cfg.store s.files s.rotateCounter call.toAppendCall).2.2
    issued := call.id :: s.issued }, rfl, rfl, rfl, rfl, rfl, ?_⟩
  unfold send
  simp only
  split
  · exact .inl rfl
  · next happended =>
    split
    · exact .inl rfl
    · next record hfind =>
        refine .inr ⟨record, ?_, ?_, rfl⟩
        · by_contra hdone
          apply happended
          unfold LocalEventStore.append
          split
          · rfl
          · simp [hdone]
        unfold findRecord at hfind
        split at hfind
        · simpa using List.find?_some hfind
        · contradiction

/-! ## Steps -/

theorem stored_of_files (h : t.files = s.files) : t.stored numbers = s.stored numbers := by
  rw [stored, stored, readAll, readAll, h]

/-- Where a record of the store or of the memory is after a send. -/
theorem mem_send {call : SendCall} (houtcome : call.outcome ≠ .skipped)
    (h : id ∈ s.leftInFile numbers cfg call) :
    id ∈ (s.send numbers cfg call).stored numbers := by
  obtain ⟨appended, hfiles, -, -, -, -, hsend⟩ := send_cases numbers cfg s call
  have happended : id ∈ appended.stored numbers := by
    rw [stored, readAll, hfiles]
    unfold leftInFile at h
    split at h
    · contradiction
    · next hrotates => exact mem_append houtcome (Bool.eq_false_of_not_eq_true hrotates) h
  rcases hsend with heq | ⟨record, -, -, heq⟩
  · rw [heq]
    exact happended
  · rw [heq, stored_of_files enqueue_files]
    exact happended

theorem mem_of_mem_leftInQueue (h : id ∈ s.leftInQueue cfg) : id ∈ idsOf s.queue := by
  unfold leftInQueue at h
  split at h
  · exact ((List.drop_sublist 1 s.queue).map _).subset h
  · exact h

/-- The records owed before a send are owed a copy after it, and the new one is queued. -/
theorem Covered.send (h : Covered numbers s) {call : SendCall}
    (hkeeps : KeepsACopy numbers cfg s (.run (.send call))) :
    Covered numbers (s.send numbers cfg call) := by
  obtain ⟨appended, hfiles, hqueue, hloops, hacknowledged, hresolved, hsend⟩ :=
    send_cases numbers cfg s call
  have hflight : appended.inFlight = s.inFlight := by rw [inFlight, inFlight, hloops]
  have hsame : ∀ {id}, s.InMemory id → appended.InMemory id := by
    intro id hid
    rwa [InMemory, hqueue, hflight]
  apply Covered.of_copies
  intro id hid hnot
  by_cases houtcome : call.outcome = .skipped
  · rcases hsend with heq | ⟨record, hdone, -⟩
    · rw [append_skipped houtcome] at hfiles
      rw [heq] at hid hnot ⊢
      rw [hresolved] at hid
      rw [hacknowledged] at hnot
      rw [stored_of_files hfiles]
      exact (h.copy hid hnot).imp_left hsame
    · rw [houtcome] at hdone
      contradiction
  · have hcopies := hkeeps houtcome
    have hfile : id ∈ s.leftInFile numbers cfg call →
        id ∈ (s.send numbers cfg call).stored numbers := mem_send houtcome
    rcases hsend with heq | ⟨record, -, hrecord, heq⟩
    · rw [heq] at hid hnot hfile ⊢
      rw [hresolved] at hid
      rw [hacknowledged] at hnot
      rcases hcopies id hid hnot with hleft | hleft | hleft
      · exact .inl (hsame (.inl (mem_of_mem_leftInQueue hleft)))
      · exact .inl (hsame (.inr hleft))
      · exact .inr (hfile hleft)
    · have hmemory : id ∈ s.leftInQueue cfg ∨ id = record.id ∨ id ∈ idsOf s.inFlight →
          (s.send numbers cfg call).InMemory id := by
        intro hcopy
        have hleft : State.leftInQueue cfg { appended with resolved := call.id :: s.resolved } =
            s.leftInQueue cfg := by
          rw [leftInQueue, leftInQueue, hqueue]
        have hflight' : State.inFlight { appended with resolved := call.id :: s.resolved } =
            s.inFlight := hflight
        rw [heq]
        apply InMemory.enqueue
        rwa [hleft, hflight']
      rw [heq, enqueue_resolved] at hid
      rw [heq, enqueue_acknowledged] at hnot
      rcases List.mem_cons.mp hid with hnew | hold
      · exact .inl (hmemory (.inr (.inl (hnew.trans hrecord.symm))))
      · rw [hacknowledged] at hnot
        rcases hcopies id hold hnot with hleft | hleft | hleft
        · exact .inl (hmemory (.inl hleft))
        · exact .inl (hmemory (.inr (.inr hleft)))
        · exact .inr (hfile hleft)

/-- What stays in memory, in the store and in the counts stays covered. -/
theorem Covered.of_memory (h : Covered numbers s) (hresolved : t.resolved = s.resolved)
    (hacknowledged : t.acknowledged = s.acknowledged) (hfiles : t.files = s.files)
    (hmemory : ∀ id, s.InMemory id → t.InMemory id) : Covered numbers t := by
  apply Covered.of_copies
  intro id hid hnot
  rw [hresolved] at hid
  rw [hacknowledged] at hnot
  rw [stored_of_files hfiles]
  exact (h.copy hid hnot).imp_left (hmemory id)

theorem batchIds_eq {batch : List LocalEventStoreRecord} {attempt : Nat}
    (hi : s.loops[i]? = some (.sending batch attempt)) :
    ((s.loops[i]?).elim [] fun loop => idsOf loop.batch) = idsOf batch := by
  rw [hi]
  rfl

/-- An acknowledged batch leaves the memory, and the store as far as its removal comes. -/
theorem Covered.acknowledge (h : Covered numbers s) {batch : List LocalEventStoreRecord}
    {attempt : Nat} (hi : s.loops[i]? = some (.sending batch attempt)) {removal : WriteOutcome}
    (hkeeps : KeepsACopy numbers cfg s (.run (.attempt i .acknowledged removal))) :
    Covered numbers (s.acknowledge numbers cfg i batch removal) := by
  have hmemory : ∀ files acknowledged id, id ∉ idsOf batch → s.InMemory id →
      (State.continueLoop cfg { s with files, acknowledged } i).InMemory id := by
    intro files acknowledged id hbatch hid
    have hcopy : InMemory { s with files, acknowledged } id := hid
    exact (hcopy.continueLoop hi).resolve_left hbatch
  have hnotin : ∀ id, id ∉ s.acknowledged ++ idsOf batch →
      id ∉ s.acknowledged ∧ id ∉ idsOf batch := by
    intro id hnot
    rwa [List.mem_append, not_or] at hnot
  apply Covered.of_copies
  unfold State.acknowledge
  simp only
  split
  · intro id hid hnot
    obtain ⟨hold, hbatch⟩ := hnotin id hnot
    exact (h.copy hid hold).imp_left (hmemory _ _ id hbatch)
  · next hremoves =>
    intro id hid hnot
    obtain ⟨hold, hbatch⟩ := hnotin id hnot
    by_cases hcopy : s.InMemory id
    · exact .inl (hmemory _ _ id hbatch hcopy)
    · have hstored : id ∈ s.stored numbers := (h.copy hid hold).resolve_left hcopy
      refine .inr (mem_remove hstored hbatch fun written hremoval => ?_)
      subst hremoval
      have hleft := or_assoc.mpr (hkeeps (Bool.eq_false_of_not_eq_true hremoves) id hid hold)
      rw [leftByCut, batchIds_eq hi] at hleft
      exact hleft.resolve_left hcopy

theorem Covered.attempt (h : Covered numbers s) {outcome : Outcome} {removal : WriteOutcome}
    (hkeeps : KeepsACopy numbers cfg s (.run (.attempt i outcome removal)))
    (hstep : s.attempt numbers cfg i outcome removal = some t) : Covered numbers t := by
  unfold State.attempt at hstep
  split at hstep
  · next batch attempt hi =>
    cases outcome with
    | acknowledged =>
        obtain rfl := Option.some.inj hstep
        exact h.acknowledge hi hkeeps
    | failed retryable =>
        simp only at hstep
        split at hstep
        · obtain rfl := Option.some.inj hstep
          exact h.of_memory rfl rfl rfl fun id => InMemory.putBack hi
        · obtain rfl := Option.some.inj hstep
          exact h.of_memory rfl rfl rfl fun id => InMemory.retry hi
  · contradiction

/-- A restart finds in the store what was owed. -/
theorem Covered.restart {readable : Bool}
    (hkeeps : KeepsACopy numbers cfg s (.restart readable)) :
    Covered numbers
      (construct numbers cfg s.files readable s.issued s.resolved s.acknowledged) := by
  unfold construct
  simp only
  apply Covered.of_copies
  intro id hid hnot
  rw [enqueueExistingRecords_resolved] at hid
  rw [enqueueExistingRecords_acknowledged] at hnot
  right
  rw [stored_of_files enqueueExistingRecords_files]
  exact hkeeps id hid hnot

/-- Draining moves records from the queue into flight. -/
theorem Covered.drainQueue (h : Covered numbers s) : Covered numbers (s.drainQueue cfg) :=
  h.of_memory drainQueue_resolved drainQueue_acknowledged drainQueue_files
    fun _ => InMemory.drainQueue

theorem Covered.step {a : ProcessAction} (h : Covered numbers s)
    (hkeeps : KeepsACopy numbers cfg s a) (hstep : processStep numbers cfg s a = some t) :
    Covered numbers t := by
  cases a with
  | restart readable =>
      obtain rfl := Option.some.inj hstep
      exact Covered.restart hkeeps
  | run a =>
      have hrun : s.step numbers cfg a = some t := hstep
      cases a with
      | send call =>
          simp only [State.step] at hrun
          split at hrun
          · contradiction
          · obtain rfl := Option.some.inj hrun
            exact h.send hkeeps
      | timer =>
          simp only [State.step] at hrun
          split at hrun
          · obtain rfl := Option.some.inj hrun
            exact Covered.drainQueue (s := s.clearTimer) h
          · contradiction
      | flush =>
          obtain rfl := Option.some.inj hrun
          unfold State.flush
          split
          · exact h
          · exact Covered.drainQueue (s := s.clearTimer) h
      | resumeFlush k =>
          simp only [State.step, State.resumeFlush] at hrun
          split at hrun
          · split at hrun
            · obtain rfl := Option.some.inj hrun
              exact Covered.drainQueue (s := { s with flushes := s.flushes.eraseIdx k }) h
            · contradiction
          · contradiction
      | attempt i outcome removal => exact h.attempt hkeeps hrun
      | finalize i =>
          simp only [State.step, State.finalize] at hrun
          split at hrun
          · next hi =>
            obtain rfl := Option.some.inj hrun
            exact h.of_memory rfl rfl rfl fun id => InMemory.finalize hi
          · contradiction
      | shutdown =>
          obtain rfl := Option.some.inj hrun
          exact h

/-! ## The store -/

theorem send_acknowledged {call : SendCall} :
    (s.send numbers cfg call).acknowledged = s.acknowledged := by
  obtain ⟨appended, -, -, -, hacknowledged, -, hsend⟩ := send_cases numbers cfg s call
  rcases hsend with heq | ⟨record, -, -, heq⟩
  · rw [heq, hacknowledged]
  · rw [heq, enqueue_acknowledged, hacknowledged]

theorem send_files_of_skipped {call : SendCall} (houtcome : call.outcome = .skipped) :
    (s.send numbers cfg call).files = s.files := by
  obtain ⟨appended, hfiles, -, -, -, -, hsend⟩ := send_cases numbers cfg s call
  rw [append_skipped houtcome] at hfiles
  rcases hsend with heq | ⟨record, -, -, heq⟩
  · rw [heq, hfiles]
  · rw [heq, enqueue_files, hfiles]

/-- Only sends and acknowledgements write to the files. -/
theorem processStep_files {a : ProcessAction} (hsend : ∀ call, a ≠ .run (.send call))
    (hacknowledged : ∀ i removal, a ≠ .run (.attempt i .acknowledged removal))
    (hstep : processStep numbers cfg s a = some t) : t.files = s.files := by
  cases a with
  | restart readable =>
      obtain rfl := Option.some.inj hstep
      exact enqueueExistingRecords_files
  | run a =>
      have hrun : s.step numbers cfg a = some t := hstep
      cases a with
      | send call => exact absurd rfl (hsend call)
      | timer =>
          simp only [State.step] at hrun
          split at hrun
          · obtain rfl := Option.some.inj hrun
            exact drainQueue_files
          · contradiction
      | flush =>
          obtain rfl := Option.some.inj hrun
          unfold State.flush
          split
          · rfl
          · exact drainQueue_files
      | resumeFlush k =>
          simp only [State.step, State.resumeFlush] at hrun
          split at hrun
          · split at hrun
            · obtain rfl := Option.some.inj hrun
              exact drainQueue_files
            · contradiction
          · contradiction
      | attempt i outcome removal =>
          simp only [State.step, State.attempt] at hrun
          split at hrun
          · cases outcome with
            | acknowledged => exact absurd rfl (hacknowledged i removal)
            | failed retryable =>
                simp only at hrun
                split at hrun
                · obtain rfl := Option.some.inj hrun
                  rfl
                · obtain rfl := Option.some.inj hrun
                  rfl
          · contradiction
      | finalize i =>
          simp only [State.step, State.finalize] at hrun
          split at hrun
          · obtain rfl := Option.some.inj hrun
            rfl
          · contradiction
      | shutdown =>
          obtain rfl := Option.some.inj hrun
          rfl

theorem removesAcknowledged_of_files {a : ProcessAction}
    (h : ∀ t, processStep numbers cfg s a = some t → t.files = s.files) :
    RemovesAcknowledged numbers cfg s a := by
  intro t hstep id hid hgone
  rw [stored_of_files (h t hstep)] at hgone
  exact absurd hid hgone

theorem KeepsUnacknowledged.send {call : SendCall}
    (hkeeps : KeepsUnacknowledged numbers cfg s (.run (.send call))) :
    RemovesAcknowledged numbers cfg s (.run (.send call)) := by
  by_cases houtcome : call.outcome = .skipped
  · apply removesAcknowledged_of_files
    intro t hstep
    have hrun : s.step numbers cfg (.send call) = some t := hstep
    simp only [State.step] at hrun
    split at hrun
    · contradiction
    · obtain rfl := Option.some.inj hrun
      exact send_files_of_skipped houtcome
  · intro t hstep id hid hgone
    have hrun : s.step numbers cfg (.send call) = some t := hstep
    simp only [State.step] at hrun
    split at hrun
    · contradiction
    · obtain rfl := Option.some.inj hrun
      rw [send_acknowledged]
      by_contra hnot
      exact hgone (mem_send houtcome (hkeeps houtcome id hid hnot))

theorem KeepsUnacknowledged.acknowledge {removal : WriteOutcome}
    (hkeeps : KeepsUnacknowledged numbers cfg s (.run (.attempt i .acknowledged removal))) :
    RemovesAcknowledged numbers cfg s (.run (.attempt i .acknowledged removal)) := by
  intro t hstep id hid hgone
  have hrun : s.attempt numbers cfg i .acknowledged removal = some t := hstep
  unfold State.attempt at hrun
  split at hrun
  · next batch attempt hi =>
    obtain rfl := Option.some.inj hrun
    by_contra hnot
    have hnot' : id ∉ s.acknowledged ++ idsOf batch := by
      unfold State.acknowledge at hnot
      simp only at hnot
      split at hnot
      · exact hnot
      · exact hnot
    rw [List.mem_append, not_or] at hnot'
    apply hgone
    unfold State.acknowledge
    simp only
    split
    · exact hid
    · next hremoves =>
      refine mem_remove hid hnot'.2 fun written hremoval => ?_
      subst hremoval
      have hleft := hkeeps (Bool.eq_false_of_not_eq_true hremoves) id hid hnot'.1
      rw [leftByCut, batchIds_eq hi] at hleft
      exact hleft.resolve_left hnot'.2
  · contradiction

theorem KeepsUnacknowledged.step {a : ProcessAction}
    (hkeeps : KeepsUnacknowledged numbers cfg s a) : RemovesAcknowledged numbers cfg s a := by
  by_cases hsend : ∃ call, a = .run (.send call)
  · obtain ⟨call, rfl⟩ := hsend
    exact hkeeps.send
  · by_cases hacknowledged : ∃ i removal, a = .run (.attempt i .acknowledged removal)
    · obtain ⟨i, removal, rfl⟩ := hacknowledged
      exact hkeeps.acknowledge
    · apply removesAcknowledged_of_files
      intro t hstep
      apply processStep_files _ _ hstep
      · intro call heq
        exact hsend ⟨call, heq⟩
      · intro i removal heq
        exact hacknowledged ⟨i, removal, heq⟩

/-! ## Runs -/

theorem covered_preserved :
    (processes numbers cfg).Preserved (KeepsACopy numbers cfg) (Covered numbers) where
  init s hs := by
    obtain ⟨files, readable, rfl⟩ := hs
    intro id hid
    rw [construct, enqueueExistingRecords_resolved] at hid
    contradiction
  step _ _ _ h hkeeps hstep := h.step hkeeps hstep

/-- A new process finds two records, of which the first does not fit its queue, and delivers the
second. -/
def restartedRun : List ProcessAction :=
  [.run (.send (sendOf ("a" : Text))), .run (.send (sendOf ("b" : Text))), .restart true,
    .run .flush, .run (.attempt 0 .acknowledged .skipped)]

section FullFile

/-- A first send with a payload, and a second send. -/
def firstCall (payload : Text) : SendCall := { sendOf ("a" : Text) with serialized := payload }

def secondCall : SendCall := sendOf ("b" : Text)

def fileOf (call : SendCall) (backups : List (Text × Text)) : StoreFiles where
  file := some call.line
  backups

theorem readAll_fileOf (call : SendCall) (backups : List (Text × Text)) :
    LocalEventStore.readAll numbers (fileOf call backups) = [call.record] :=
  records_line call.record

theorem send_eq {call : SendCall} {counter : Nat} {backups : List (Text × Text)}
    (happend : LocalEventStore.append cfg.store s.files s.rotateCounter call.toAppendCall =
      (true, fileOf call backups, counter))
    (hreadable : call.readable = true) :
    s.send numbers cfg call =
      State.enqueue cfg
        { s with
          files := fileOf call backups, rotateCounter := counter
          issued := call.id :: s.issued, resolved := call.id :: s.resolved }
        call.record true := by
  have hid : call.record.id = call.id := rfl
  simp only [send, happend, findRecord, hreadable, readAll, readAll_fileOf, if_true,
    List.find?_cons, hid, decide_true, Bool.not_true, Bool.false_eq_true, if_false]

/-- The transport whose first send is in flight. -/
def afterFirst (payload : Text) : State where
  files := fileOf (firstCall payload) []
  rotateCounter := 0
  queue := []
  drainTimer := false
  drainPromise := some 0
  loops := [.sending [(firstCall payload).record] 0]
  flushes := []
  issued := [("a" : Text)]
  sent := [("a" : Text)]
  resolved := [("a" : Text)]
  acknowledged := []

theorem step_firstCall (payload : Text) :
    (processes numbers tinyConfig).step (opened numbers tinyConfig noFiles true)
      (.run (.send (firstCall payload))) = some (afterFirst payload) := by
  have happend : LocalEventStore.append tinyConfig.store noFiles 0
      (firstCall payload).toAppendCall = (true, fileOf (firstCall payload) [], 0) := rfl
  have hsend : (opened numbers tinyConfig noFiles true).send numbers tinyConfig
      (firstCall payload) = afterFirst payload := send_eq happend rfl
  exact congrArg some hsend

def renamedTo (payload : Text) : List (Text × Text) :=
  [(rotatedName tinyConfig.store 0 1, (firstCall payload).line)]

/-- The second send has renamed the file away. -/
def afterSecond (payload : Text) : State where
  files := fileOf secondCall (renamedTo payload)
  rotateCounter := 1
  queue := [secondCall.record]
  drainTimer := false
  drainPromise := some 0
  loops := [.sending [(firstCall payload).record] 0]
  flushes := []
  issued := [("b" : Text), ("a" : Text)]
  sent := [("a" : Text), ("b" : Text)]
  resolved := [("b" : Text), ("a" : Text)]
  acknowledged := []

theorem step_secondCall {payload : Text}
    (hfull : tinyConfig.store.maxSizeBytes ≤ payload.length) :
    (processes numbers tinyConfig).step (afterFirst payload) (.run (.send secondCall)) =
      some (afterSecond payload) := by
  have hline : tinyConfig.store.maxSizeBytes ≤ Text.byteLength (firstCall payload).line :=
    hfull.trans (length_payload_le (firstCall payload).record)
  have hsize : isFull tinyConfig.store (fileOf (firstCall payload) []) = true := by
    simp only [isFull, fileOf, Option.any_some, hline, decide_true]
  have hrotated : rotateIfNeededSync tinyConfig.store (fileOf (firstCall payload) []) 0
      secondCall.now secondCall.renames =
        ({ file := none, backups := renamedTo payload }, 1) := by
    rw [rotateIfNeededSync, if_pos hsize]
    rfl
  have happend : LocalEventStore.append tinyConfig.store (afterFirst payload).files
      (afterFirst payload).rotateCounter secondCall.toAppendCall =
        (true, fileOf secondCall (renamedTo payload), 1) := by
    rw [LocalEventStore.append, if_neg (by decide)]
    have hfiles : (afterFirst payload).files = fileOf (firstCall payload) [] := rfl
    have hcounter : (afterFirst payload).rotateCounter = 0 := rfl
    rw [hfiles, hcounter, hrotated]
    rfl
  have hsend : (afterFirst payload).send numbers tinyConfig secondCall = afterSecond payload :=
    send_eq (s := afterFirst payload) happend rfl
  exact congrArg some hsend

/-- The first record has one copy left, which is in flight. -/
theorem not_mem_stored_afterSecond (payload : Text) :
    ("a" : Text) ∉ (afterSecond payload).stored numbers := by
  have hstored : (afterSecond payload).stored numbers = [("b" : Text)] := by
    rw [stored, readAll]
    have hfiles : (afterSecond payload).files = fileOf secondCall (renamedTo payload) := rfl
    rw [hfiles, readAll_fileOf]
    rfl
  rw [hstored]
  decide

/-- What a new process finds after it. -/
def restarted (payload : Text) : State where
  files := fileOf secondCall (renamedTo payload)
  rotateCounter := 0
  queue := [secondCall.record]
  drainTimer := false
  drainPromise := none
  loops := []
  flushes := []
  issued := [("b" : Text), ("a" : Text)]
  sent := [("b" : Text)]
  resolved := [("b" : Text), ("a" : Text)]
  acknowledged := []

theorem step_restart (payload : Text) :
    (processes numbers tinyConfig).step (afterSecond payload) (.restart true) =
      some (restarted payload) := by
  have hrestart : construct numbers tinyConfig (fileOf secondCall (renamedTo payload)) true
      (afterSecond payload).issued (afterSecond payload).resolved
      (afterSecond payload).acknowledged = restarted payload := by
    simp only [construct, readAll, readAll_fileOf, if_true]
    rfl
  exact congrArg some hrestart

theorem not_covered_restarted (payload : Text) : ¬ Covered numbers (restarted payload) := by
  intro hcovered
  have hlast : ("a" : Text) ∈ (restarted payload).resolved :=
    List.mem_cons_of_mem _ List.mem_cons_self
  have hqueue : ("a" : Text) ∉ idsOf (restarted payload).queue := by
    show ("a" : Text) ∉ [("b" : Text)]
    decide
  rcases hcovered ("a" : Text) hlast List.not_mem_nil with hid | hflight | hstored
  · exact hqueue hid
  · exact List.not_mem_nil hflight
  · exact not_mem_stored_afterSecond payload hstored

/-- A payload of the size at which the file is rotated. -/
def fullPayload : Text := List.replicate (100 * 1024 * 1024) 'x'

def rotatedRun (payload : Text) : List ProcessAction :=
  [.run (.send (firstCall payload)), .run (.send secondCall), .restart true]

end FullFile

end State

end ErrorCore.WebhookTransport
