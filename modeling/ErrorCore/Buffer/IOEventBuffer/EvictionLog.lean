import ErrorCore.Buffer.IOEventBuffer.Bytes
import ErrorCore.Buffer.IOEventBuffer.Order
import ErrorCore.Foundation.RingLog

/-!
# The eviction log of the IO event buffer

The slots an operation evicts are found from the state it starts in: the slot
that a push overwrites, and the first slots of the window for as long as the
buffer is over its byte budget. A run collects them with their records, and with
the slots that were released. The log of the buffer has the last of the records.
-/

namespace ErrorCore

/-- The record of an evicted slot. -/
def evictionRecord (slot : IOEventSlot) (evictedAt : Int) : EvictionRecord where
  seq := slot.seq
  type := slot.type
  direction := slot.direction
  target := slot.target
  requestId := slot.requestId
  startTime := slot.startTime
  evictedAt := evictedAt

/-- The records of slots that are evicted one after the other, when `n` evictions were counted
before. -/
def evictionRecords (hrtime : Nat → Int) (heap : Heap) : Nat → List SlotId → List EvictionRecord
  | _, [] => []
  | n, id :: ids => evictionRecord (heap id) (hrtime n) :: evictionRecords hrtime heap (n + 1) ids

theorem length_evictionRecords (hrtime : Nat → Int) (heap : Heap) (n : Nat) (ids : List SlotId) :
    (evictionRecords hrtime heap n ids).length = ids.length := by
  induction ids generalizing n with
  | nil => rfl
  | cons id ids ih => rw [evictionRecords, List.length_cons, ih, List.length_cons]

theorem evictionRecords_append (hrtime : Nat → Int) (heap : Heap) (n : Nat)
    (ids others : List SlotId) :
    evictionRecords hrtime heap n (ids ++ others) =
      evictionRecords hrtime heap n ids ++
        evictionRecords hrtime heap (n + ids.length) others := by
  induction ids generalizing n with
  | nil => rfl
  | cons id ids ih =>
      have hlength : n + 1 + ids.length = n + (id :: ids).length := by
        rw [List.length_cons]
        omega
      rw [List.cons_append, evictionRecords, evictionRecords, ih, hlength, List.cons_append]

namespace IOEventBuffer

/-! ## The slots that are evicted -/

section Evictions

variable (hrtime : Nat → Int) (heap : Heap)

/-- The byte budget takes the first slot of the window while it is exceeded. -/
def budgetEvictions (incomingBytes : Int) : Nat → IOEventBuffer → List SlotId
  | 0, _ => []
  | fuel + 1, b =>
      if b.OverBudget incomingBytes then
        b.drain.head?.toList ++ budgetEvictions incomingBytes fuel (b.evictOldest hrtime heap)
      else
        []

/-- A push takes the slot in the cell it writes, and then the byte budget. -/
def pushEvictions (b : IOEventBuffer) (id : SlotId) : List SlotId :=
  let index := b.writeHead % b.capacity
  let room := b.evictIndex hrtime heap index true
  (b.slots index).toList ++
    budgetEvictions hrtime heap (heap id).estimatedBytes room.slotCount room

end Evictions

variable {hrtime : Nat → Int} {heap : Heap} {b r : IOEventBuffer} {index : Nat} {id : SlotId}
variable {ids others : List SlotId} {history : List EvictionRecord}

/-! ## What the log holds -/

/-- The log and the two counters agree with a history of records. -/
structure Logs (b : IOEventBuffer) (history : List EvictionRecord) : Prop where
  holds : RingLog.Holds evictionLogCapacity b.evictionSlots history
  writeHead : b.evictionWriteHead = history.length
  count : b.evictionCount = history.length
  overflow : b.overflowCount = history.length

theorem Logs.getEvictionLog (h : b.Logs history) :
    b.getEvictionLog = history.rtake evictionLogCapacity := by
  rw [← h.holds.read, IOEventBuffer.getEvictionLog, RingLog.read, h.count, h.writeHead]

theorem Logs.congr (h : b.Logs history) (slots : r.evictionSlots = b.evictionSlots)
    (writeHead : r.evictionWriteHead = b.evictionWriteHead)
    (count : r.evictionCount = b.evictionCount)
    (overflow : r.overflowCount = b.overflowCount) : r.Logs history where
  holds := by
    rw [slots]
    exact h.holds
  writeHead := writeHead.trans h.writeHead
  count := count.trans h.count
  overflow := overflow.trans h.overflow

theorem Logs.logEviction (h : b.Logs history) (hrtime : Nat → Int) (heap : Heap) (id : SlotId) :
    (b.logEviction hrtime heap id).Logs
      (history ++ [evictionRecord (heap id) (hrtime history.length)]) where
  holds := by
    rw [IOEventBuffer.logEviction, h.writeHead, h.count]
    exact h.holds.append _
  writeHead := by
    rw [List.length_append, List.length_singleton, ← h.writeHead]
    rfl
  count := by
    rw [List.length_append, List.length_singleton, ← h.count]
    rfl
  overflow := by
    rw [List.length_append, List.length_singleton, ← h.overflow]
    rfl

/-- A counted eviction is logged. -/
theorem Logs.evictIndex_counted (h : b.Logs history) (hrtime : Nat → Int) (heap : Heap)
    (hid : b.slots index = some id) :
    (b.evictIndex hrtime heap index true).Logs
      (history ++ [evictionRecord (heap id) (hrtime history.length)]) := by
  rw [evictIndex_eq hid]
  exact (h.logEviction hrtime heap id).congr rfl rfl rfl rfl

/-- A release is not. -/
theorem Logs.evictIndex_released (h : b.Logs history) (hrtime : Nat → Int) (heap : Heap)
    (index : Nat) : (b.evictIndex hrtime heap index false).Logs history := by
  cases hslot : b.slots index with
  | none => rwa [evictIndex_of_none hslot]
  | some id =>
      rw [evictIndex_eq hslot]
      exact h.congr rfl rfl rfl rfl

/-! ## Evictions in a row -/

/-- `r` is left when the slots were evicted from `b` one after the other, each with its record. -/
structure LogsEvictions (hrtime : Nat → Int) (heap : Heap) (b : IOEventBuffer) (ids : List SlotId)
    (r : IOEventBuffer) : Prop where
  accounted : r.Accounted
  cells : b.cells.Perm (ids ++ r.cells)
  logs : ∀ history, b.Logs history →
    r.Logs (history ++ evictionRecords hrtime heap history.length ids)

theorem LogsEvictions.refl (h : b.Accounted) : LogsEvictions hrtime heap b [] b where
  accounted := h
  cells := List.Perm.refl _
  logs history hlogs := by
    rw [evictionRecords, List.append_nil]
    exact hlogs

theorem LogsEvictions.trans {t : IOEventBuffer} (h : LogsEvictions hrtime heap b ids r)
    (h' : LogsEvictions hrtime heap r others t) :
    LogsEvictions hrtime heap b (ids ++ others) t where
  accounted := h'.accounted
  cells := by
    rw [List.append_assoc]
    exact h.cells.trans (h'.cells.append_left ids)
  logs history hlogs := by
    have hthen := h'.logs _ (h.logs history hlogs)
    rwa [List.length_append, length_evictionRecords, List.append_assoc,
      ← evictionRecords_append] at hthen

theorem evictIndex_logsEvictions (hrtime : Nat → Int) (heap : Heap) (h : b.Accounted)
    (hid : b.slots index = some id) :
    LogsEvictions hrtime heap b [id] (b.evictIndex hrtime heap index true) where
  accounted := (evictIndex_evicts hrtime heap true h hid).accounted
  cells := (evictIndex_evicts hrtime heap true h hid).cells
  logs _ hlogs := hlogs.evictIndex_counted hrtime heap hid

/-- The oldest slot is the first one that `drain` returns. -/
theorem evictOldest_logsEvictions (hrtime : Nat → Int) (heap : Heap) (h : b.Accounted)
    (hcount : 0 < b.slotCount) :
    LogsEvictions hrtime heap b b.drain.head?.toList (b.evictOldest hrtime heap) := by
  obtain ⟨cursor, id, hread, hwrite, hid, hfirst, heq⟩ :=
    evictOldestFrom_eq hrtime heap h hcount (Nat.le_refl _)
  have hhead : b.drain.head? = some id := RingBuffer.head?_live hread hwrite hid hfirst
  have hadvanced := h.advance hcount (Nat.le_of_lt hwrite) hfirst
  have ev := evictIndex_logsEvictions hrtime heap hadvanced hid
  rw [hhead, Option.toList_some, evictOldest, heq]
  exact { ev with logs := fun history hlogs => ev.logs history (hlogs.congr rfl rfl rfl rfl) }

theorem enforceByteBudgetFrom_logsEvictions (hrtime : Nat → Int) (heap : Heap)
    (incomingBytes : Int) (fuel : Nat) (h : b.Accounted) :
    LogsEvictions hrtime heap b (budgetEvictions hrtime heap incomingBytes fuel b)
      (enforceByteBudgetFrom hrtime heap incomingBytes fuel b) := by
  induction fuel generalizing b with
  | zero => exact LogsEvictions.refl h
  | succ fuel ih =>
      rw [budgetEvictions, enforceByteBudgetFrom]
      by_cases hover : b.OverBudget incomingBytes
      · have first := evictOldest_logsEvictions hrtime heap h hover.2
        rw [if_pos hover, if_pos hover]
        exact first.trans (ih first.accounted)
      · rw [if_neg hover, if_neg hover]
        exact LogsEvictions.refl h

theorem makeRoom_logsEvictions (hrtime : Nat → Int) (heap : Heap) (id : SlotId)
    (h : b.Accounted) :
    LogsEvictions hrtime heap b (b.pushEvictions hrtime heap id)
      (b.makeRoom hrtime heap id) := by
  cases hslot : b.slots (b.writeHead % b.capacity) with
  | none =>
      have hpush : b.pushEvictions hrtime heap id =
          budgetEvictions hrtime heap (heap id).estimatedBytes b.slotCount b := by
        simp only [pushEvictions, hslot, evictIndex_of_none hslot, Option.toList_none,
          List.nil_append]
      rw [makeRoom_of_none hslot, hpush]
      exact enforceByteBudgetFrom_logsEvictions hrtime heap _ _ h
  | some other =>
      have hpush : b.pushEvictions hrtime heap id =
          [other] ++ budgetEvictions hrtime heap (heap id).estimatedBytes
            (b.evictIndex hrtime heap (b.writeHead % b.capacity) true).slotCount
            (b.evictIndex hrtime heap (b.writeHead % b.capacity) true) := by
        simp only [pushEvictions, hslot, Option.toList_some]
      have first := evictIndex_logsEvictions hrtime heap h hslot
      rw [makeRoom_of_some hslot, hpush]
      exact first.trans (enforceByteBudgetFrom_logsEvictions hrtime heap _ _ first.accounted)

end IOEventBuffer

namespace BufferState

/-! ## What a step evicts and releases -/

/-- The slots that an operation evicts, in the order of their evictions. -/
def evictedBy (hrtime : Nat → Int) (s : BufferState) : Action → List SlotId
  | .push event =>
      let buffer := { s.buffer with requestIdIndex := none }
      if keepsSlot buffer event then
        buffer.pushEvictions hrtime (s.push hrtime event).heap s.nextSlot
      else []
  | .updatePayloadBytes oldBytes newBytes slot =>
      if slot.any (· ∉ s.buffer.storedSlots) then []
      else
        IOEventBuffer.budgetEvictions hrtime s.heap 0 s.buffer.slotCount
          { s.buffer with
            requestIdIndex := none
            payloadBytes := s.buffer.payloadBytes + (newBytes - oldBytes) }
  | _ => []

/-- The slots that are gone after `releaseCompletedRequest`. -/
def releasedBy (hrtime : Nat → Int) (s : BufferState) : Action → List SlotId
  | .releaseCompletedRequest requestId =>
      s.buffer.cells.filter (· ∉ (s.releaseCompletedRequest hrtime requestId).buffer.cells)
  | _ => []

variable {hrtime : Nat → Int} {s t : BufferState} {a : Action} {history : List EvictionRecord}

/-- What a step does to the stored slots and to the log. -/
structure StepEvictions (hrtime : Nat → Int) (s : BufferState) (a : Action) (t : BufferState) :
    Prop where
  placed : t.Placed
  nextSlot : s.nextSlot ≤ t.nextSlot
  logs : ∀ history, s.buffer.Logs history →
    t.buffer.Logs (history ++
      evictionRecords hrtime t.heap history.length (s.evictedBy hrtime a))
  evicted : ∀ id ∈ s.evictedBy hrtime a, id ∈ s.buffer.cells ∧ id ∉ t.buffer.cells
  kept : ∀ id ∈ t.buffer.cells, id ∈ s.buffer.cells ∨ s.nextSlot ≤ id

/-- A step that evicts nothing. -/
theorem StepEvictions.quiet (evicted : s.evictedBy hrtime a = []) (placed : t.Placed)
    (nextSlot : s.nextSlot ≤ t.nextSlot) (kept : t.buffer.cells ⊆ s.buffer.cells)
    (logs : ∀ history, s.buffer.Logs history → t.buffer.Logs history) :
    StepEvictions hrtime s a t where
  placed := placed
  nextSlot := nextSlot
  logs history hlogs := by
    rw [evicted, evictionRecords, List.append_nil]
    exact logs history hlogs
  evicted id hid := by
    rw [evicted] at hid
    exact absurd hid List.not_mem_nil
  kept id hid := .inl (kept hid)

theorem push_stepEvictions (h : s.Placed) (event : PushableIOEvent) :
    StepEvictions hrtime s (.push event) (s.push hrtime event) := by
  obtain ⟨hplaced, _, _⟩ := push_placed hrtime h event
  let buffer := { s.buffer with requestIdIndex := none }
  have hbuffer : buffer.Accounted := h.tracked.accounted.congr rfl rfl
  have hpush : (s.push hrtime event).buffer =
      if keepsSlot buffer event then
        buffer.storeSlot hrtime (s.push hrtime event).heap s.nextSlot
      else buffer := rfl
  have hevicted : s.evictedBy hrtime (.push event) =
      if keepsSlot buffer event then
        buffer.pushEvictions hrtime (s.push hrtime event).heap s.nextSlot
      else [] := rfl
  by_cases hkeeps : keepsSlot buffer event
  · rw [if_pos hkeeps] at hpush hevicted
    have room := IOEventBuffer.makeRoom_logsEvictions hrtime (s.push hrtime event).heap
      s.nextSlot hbuffer
    have hstored : (s.push hrtime event).buffer.cells.Perm
        (s.nextSlot ::
          (buffer.makeRoom hrtime (s.push hrtime event).heap s.nextSlot).cells) := by
      rw [hpush]
      exact IOEventBuffer.storeSlot_cells hbuffer
    have hnodup := room.cells.nodup_iff.mp h.tracked.nodup
    refine ⟨hplaced, Nat.le_succ _, ?_, ?_, ?_⟩
    · intro history hlogs
      rw [hevicted, hpush]
      exact (room.logs history (hlogs.congr rfl rfl rfl rfl)).congr rfl rfl rfl rfl
    · intro id hid
      rw [hevicted] at hid
      have hold : id ∈ s.buffer.cells := room.cells.mem_iff.mpr (List.mem_append_left _ hid)
      refine ⟨hold, ?_⟩
      intro hmem
      rcases List.mem_cons.mp (hstored.mem_iff.mp hmem) with rfl | hrest
      · exact Nat.lt_irrefl _ (h.allocated _ hold)
      · exact (List.nodup_append.mp hnodup).2.2 id hid id hrest rfl
    · intro id hid
      rcases List.mem_cons.mp (hstored.mem_iff.mp hid) with rfl | hrest
      · exact .inr (Nat.le_refl _)
      · exact .inl (room.cells.mem_iff.mpr (List.mem_append_right _ hrest))
  · rw [if_neg hkeeps] at hpush hevicted
    refine .quiet hevicted hplaced (Nat.le_succ _) ?_ ?_
    · rw [hpush]
      exact List.Subset.refl _
    · intro history hlogs
      rw [hpush]
      exact hlogs.congr rfl rfl rfl rfl

theorem updatePayloadBytes_stepEvictions (h : s.Placed) (oldBytes newBytes : Int)
    (slot : Option SlotId) :
    StepEvictions hrtime s (.updatePayloadBytes oldBytes newBytes slot)
      (s.step hrtime (.updatePayloadBytes oldBytes newBytes slot)) := by
  let buffer : IOEventBuffer :=
    { s.buffer with
      requestIdIndex := none
      payloadBytes := s.buffer.payloadBytes + (newBytes - oldBytes) }
  have hstep : s.step hrtime (.updatePayloadBytes oldBytes newBytes slot) =
      { s with buffer :=
          if slot.any (· ∉ s.buffer.storedSlots) then s.buffer
          else buffer.enforceByteBudget hrtime s.heap 0 } := rfl
  have hevicted : s.evictedBy hrtime (.updatePayloadBytes oldBytes newBytes slot) =
      if slot.any (· ∉ s.buffer.storedSlots) then []
      else IOEventBuffer.budgetEvictions hrtime s.heap 0 s.buffer.slotCount buffer := rfl
  by_cases hunknown : slot.any (· ∉ s.buffer.storedSlots)
  · rw [if_pos hunknown] at hstep hevicted
    rw [hstep]
    exact .quiet hevicted h (Nat.le_refl _) (List.Subset.refl _) fun _ hlogs => hlogs
  · rw [if_neg hunknown] at hstep hevicted
    have htracked : buffer.Tracked := h.tracked.congr rfl rfl rfl
    have frees := IOEventBuffer.enforceByteBudget_frees hrtime s.heap htracked 0
    have ev : IOEventBuffer.LogsEvictions hrtime s.heap buffer
        (IOEventBuffer.budgetEvictions hrtime s.heap 0 s.buffer.slotCount buffer)
        (buffer.enforceByteBudget hrtime s.heap 0) :=
      IOEventBuffer.enforceByteBudgetFrom_logsEvictions hrtime s.heap 0 _ htracked.accounted
    have hnodup := ev.cells.nodup_iff.mp htracked.nodup
    rw [hstep]
    refine ⟨h.withBuffer frees.tracked frees.subset, Nat.le_refl _, ?_, ?_, ?_⟩
    · intro history hlogs
      rw [hevicted]
      exact ev.logs history (hlogs.congr rfl rfl rfl rfl)
    · intro id hid
      rw [hevicted] at hid
      exact ⟨ev.cells.mem_iff.mpr (List.mem_append_left _ hid), fun hmem =>
        (List.nodup_append.mp hnodup).2.2 id hid id hmem rfl⟩
    · intro id hid
      exact .inl (frees.subset hid)

theorem compactCompletedRequest_stepEvictions (h : s.Placed) (requestId : Text) :
    StepEvictions hrtime s (.compactCompletedRequest requestId)
      (s.compactCompletedRequest requestId) := by
  obtain ⟨hplaced, _⟩ := compactCompletedRequest_placed h requestId
  have hsame : (s.compactCompletedRequest requestId).nextSlot = s.nextSlot ∧
      (s.compactCompletedRequest requestId).buffer.cells = s.buffer.cells ∧
      ∀ history, s.buffer.Logs history →
        (s.compactCompletedRequest requestId).buffer.Logs history := by
    refine compactFrom_rule (P := fun t => t.nextSlot = s.nextSlot ∧
      t.buffer.cells = s.buffer.cells ∧
      ∀ history, s.buffer.Logs history → t.buffer.Logs history) _ ?_
      ⟨rfl, rfl, fun _ hlogs => hlogs⟩
    intro t cursor id ht _
    exact ⟨ht.1, ht.2.1, fun history hlogs => (ht.2.2 history hlogs).congr rfl rfl rfl rfl⟩
  refine .quiet rfl hplaced (Nat.le_of_eq hsame.1.symm) ?_ hsame.2.2
  rw [hsame.2.1]
  exact List.Subset.refl _

/-- A release is not logged. -/
theorem releaseCompletedRequest_stepEvictions (h : s.Placed) (requestId : Text) :
    StepEvictions hrtime s (.releaseCompletedRequest requestId)
      (s.releaseCompletedRequest hrtime requestId) := by
  obtain ⟨hplaced, subset, _⟩ := releaseCompletedRequest_placed hrtime h requestId
  have hsame : (s.releaseCompletedRequest hrtime requestId).nextSlot = s.nextSlot ∧
      ∀ history, s.buffer.Logs history →
        (s.releaseCompletedRequest hrtime requestId).buffer.Logs history := by
    refine releaseFrom_rule (P := fun t => t.nextSlot = s.nextSlot ∧
      ∀ history, s.buffer.Logs history → t.buffer.Logs history) _ ?_
      ⟨rfl, fun _ hlogs => hlogs.congr rfl rfl rfl rfl⟩
    intro t cursor id ht _
    refine ⟨ht.1, fun history hlogs => ?_⟩
    have hcompacted : (t.compactStored id).buffer.Logs history :=
      (ht.2 history hlogs).congr rfl rfl rfl rfl
    exact hcompacted.evictIndex_released hrtime _ _
  exact .quiet rfl hplaced (Nat.le_of_eq hsame.1.symm) subset hsame.2

/-- A step on the buffer's window and counters alone. -/
theorem stepEvictions_of_ring (evicted : s.evictedBy hrtime a = []) (h : s.Placed)
    (ring : t.buffer.toRingBuffer = s.buffer.toRingBuffer)
    (slotCount : t.buffer.slotCount = s.buffer.slotCount)
    (storedSlots : t.buffer.storedSlots = s.buffer.storedSlots)
    (nextSlot : t.nextSlot = s.nextSlot)
    (logs : ∀ history, s.buffer.Logs history → t.buffer.Logs history) :
    StepEvictions hrtime s a t := by
  have htracked : t.buffer.Tracked := h.tracked.congr ring slotCount storedSlots
  refine .quiet evicted ⟨htracked, ?_⟩ (Nat.le_of_eq nextSlot.symm) ?_ logs
  · rw [ring, nextSlot]
    exact h.allocated
  · rw [ring]
    exact List.Subset.refl _

theorem clear_stepEvictions (h : s.Placed) :
    StepEvictions hrtime s .clear { s with buffer := s.buffer.clear } := by
  refine .quiet rfl (clear_placed h).1 (Nat.le_refl _) ?_ ?_
  · rw [IOEventBuffer.clear_cells h.tracked.accounted]
    exact List.nil_subset _
  · intro history hlogs
    exact hlogs.congr rfl rfl rfl rfl

theorem compactDetachedSlot_stepEvictions (h : s.Placed) (id : SlotId) :
    StepEvictions hrtime s (.compactDetachedSlot id) (s.compactDetachedSlot id) := by
  rw [compactDetachedSlot]
  split
  · exact stepEvictions_of_ring rfl h rfl rfl rfl rfl fun _ hlogs => hlogs
  · exact stepEvictions_of_ring rfl h rfl rfl rfl rfl fun _ hlogs => hlogs

theorem step_stepEvictions (h : s.Placed) (a : Action) :
    StepEvictions hrtime s a (s.step hrtime a) := by
  cases a with
  | push event => exact push_stepEvictions h event
  | updatePayloadBytes oldBytes newBytes slot =>
      exact updatePayloadBytes_stepEvictions h oldBytes newBytes slot
  | compactCompletedRequest requestId => exact compactCompletedRequest_stepEvictions h requestId
  | releaseCompletedRequest requestId => exact releaseCompletedRequest_stepEvictions h requestId
  | compactDetachedSlot slot => exact compactDetachedSlot_stepEvictions h slot
  | clear => exact clear_stepEvictions h
  | filterByRequestId requestId =>
      exact stepEvictions_of_ring rfl h rfl rfl rfl rfl fun _ hlogs =>
        hlogs.congr rfl rfl rfl rfl
  | record slot event estimatedBytes =>
      exact stepEvictions_of_ring rfl h rfl rfl rfl rfl fun _ hlogs => hlogs
  | tick => exact stepEvictions_of_ring rfl h rfl rfl rfl rfl fun _ hlogs => hlogs
  | merge received => exact stepEvictions_of_ring rfl h rfl rfl rfl rfl fun _ hlogs => hlogs

end BufferState

/-! ## Runs -/

/-- A state and what was evicted and released on the way to it. -/
structure EvictionRun where
  state : BufferState
  evicted : List (SlotId × EvictionRecord)
  released : List SlotId

namespace EvictionRun

open BufferState

variable {hrtime : Nat → Int} {r : EvictionRun}

/-- A step collects the slots it evicts, with the records of their evictions, and those it
releases. -/
def step (hrtime : Nat → Int) (r : EvictionRun) (a : Action) : EvictionRun :=
  let evicted := r.state.evictedBy hrtime a
  let state := r.state.step hrtime a
  { state
    evicted := r.evicted ++
      evicted.zip (evictionRecords hrtime state.heap r.evicted.length evicted)
    released := r.released ++ r.state.releasedBy hrtime a }

def system (hrtime : Nat → Int) : Transition.System EvictionRun Action where
  init r := Initial r.state ∧ r.evicted = [] ∧ r.released = []
  step r a := some (r.step hrtime a)

/-- The log is the end of the history, as long as its capacity allows; the history is counted; and
no released slot is in it. -/
structure LogAgrees (r : EvictionRun) : Prop where
  log : r.state.buffer.getEvictionLog =
    (r.evicted.map Prod.snd).rtake (min r.evicted.length 100)
  count : r.state.buffer.getOverflowCount = r.evicted.length
  released : ∀ id ∈ r.released, id ∉ r.evicted.map Prod.fst

/-- The invariant: slots that were evicted or released are not stored again. -/
structure Sifted (r : EvictionRun) : Prop where
  placed : r.state.Placed
  logs : r.state.buffer.Logs (r.evicted.map Prod.snd)
  evicted : ∀ id ∈ r.evicted.map Prod.fst, id < r.state.nextSlot ∧ id ∉ r.state.buffer.cells
  released : ∀ id ∈ r.released, id < r.state.nextSlot ∧ id ∉ r.state.buffer.cells
  apart : ∀ id ∈ r.released, id ∉ r.evicted.map Prod.fst

theorem Sifted.logAgrees (h : r.Sifted) : r.LogAgrees where
  log := by
    have hlength : r.evicted.length - 100 = r.evicted.length - min r.evicted.length 100 := by omega
    rw [h.logs.getEvictionLog, IOEventBuffer.evictionLogCapacity, List.rtake, List.rtake,
      List.length_map, hlength]
  count := by
    rw [IOEventBuffer.getOverflowCount, h.logs.overflow, List.length_map]
  released := h.apart

theorem step_records (hrtime : Nat → Int) (r : EvictionRun) (a : Action) :
    (r.step hrtime a).evicted.map Prod.snd = r.evicted.map Prod.snd ++
      evictionRecords hrtime (r.step hrtime a).state.heap r.evicted.length
        (r.state.evictedBy hrtime a) := by
  rw [step, List.map_append, List.map_snd_zip]
  rw [length_evictionRecords]

theorem step_slots (hrtime : Nat → Int) (r : EvictionRun) (a : Action) :
    (r.step hrtime a).evicted.map Prod.fst =
      r.evicted.map Prod.fst ++ r.state.evictedBy hrtime a := by
  rw [step, List.map_append, List.map_fst_zip]
  rw [length_evictionRecords]

/-- A slot is not both evicted and released by one step. -/
theorem evictedBy_eq_nil {s : BufferState} {a : Action} {id : SlotId}
    (h : id ∈ s.releasedBy hrtime a) : s.evictedBy hrtime a = [] := by
  cases a with
  | releaseCompletedRequest requestId => rfl
  | _ => exact absurd h List.not_mem_nil

theorem mem_releasedBy {s : BufferState} {a : Action} {id : SlotId}
    (h : id ∈ s.releasedBy hrtime a) :
    id ∈ s.buffer.cells ∧ id ∉ (s.step hrtime a).buffer.cells := by
  cases a with
  | releaseCompletedRequest requestId =>
      rw [releasedBy, List.mem_filter, decide_eq_true_eq] at h
      exact h
  | _ => exact absurd h List.not_mem_nil

theorem Sifted.step (h : r.Sifted) (a : Action) : (r.step hrtime a).Sifted := by
  have spec : StepEvictions hrtime r.state a (r.step hrtime a).state :=
    step_stepEvictions h.placed a
  -- what was gone before the step is gone after it
  have gone (id : SlotId) (hid : id < r.state.nextSlot ∧ id ∉ r.state.buffer.cells) :
      id < (r.step hrtime a).state.nextSlot ∧ id ∉ (r.step hrtime a).state.buffer.cells :=
    ⟨Nat.lt_of_lt_of_le hid.1 spec.nextSlot, fun hmem =>
      (spec.kept id hmem).elim hid.2 (Nat.not_le_of_lt hid.1)⟩
  refine ⟨spec.placed, ?_, ?_, ?_, ?_⟩
  · have hlogs := spec.logs _ h.logs
    rwa [List.length_map, ← step_records] at hlogs
  · intro id hid
    rw [step_slots, List.mem_append] at hid
    rcases hid with hid | hid
    · exact gone id (h.evicted id hid)
    · obtain ⟨hold, hnew⟩ := spec.evicted id hid
      exact ⟨Nat.lt_of_lt_of_le (h.placed.allocated id hold) spec.nextSlot, hnew⟩
  · intro id hid
    rcases List.mem_append.mp hid with hid | hid
    · exact gone id (h.released id hid)
    · obtain ⟨hold, hnew⟩ := mem_releasedBy hid
      exact ⟨Nat.lt_of_lt_of_le (h.placed.allocated id hold) spec.nextSlot, hnew⟩
  · intro id hid
    rw [step_slots, List.mem_append, not_or]
    rcases List.mem_append.mp hid with hid | hid
    · exact ⟨h.apart id hid, fun hevicted =>
        (h.released id hid).2 (spec.evicted id hevicted).1⟩
    · rw [evictedBy_eq_nil hid]
      exact ⟨fun hevicted => (h.evicted id hevicted).2 (mem_releasedBy hid).1, List.not_mem_nil⟩

theorem sifted_preserved : (system hrtime).Preserved (fun _ _ => True) Sifted where
  init r h := by
    obtain ⟨⟨_, capacity, maxBytes, storeContextEvents, hpos, hbuffer⟩, hevicted, hreleased⟩ := h
    have hnone (id : SlotId) : id ∉ r.state.buffer.cells := by
      rw [hbuffer]
      intro hid
      obtain ⟨i, _, hi⟩ := List.mem_filterMap.mp hid
      exact nomatch hi
    have haccounted : r.state.buffer.Accounted := by
      rw [hbuffer]
      exact IOEventBuffer.new_accounted hpos maxBytes storeContextEvents
    have hcells : r.state.buffer.cells = [] := List.eq_nil_iff_forall_not_mem.mpr hnone
    refine ⟨⟨⟨haccounted, ?_, ?_⟩, ?_⟩, ?_, ?_, ?_, ?_⟩
    · rw [hcells]
      exact List.nodup_nil
    · exact fun id hid => absurd hid (hnone id)
    · exact fun id hid => absurd hid (hnone id)
    · rw [hbuffer, hevicted]
      exact ⟨RingLog.holds_nil, rfl, rfl, rfl⟩
    · rw [hevicted]
      exact fun id hid => absurd hid List.not_mem_nil
    · rw [hreleased]
      exact fun id hid => absurd hid List.not_mem_nil
    · rw [hreleased]
      exact fun id hid => absurd hid List.not_mem_nil
  step r a r' h _ hstep := by
    obtain rfl := Option.some.inj hstep
    exact h.step a

/-- In every run the log has the records of the last counted evictions, in their order. -/
theorem evictionLog_agrees (r₀ r : EvictionRun) (run : List Action)
    (init : (system hrtime).init r₀) (reached : (system hrtime).exec r₀ run = some r) :
    r.LogAgrees :=
  (sifted_preserved.exec init Transition.System.guarded_true reached).logAgrees

/-- One cell, so that every push evicts the slot of the one before. -/
def oneCell : EvictionRun where
  state := { smallBuffer with buffer := .new 1 100000 true }
  evicted := []
  released := []

def oneCellRun : List Action :=
  [.push (doneEvent ['a']), .push (doneEvent ['b']), .push (doneEvent ['c']),
    .releaseCompletedRequest ['c']]

/-- Two slots are evicted, and the last one is released. -/
theorem evictionLog_agrees_oneCell :
    ∃ r, (system fun k => 7 * k).exec oneCell oneCellRun = some r ∧
      (r.state.buffer.getEvictionLog.map fun record => (record.seq, record.evictedAt)) =
        [(1, 0), (2, 7)] ∧ r.released = [2] ∧ r.LogAgrees :=
  ⟨_, rfl, by decide +kernel, by decide +kernel,
    evictionLog_agrees oneCell _ oneCellRun
      ⟨⟨by decide, 1, 100000, true, by decide, rfl⟩, rfl, rfl⟩ rfl⟩

end EvictionRun

end ErrorCore
