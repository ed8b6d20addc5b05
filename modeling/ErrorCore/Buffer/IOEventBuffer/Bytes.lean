import ErrorCore.Buffer.IOEventBuffer.Window

/-!
# Byte accounting of the IO event buffer

`surplus` is what the byte counter has more than the stored slots account for.
No operation of the buffer changes it, except that `clear` makes it zero. It
moves with the writes of others: a slot rewritten without a report moves it
while the slot is stored, and a reported change moves it when the slot is one
that `clear` dropped, since `storedSlots` still has it.
-/

namespace ErrorCore

/-- The bytes the slots are estimated at, together. -/
def storedBytes (heap : Heap) : List SlotId → Int
  | [] => 0
  | id :: ids => (heap id).estimatedBytes + storedBytes heap ids

theorem storedBytes_perm (heap : Heap) {ids ids' : List SlotId} (h : ids.Perm ids') :
    storedBytes heap ids = storedBytes heap ids' := by
  induction h with
  | nil => rfl
  | cons id _ ih => rw [storedBytes, storedBytes, ih]
  | swap id other ids => rw [storedBytes, storedBytes, storedBytes, storedBytes, Int.add_left_comm]
  | trans _ _ ih ih' => rw [ih, ih']

theorem storedBytes_nonneg (heap : Heap) (ids : List SlotId) : 0 ≤ storedBytes heap ids := by
  induction ids with
  | nil => exact Int.le_refl _
  | cons id ids ih =>
      rw [storedBytes]
      omega

theorem storedBytes_of_not_mem {heap : Heap} {id : SlotId} {slot : IOEventSlot}
    {ids : List SlotId} (h : id ∉ ids) :
    storedBytes (Function.update heap id slot) ids = storedBytes heap ids := by
  induction ids with
  | nil => rfl
  | cons other ids ih =>
      obtain ⟨hne, hrest⟩ := List.ne_and_not_mem_of_not_mem_cons h
      rw [storedBytes, storedBytes, ih hrest, Function.update_of_ne (Ne.symm hne)]

/-- Rewriting a slot counts once. -/
theorem storedBytes_of_mem {heap : Heap} {id : SlotId} {slot : IOEventSlot} {ids : List SlotId}
    (nodup : ids.Nodup) (h : id ∈ ids) :
    storedBytes (Function.update heap id slot) ids =
      storedBytes heap ids + (slot.estimatedBytes - (heap id).estimatedBytes : Int) := by
  have hperm : ids.Perm (id :: ids.erase id) := List.perm_cons_erase h
  have hrest : id ∉ ids.erase id := nodup.not_mem_erase
  rw [storedBytes_perm _ hperm, storedBytes_perm heap hperm, storedBytes, storedBytes,
    storedBytes_of_not_mem hrest, Function.update_self]
  omega

namespace IOEventBuffer

/-- What the byte counter has too much. -/
def surplus (heap : Heap) (b : IOEventBuffer) : Int := b.payloadBytes - storedBytes heap b.cells

/-- Each slot is stored in one cell and known to `storedSlots`. -/
structure Tracked (b : IOEventBuffer) : Prop where
  accounted : b.Accounted
  nodup : b.cells.Nodup
  tracked : ∀ id ∈ b.cells, id ∈ b.storedSlots

variable {hrtime : Nat → Int} {heap : Heap} {b r : IOEventBuffer} {index : Nat} {id : SlotId}
variable {log : List Eviction}

/-- `r` has freed slots of `b`, each with its bytes. -/
structure Frees (heap : Heap) (b r : IOEventBuffer) : Prop where
  tracked : r.Tracked
  subset : r.cells ⊆ b.cells
  surplus : r.surplus heap = b.surplus heap

theorem Tracked.frees (h : b.Tracked) : b.Frees heap b := ⟨h, fun _ hid => hid, rfl⟩

theorem Evicts.frees (ev : b.Evicts heap index id log r) (h : b.Tracked) : b.Frees heap r := by
  have hnodup : (id :: r.cells).Nodup := ev.cells.nodup_iff.mp h.nodup
  have subset : r.cells ⊆ b.cells := fun _ hother =>
    ev.cells.mem_iff.mpr (List.mem_cons_of_mem _ hother)
  refine ⟨⟨ev.accounted, hnodup.of_cons, ?_⟩, subset, ?_⟩
  · intro other hother
    have hne : other ≠ id := by
      rintro rfl
      exact hnodup.notMem hother
    rw [ev.storedSlots, List.mem_filter, decide_eq_true_eq]
    exact ⟨h.tracked other (subset hother), hne⟩
  · rw [surplus, surplus, ev.payloadBytes, storedBytes_perm heap ev.cells, storedBytes]
    omega

theorem Frees.evicts (h : b.Frees heap r) {r' : IOEventBuffer}
    (ev : r.Evicts heap index id log r') : b.Frees heap r' where
  tracked := (ev.frees h.tracked).tracked
  subset _ hid := h.subset ((ev.frees h.tracked).subset hid)
  surplus := (ev.frees h.tracked).surplus.trans h.surplus

theorem makeRoom_frees (hrtime : Nat → Int) (heap : Heap) (id : SlotId) (h : b.Tracked) :
    b.Frees heap (b.makeRoom hrtime heap id) :=
  makeRoom_rule (P := fun r => b.Frees heap r) (fun _ _ _ _ _ _ hr _ ev => hr.evicts ev)
    h.accounted h.frees

theorem enforceByteBudget_frees (hrtime : Nat → Int) (heap : Heap) (h : b.Tracked)
    (incomingBytes : Int) :
    b.Frees heap (b.enforceByteBudget hrtime heap incomingBytes) := by
  refine enforceByteBudget_rule (P := fun r => b.Frees heap r) incomingBytes ?_ h.accounted h.frees
  intro r hr hcount hP
  obtain ⟨_, _, _, _, _, _, ev⟩ := evictOldest_evicts hrtime heap hr hcount
  exact hP.evicts ev

/-- Over budget, the evictions lower the counter if every stored slot has bytes. -/
theorem enforceByteBudget_payloadBytes_lt (hrtime : Nat → Int) (heap : Heap) (h : b.Accounted)
    (positive : ∀ id ∈ b.cells, 0 < (heap id).estimatedBytes) {incomingBytes : Int}
    (hover : b.OverBudget incomingBytes) :
    (b.enforceByteBudget hrtime heap incomingBytes).payloadBytes < b.payloadBytes := by
  obtain ⟨_, id, _, hid, _, _, ev⟩ := evictOldest_evicts hrtime heap h hover.2
  have hstep : b.enforceByteBudget hrtime heap incomingBytes =
      (b.evictOldest hrtime heap).enforceByteBudget hrtime heap incomingBytes := by
    rw [enforceByteBudget, ev.slotCount, enforceByteBudgetFrom, if_pos hover]
    rfl
  have hle : ((b.evictOldest hrtime heap).enforceByteBudget hrtime heap
      incomingBytes).payloadBytes ≤ (b.evictOldest hrtime heap).payloadBytes := by
    refine enforceByteBudget_rule
      (P := fun r => r.payloadBytes ≤ (b.evictOldest hrtime heap).payloadBytes) incomingBytes ?_
      ev.accounted (Int.le_refl _)
    intro r hr hcount hP
    obtain ⟨_, _, _, _, _, _, ev'⟩ := evictOldest_evicts hrtime heap hr hcount
    rw [ev'.payloadBytes]
    omega
  have hpos := positive id (h.covered.mem_cells_iff.mpr ⟨_, hid⟩)
  rw [hstep]
  rw [ev.payloadBytes] at hle
  omega

theorem Tracked.congr (h : b.Tracked) (ring : r.toRingBuffer = b.toRingBuffer)
    (slotCount : r.slotCount = b.slotCount) (storedSlots : r.storedSlots = b.storedSlots) :
    r.Tracked where
  accounted := h.accounted.congr ring slotCount
  nodup := by
    rw [ring]
    exact h.nodup
  tracked := by
    rw [ring, storedSlots]
    exact h.tracked

/-- A stored push adds its slot and the slot's bytes to what the evictions leave. -/
theorem storeSlot_surplus (hrtime : Nat → Int) (heap : Heap) (h : b.Tracked)
    (fresh : id ∉ b.cells) :
    (b.storeSlot hrtime heap id).Tracked ∧ (b.storeSlot hrtime heap id).cells ⊆ id :: b.cells ∧
      (b.storeSlot hrtime heap id).surplus heap = b.surplus heap := by
  have room := makeRoom_frees hrtime heap id h
  have hcells : (b.storeSlot hrtime heap id).cells.Perm (id :: (b.makeRoom hrtime heap id).cells) :=
    storeSlot_cells h.accounted
  refine ⟨⟨storeSlot_accounted h.accounted, ?_, ?_⟩, ?_, ?_⟩
  · exact hcells.nodup_iff.mpr
      (List.nodup_cons.mpr ⟨fun hmem => fresh (room.subset hmem), room.tracked.nodup⟩)
  · intro other hother
    have hstored : (b.storeSlot hrtime heap id).storedSlots =
        id :: (b.makeRoom hrtime heap id).storedSlots := rfl
    rw [hstored, List.mem_cons]
    exact (List.mem_cons.mp (hcells.mem_iff.mp hother)).imp_right (room.tracked.tracked other)
  · intro other hother
    exact List.cons_subset_cons id room.subset (hcells.mem_iff.mp hother)
  · have hbytes : (b.storeSlot hrtime heap id).payloadBytes =
        (b.makeRoom hrtime heap id).payloadBytes + (heap id).estimatedBytes := rfl
    rw [← room.surplus, surplus, surplus, hbytes, storedBytes_perm heap hcells, storedBytes]
    omega

/-- A report on a slot outside `storedSlots` changes nothing. -/
theorem updatePayloadBytes_of_not_mem (hid : id ∉ b.storedSlots) (oldBytes newBytes : Int) :
    b.updatePayloadBytes hrtime heap oldBytes newBytes (some id) = b := by
  simp only [updatePayloadBytes, Option.any_some, hid, not_false_eq_true, decide_true, if_true]

theorem updatePayloadBytes_of_mem (hid : id ∈ b.storedSlots) (oldBytes newBytes : Int) :
    b.updatePayloadBytes hrtime heap oldBytes newBytes (some id) =
      enforceByteBudget hrtime heap
        { b with
          requestIdIndex := none
          payloadBytes := b.payloadBytes + (newBytes - oldBytes) } 0 := by
  simp only [updatePayloadBytes, Option.any_some, hid, not_true_eq_false, decide_false,
    Bool.false_eq_true, if_false]

/-- Any other report moves the surplus by what it reports. -/
theorem updatePayloadBytes_surplus (hrtime : Nat → Int) (heap : Heap) (h : b.Tracked)
    (hid : id ∈ b.storedSlots) (oldBytes newBytes : Int) :
    (b.updatePayloadBytes hrtime heap oldBytes newBytes (some id)).Tracked ∧
      (b.updatePayloadBytes hrtime heap oldBytes newBytes (some id)).cells ⊆ b.cells ∧
      (b.updatePayloadBytes hrtime heap oldBytes newBytes (some id)).surplus heap =
        b.surplus heap + (newBytes - oldBytes) := by
  rw [updatePayloadBytes_of_mem hid]
  have hb : Tracked { b with
      requestIdIndex := none
      payloadBytes := b.payloadBytes + (newBytes - oldBytes) } := h.congr rfl rfl rfl
  have frees := enforceByteBudget_frees hrtime heap hb 0
  refine ⟨frees.tracked, frees.subset, ?_⟩
  rw [frees.surplus, surplus, surplus]
  simp only
  omega

theorem clear_cells (h : b.Accounted) : b.clear.cells = [] :=
  List.filterMap_eq_nil_iff.mpr fun i _ => clear_slots h i

theorem clear_tracked (h : b.Tracked) : b.clear.Tracked where
  accounted := clear_accounted h.accounted
  nodup := by
    rw [clear_cells h.accounted]
    exact List.nodup_nil
  tracked := by
    rw [clear_cells h.accounted]
    intro id hid
    exact nomatch hid

end IOEventBuffer

namespace BufferState

/-- The window and `storedSlots` agree on the stored slots, which are allocated. -/
structure Placed (s : BufferState) : Prop where
  tracked : s.buffer.Tracked
  allocated : ∀ id ∈ s.buffer.cells, id < s.nextSlot

/-- What holds in every state: the window and `storedSlots` agree on the stored slots, which are
allocated and have bytes. -/
structure Sound (s : BufferState) : Prop where
  tracked : s.buffer.Tracked
  allocated : ∀ id ∈ s.buffer.cells, id < s.nextSlot
  positive : ∀ id ∈ s.buffer.cells, 0 < (s.heap id).estimatedBytes

def surplus (s : BufferState) : Int := s.buffer.surplus s.heap

/-- The counter is the sum of the stored slots. -/
def BytesAgree (s : BufferState) : Prop :=
  s.buffer.payloadBytes = storedBytes s.heap s.buffer.cells

instance (s : BufferState) : Decidable s.BytesAgree := by
  unfold BytesAgree
  infer_instance

/-- `clear` dropped the slot, and `storedSlots` still has it. -/
def Cleared (s : BufferState) (id : SlotId) : Prop :=
  id ∈ s.buffer.storedSlots ∧ id ∉ s.buffer.cells

instance (s : BufferState) (id : SlotId) : Decidable (s.Cleared id) := by
  unfold Cleared
  infer_instance

/-- A report of `bytes` for the slot meets a slot that is stored or forgotten, or it has nothing to
report and finds the buffer within its budget. -/
def MayReport (s : BufferState) (id : SlotId) (bytes : Int) : Prop :=
  s.Cleared id → bytes = 0 ∧ ¬ s.buffer.OverBudget 0

instance (s : BufferState) (id : SlotId) (bytes : Int) : Decidable (s.MayReport id bytes) := by
  unfold MayReport
  infer_instance

/-- A slot rewritten by its recorder. -/
def withSlot (s : BufferState) (id : SlotId) (slot : IOEventSlot) : BufferState :=
  { s with heap := Function.update s.heap id slot }

/-- A change reported for a slot. -/
def reportBytes (hrtime : Nat → Int) (s : BufferState) (id : SlotId) (oldBytes newBytes : Nat) :
    BufferState :=
  { s with buffer := s.buffer.updatePayloadBytes hrtime s.heap oldBytes newBytes (some id) }

variable {hrtime : Nat → Int} {s : BufferState} {requestId : Text} {id : SlotId}
variable {slot : IOEventSlot}

theorem bytesAgree_iff : s.BytesAgree ↔ s.surplus = 0 := by
  rw [BytesAgree, surplus, IOEventBuffer.surplus]
  omega

theorem BytesAgree.nonneg (h : s.BytesAgree) : 0 ≤ s.buffer.payloadBytes := by
  rw [h]
  exact storedBytes_nonneg _ _

/-! ## What the operations do to the surplus -/

theorem Sound.placed (h : s.Sound) : s.Placed := ⟨h.tracked, h.allocated⟩

theorem withSlot_placed (h : s.Placed) (id : SlotId) (slot : IOEventSlot) :
    (s.withSlot id slot).Placed ∧
      (s.withSlot id slot).surplus = s.surplus -
        (if id ∈ s.buffer.cells then
          (slot.estimatedBytes - (s.heap id).estimatedBytes : Int) else 0) := by
  refine ⟨⟨h.tracked, h.allocated⟩, ?_⟩
  simp only [surplus, IOEventBuffer.surplus, withSlot]
  by_cases hid : id ∈ s.buffer.cells
  · rw [if_pos hid, storedBytes_of_mem h.tracked.nodup hid]
    omega
  · rw [if_neg hid, storedBytes_of_not_mem hid]
    omega

theorem withSlot_surplus (h : s.Sound)
    (positive : id ∈ s.buffer.cells → 0 < slot.estimatedBytes) :
    (s.withSlot id slot).Sound ∧
      (s.withSlot id slot).surplus = s.surplus -
        (if id ∈ s.buffer.cells then
          (slot.estimatedBytes - (s.heap id).estimatedBytes : Int) else 0) := by
  refine ⟨⟨h.tracked, h.allocated, ?_⟩, (withSlot_placed h.placed id slot).2⟩
  intro other hother
  by_cases heq : other = id
  · rw [heq] at hother ⊢
    simpa only [withSlot, Function.update_self] using positive hother
  · simpa only [withSlot, Function.update_of_ne heq] using h.positive other hother

/-- A step on the buffer alone that stores nothing new. -/
theorem Placed.withBuffer (h : s.Placed) {buffer : IOEventBuffer} (tracked : buffer.Tracked)
    (subset : buffer.cells ⊆ s.buffer.cells) : Placed { s with buffer } :=
  ⟨tracked, fun id hid => h.allocated id (subset hid)⟩

theorem Sound.withBuffer (h : s.Sound) {buffer : IOEventBuffer} (tracked : buffer.Tracked)
    (subset : buffer.cells ⊆ s.buffer.cells) : Sound { s with buffer } where
  tracked := tracked
  allocated id hid := h.allocated id (subset hid)
  positive id hid := h.positive id (subset hid)

theorem reportBytes_placed (hrtime : Nat → Int) (id : SlotId) (h : s.Placed)
    (oldBytes newBytes : Nat) :
    (s.reportBytes hrtime id oldBytes newBytes).Placed ∧
      (s.reportBytes hrtime id oldBytes newBytes).buffer.cells ⊆ s.buffer.cells ∧
      (s.reportBytes hrtime id oldBytes newBytes).surplus = s.surplus +
        (if id ∈ s.buffer.storedSlots then (newBytes - oldBytes : Int) else 0) := by
  by_cases hid : id ∈ s.buffer.storedSlots
  · obtain ⟨tracked, subset, hsurplus⟩ :=
      IOEventBuffer.updatePayloadBytes_surplus hrtime s.heap h.tracked hid oldBytes newBytes
    rw [if_pos hid]
    exact ⟨h.withBuffer tracked subset, subset, hsurplus⟩
  · have hsame : s.reportBytes hrtime id oldBytes newBytes = s := by
      rw [reportBytes, IOEventBuffer.updatePayloadBytes_of_not_mem hid]
    rw [hsame, if_neg hid, Int.add_zero]
    exact ⟨h, List.Subset.refl _, rfl⟩

/-- A slot rewritten and the change reported: the surplus moves if `clear` dropped the slot. -/
theorem report_placed (hrtime : Nat → Int) (h : s.Placed) (id : SlotId) (slot : IOEventSlot) :
    ((s.withSlot id slot).reportBytes hrtime id (s.heap id).estimatedBytes
        slot.estimatedBytes).Placed ∧
      ((s.withSlot id slot).reportBytes hrtime id (s.heap id).estimatedBytes
          slot.estimatedBytes).buffer.cells ⊆ s.buffer.cells ∧
      ((s.withSlot id slot).reportBytes hrtime id (s.heap id).estimatedBytes
          slot.estimatedBytes).surplus = s.surplus +
        (if s.Cleared id then
          (slot.estimatedBytes - (s.heap id).estimatedBytes : Int) else 0) := by
  obtain ⟨hslot, hwritten⟩ := withSlot_placed h id slot
  obtain ⟨hplaced, subset, hreported⟩ :=
    reportBytes_placed hrtime id hslot (s.heap id).estimatedBytes slot.estimatedBytes
  refine ⟨hplaced, subset, ?_⟩
  have hstored : (s.withSlot id slot).buffer.storedSlots = s.buffer.storedSlots := rfl
  rw [hreported, hwritten, hstored]
  by_cases hid : id ∈ s.buffer.cells
  · have hcleared : ¬ s.Cleared id := fun hcleared => hcleared.2 hid
    rw [if_pos hid, if_pos (h.tracked.tracked id hid), if_neg hcleared]
    omega
  · by_cases hmem : id ∈ s.buffer.storedSlots
    · rw [if_neg hid, if_pos hmem, if_pos ⟨hmem, hid⟩]
      omega
    · have hcleared : ¬ s.Cleared id := fun hcleared => hmem hcleared.1
      rw [if_neg hid, if_neg hmem, if_neg hcleared]
      omega

theorem report_surplus (hrtime : Nat → Int) (h : s.Sound)
    (positive : id ∈ s.buffer.cells → 0 < slot.estimatedBytes) :
    ((s.withSlot id slot).reportBytes hrtime id (s.heap id).estimatedBytes
        slot.estimatedBytes).Sound ∧
      ((s.withSlot id slot).reportBytes hrtime id (s.heap id).estimatedBytes
          slot.estimatedBytes).surplus = s.surplus +
        (if s.Cleared id then
          (slot.estimatedBytes - (s.heap id).estimatedBytes : Int) else 0) := by
  obtain ⟨hplaced, subset, hsurplus⟩ := report_placed hrtime h.placed id slot
  have hslot := (withSlot_surplus h positive).1
  exact ⟨⟨hplaced.tracked, hplaced.allocated, fun other hother =>
    hslot.positive other (subset hother)⟩, hsurplus⟩

/-- A report that may be made for a slot that is not stored does not touch the counter. -/
theorem report_payloadBytes (hid : id ∉ s.buffer.cells)
    (may : s.MayReport id (slot.estimatedBytes - (s.heap id).estimatedBytes : Int)) :
    ((s.withSlot id slot).reportBytes hrtime id (s.heap id).estimatedBytes
      slot.estimatedBytes).buffer.payloadBytes = s.buffer.payloadBytes := by
  rw [reportBytes, withSlot]
  by_cases hmem : id ∈ s.buffer.storedSlots
  · obtain ⟨hzero, hbudget⟩ := may ⟨hmem, hid⟩
    simp only [IOEventBuffer.updatePayloadBytes_of_mem hmem, hzero, Int.add_zero]
    rw [IOEventBuffer.enforceByteBudget_of_not_overBudget]
    exact hbudget
  · simp only [IOEventBuffer.updatePayloadBytes_of_not_mem hmem]

/-- Conversely, a report that touches neither the surplus nor the counter may be made. -/
theorem mayReport_of_payloadBytes (hrtime : Nat → Int) (h : s.Sound)
    (zero : s.Cleared id → (slot.estimatedBytes - (s.heap id).estimatedBytes : Int) = 0)
    (kept : id ∉ s.buffer.cells →
      ((s.withSlot id slot).reportBytes hrtime id (s.heap id).estimatedBytes
        slot.estimatedBytes).buffer.payloadBytes = s.buffer.payloadBytes) :
    s.MayReport id (slot.estimatedBytes - (s.heap id).estimatedBytes : Int) := by
  intro hcleared
  refine ⟨zero hcleared, ?_⟩
  intro hover
  have hkept := kept hcleared.2
  simp only [reportBytes, withSlot, IOEventBuffer.updatePayloadBytes_of_mem hcleared.1,
    zero hcleared, Int.add_zero] at hkept
  have hlt := IOEventBuffer.enforceByteBudget_payloadBytes_lt hrtime
    (Function.update s.heap id slot) (b := { s.buffer with requestIdIndex := none })
    (h.tracked.accounted.congr rfl rfl) ?_ hover
  · exact Int.lt_irrefl _ (hkept ▸ hlt)
  · intro other hother
    have hne : other ≠ id := by
      rintro rfl
      exact hcleared.2 hother
    rw [Function.update_of_ne hne]
    exact h.positive other hother

/-- A step that leaves the stored slots sound and moves the surplus by nothing. -/
def Balanced (s t : BufferState) : Prop := t.Sound ∧ t.surplus = s.surplus

theorem push_placed (hrtime : Nat → Int) (h : s.Placed) (event : PushableIOEvent) :
    (s.push hrtime event).Placed ∧
      (s.push hrtime event).buffer.cells ⊆ s.nextSlot :: s.buffer.cells ∧
      (s.push hrtime event).surplus = s.surplus := by
  let slot : IOEventSlot :=
    { event with
      seq := s.clock.tick.value
      estimatedBytes := estimateBytes event.requestBody event.responseBody }
  let heap := Function.update s.heap s.nextSlot slot
  let buffer := { s.buffer with requestIdIndex := none }
  have fresh : s.nextSlot ∉ s.buffer.cells := fun hmem => Nat.lt_irrefl _ (h.allocated _ hmem)
  have hbuffer : buffer.Tracked := h.tracked.congr rfl rfl rfl
  have hsurplus : buffer.surplus heap = s.surplus := by
    simp only [IOEventBuffer.surplus, surplus, buffer, heap, storedBytes_of_not_mem fresh]
  have hpush : s.push hrtime event =
      { heap, clock := s.clock.tick, nextSlot := s.nextSlot + 1
        buffer := if keepsSlot buffer event then buffer.storeSlot hrtime heap s.nextSlot
          else buffer } := rfl
  rw [hpush]
  by_cases hkeeps : keepsSlot buffer event
  · rw [if_pos hkeeps]
    obtain ⟨tracked, subset, hstored⟩ :=
      IOEventBuffer.storeSlot_surplus hrtime heap hbuffer fresh
    refine ⟨⟨tracked, ?_⟩, subset, hstored.trans hsurplus⟩
    intro id hid
    rcases List.mem_cons.mp (subset hid) with rfl | hid
    · exact Nat.lt_succ_self _
    · exact Nat.lt_succ_of_lt (h.allocated id hid)
  · rw [if_neg hkeeps]
    exact ⟨⟨hbuffer, fun id hid => Nat.lt_succ_of_lt (h.allocated id hid)⟩,
      List.subset_cons_self _ _, hsurplus⟩

theorem push_balanced (h : s.Sound) (event : PushableIOEvent) :
    s.Balanced (s.push hrtime event) := by
  obtain ⟨hplaced, subset, hsurplus⟩ := push_placed hrtime h.placed event
  refine ⟨⟨hplaced.tracked, hplaced.allocated, ?_⟩, hsurplus⟩
  intro id hid
  rcases List.mem_cons.mp (subset hid) with rfl | hold
  · simp only [push, Function.update_self, estimateBytes, metadataOverhead]
    omega
  · have hne : id ≠ s.nextSlot := Nat.ne_of_lt (h.allocated id hold)
    simpa only [push, Function.update_of_ne hne] using h.positive id hold

theorem compactStored_placed (h : s.Placed) (hid : id ∈ s.buffer.cells) :
    (s.compactStored id).Placed ∧ (s.compactStored id).surplus = s.surplus := by
  obtain ⟨_, hsurplus⟩ := withSlot_placed h id (compactSuccessfulSlot (s.heap id))
  rw [if_pos hid] at hsurplus
  refine ⟨⟨h.tracked.congr rfl rfl rfl, h.allocated⟩, ?_⟩
  simp only [surplus, IOEventBuffer.surplus, withSlot, compactStored] at hsurplus ⊢
  omega

theorem compactStored_balanced (h : s.Sound) (hid : id ∈ s.buffer.cells) :
    s.Balanced (s.compactStored id) := by
  obtain ⟨hplaced, hsurplus⟩ := compactStored_placed h.placed hid
  have hpos : 0 < (compactSuccessfulSlot (s.heap id)).estimatedBytes := Nat.succ_pos _
  obtain ⟨hsound, _⟩ := withSlot_surplus h (fun _ : id ∈ s.buffer.cells => hpos)
  exact ⟨⟨hplaced.tracked, hplaced.allocated, hsound.positive⟩, hsurplus⟩

theorem mem_cells_of_completedAt {cursor : Nat} (h : s.Placed)
    (hdone : s.completedAt requestId cursor = some id) : id ∈ s.buffer.cells :=
  h.tracked.accounted.covered.mem_cells_iff.mpr ⟨_, (completedAt_spec hdone).1⟩

theorem releaseStored_placed {cursor : Nat} (h : s.Placed)
    (hdone : s.completedAt requestId cursor = some id) :
    (s.releaseStored hrtime cursor id).Placed ∧
      (s.releaseStored hrtime cursor id).buffer.cells ⊆ s.buffer.cells ∧
      (s.releaseStored hrtime cursor id).surplus = s.surplus := by
  obtain ⟨hplaced, hsurplus⟩ := compactStored_placed h (mem_cells_of_completedAt h hdone)
  have ev := IOEventBuffer.evictIndex_evicts hrtime (s.compactStored id).heap false
    hplaced.tracked.accounted (completedAt_spec hdone).1
  have frees := ev.frees hplaced.tracked
  exact ⟨hplaced.withBuffer frees.tracked frees.subset, frees.subset, frees.surplus.trans hsurplus⟩

theorem releaseStored_balanced {cursor : Nat} (h : s.Sound)
    (hdone : s.completedAt requestId cursor = some id) :
    s.Balanced (s.releaseStored hrtime cursor id) := by
  obtain ⟨hplaced, subset, hsurplus⟩ := releaseStored_placed h.placed hdone
  have hsound := (compactStored_balanced h (mem_cells_of_completedAt h.placed hdone)).1
  exact ⟨⟨hplaced.tracked, hplaced.allocated, fun other hother =>
    hsound.positive other (subset hother)⟩, hsurplus⟩

theorem compactFrom_balanced (h : s.Sound) (cursors : List Nat) :
    s.Balanced (s.compactFrom requestId cursors) := by
  refine compactFrom_rule (P := fun t => s.Balanced t) cursors ?_ ⟨h, rfl⟩
  intro t cursor id ht hdone
  obtain ⟨hsound, hsurplus⟩ :=
    compactStored_balanced ht.1 (mem_cells_of_completedAt ht.1.placed hdone)
  exact ⟨hsound, hsurplus.trans ht.2⟩

theorem compactCompletedRequest_placed (h : s.Placed) (requestId : Text) :
    (s.compactCompletedRequest requestId).Placed ∧
      (s.compactCompletedRequest requestId).surplus = s.surplus := by
  refine compactFrom_rule (P := fun t => t.Placed ∧ t.surplus = s.surplus) _ ?_ ⟨h, rfl⟩
  intro t cursor id ht hdone
  obtain ⟨hplaced, hsurplus⟩ := compactStored_placed ht.1 (mem_cells_of_completedAt ht.1 hdone)
  exact ⟨hplaced, hsurplus.trans ht.2⟩

theorem releaseFrom_balanced (h : s.Sound) (cursors : List Nat) :
    s.Balanced (s.releaseFrom hrtime requestId cursors) := by
  refine releaseFrom_rule (P := fun t => s.Balanced t) cursors ?_ ⟨h, rfl⟩
  intro t cursor id ht hdone
  obtain ⟨hsound, hsurplus⟩ := releaseStored_balanced ht.1 hdone
  exact ⟨hsound, hsurplus.trans ht.2⟩

theorem releaseCompletedRequest_balanced (h : s.Sound) (requestId : Text) :
    s.Balanced (s.releaseCompletedRequest hrtime requestId) := by
  have hstart : Sound { s with buffer := { s.buffer with requestIdIndex := none } } :=
    ⟨h.tracked.congr rfl rfl rfl, h.allocated, h.positive⟩
  exact releaseFrom_balanced hstart _

theorem releaseCompletedRequest_placed (hrtime : Nat → Int) (h : s.Placed) (requestId : Text) :
    (s.releaseCompletedRequest hrtime requestId).Placed ∧
      (s.releaseCompletedRequest hrtime requestId).buffer.cells ⊆ s.buffer.cells ∧
      (s.releaseCompletedRequest hrtime requestId).surplus = s.surplus := by
  have hstart : Placed { s with buffer := { s.buffer with requestIdIndex := none } } :=
    ⟨h.tracked.congr rfl rfl rfl, h.allocated⟩
  refine releaseFrom_rule
    (P := fun t => t.Placed ∧ t.buffer.cells ⊆ s.buffer.cells ∧ t.surplus = s.surplus) _ ?_
    ⟨hstart, List.Subset.refl _, rfl⟩
  intro t cursor id ht hdone
  obtain ⟨hplaced, subset, hsurplus⟩ := releaseStored_placed ht.1 hdone
  exact ⟨hplaced, List.Subset.trans subset ht.2.1, hsurplus.trans ht.2.2⟩

/-- `clear` leaves no surplus, whatever there was. -/
theorem clear_placed (h : s.Placed) :
    Placed { s with buffer := s.buffer.clear } ∧
      surplus { s with buffer := s.buffer.clear } = 0 := by
  have hcells := IOEventBuffer.clear_cells h.tracked.accounted
  refine ⟨h.withBuffer (IOEventBuffer.clear_tracked h.tracked) ?_, ?_⟩
  · rw [hcells]
    exact List.nil_subset _
  · rw [surplus, IOEventBuffer.surplus, hcells]
    rfl

theorem clear_surplus (h : s.Sound) :
    Sound { s with buffer := s.buffer.clear } ∧
      surplus { s with buffer := s.buffer.clear } = 0 := by
  refine ⟨h.withBuffer (IOEventBuffer.clear_tracked h.tracked) ?_, (clear_placed h.placed).2⟩
  rw [IOEventBuffer.clear_cells h.tracked.accounted]
  exact List.nil_subset _

end BufferState

end ErrorCore
