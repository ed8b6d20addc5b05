import ErrorCore.Buffer.IOEventBuffer

/-!
# The window of the IO event buffer

`Accounted` holds after every sequence of operations: each stored slot has a
cursor between the heads and `slotCount` counts the occupied cells. It is what
makes the two eviction loops end by their own conditions: `evictOldest` always
finds the first occupied cursor, and `enforceByteBudget` stops within budget or
with an empty buffer.

`Chronological` adds the order of the window. It survives every operation that
only loses slots, and evictions then hit the smallest `seq`.
-/

namespace ErrorCore

/-- The evicted slot was the oldest of the stored ones. -/
def Eviction.Oldest (e : Eviction) : Prop := e.seq ∈ e.stored ∧ ∀ seq ∈ e.stored, e.seq ≤ seq

namespace IOEventBuffer

structure Accounted (b : IOEventBuffer) : Prop where
  covered : b.Covered
  count : b.slotCount = b.cells.length
  empty : b.slotCount = 0 → b.readHead = b.writeHead

/-- The window lists the stored slots once, by increasing key. -/
structure Chronological (key : SlotId → Nat) (b : IOEventBuffer) : Prop where
  accounted : b.Accounted
  fits : b.Fits
  sorted : b.Sorted key
  evictions : ∀ e ∈ b.evictions, e.Oldest

variable {hrtime : Nat → Int} {heap : Heap} {b r : IOEventBuffer} {index : Nat} {id : SlotId}
variable {countOverflow : Bool}

theorem Accounted.get_eq_none (h : b.Accounted) (hcount : b.slotCount = 0) (i : Nat) :
    b.slots i = none := by
  have hnil : b.cells = [] := by
    rw [← List.length_eq_zero_iff, ← h.count, hcount]
  by_contra hsome
  obtain ⟨id, hid⟩ := Option.ne_none_iff_exists'.mp hsome
  have hmem : id ∈ b.cells := h.covered.mem_cells_iff.mpr ⟨i, hid⟩
  rw [hnil] at hmem
  exact nomatch hmem

theorem Accounted.exists_stored (h : b.Accounted) (hcount : 0 < b.slotCount) :
    ∃ id, b.Stored id := by
  rw [h.count] at hcount
  obtain ⟨id, hid⟩ := List.exists_mem_of_length_pos hcount
  exact ⟨id, h.covered.mem_cells_iff.mp hid⟩

/-- The window does not depend on the byte counter and the request index. -/
theorem Accounted.congr (h : b.Accounted) (ring : r.toRingBuffer = b.toRingBuffer)
    (slotCount : r.slotCount = b.slotCount) : r.Accounted where
  covered := by
    rw [ring]
    exact h.covered
  count := by
    rw [ring, slotCount]
    exact h.count
  empty := by
    rw [ring, slotCount]
    exact h.empty

/-! ## `evictIndex` -/

/-- What `evictIndex` does to an occupied cell. -/
structure Evicts (b : IOEventBuffer) (heap : Heap) (index : Nat) (id : SlotId) (log : List Eviction)
    (r : IOEventBuffer) : Prop where
  shrinks : b.Shrinks r.toRingBuffer
  accounted : r.Accounted
  freed : r.slots index = none
  cells : b.cells.Perm (id :: r.cells)
  slotCount : b.slotCount = r.slotCount + 1
  head : index = b.readHead % b.capacity → b.readHead < r.readHead
  maxBytes : r.maxBytes = b.maxBytes
  payloadBytes : r.payloadBytes = b.payloadBytes - (heap id).estimatedBytes
  storedSlots : r.storedSlots = b.storedSlots.filter (· ≠ id)
  requestIdIndex : r.requestIdIndex = b.requestIdIndex
  evictions : r.evictions = log ++ b.evictions

/-- The log entry of a counted eviction. -/
def evictionOf (heap : Heap) (b : IOEventBuffer) (id : SlotId) : Eviction :=
  { seq := (heap id).seq, stored := b.cells.map fun other => (heap other).seq }

/-- `evictIndex` on an occupied cell, before the read head moves. -/
def withoutSlot (hrtime : Nat → Int) (heap : Heap) (b : IOEventBuffer) (index : Nat) (id : SlotId)
    (countOverflow : Bool) : IOEventBuffer :=
  (if countOverflow then b.logEviction hrtime heap id else b).removeSlot heap index id

@[simp] theorem withoutSlot_toRingBuffer :
    (b.withoutSlot hrtime heap index id countOverflow).toRingBuffer = b.erase index := by
  cases countOverflow <;> rfl

@[simp] theorem withoutSlot_slotCount :
    (b.withoutSlot hrtime heap index id countOverflow).slotCount = b.slotCount - 1 := by
  cases countOverflow <;> rfl

/-- The read head moves over cells that are empty once the slot is removed. -/
theorem settledReadHead_spec (hrtime : Nat → Int) (heap : Heap) (countOverflow : Bool)
    (h : b.Accounted) (hid : b.slots index = some id) :
    let cursor := (b.withoutSlot hrtime heap index id countOverflow).settledReadHead index
    b.readHead ≤ cursor ∧ cursor ≤ b.writeHead ∧
      (∀ c, b.readHead ≤ c → c < cursor → (b.erase index).get c = none) ∧
      (b.slotCount = 1 → cursor = b.writeHead) ∧
      (index = b.readHead % b.capacity → b.readHead < cursor) := by
  intro cursor
  obtain ⟨c, hread, hwrite, hc⟩ := h.covered.cursor index id hid
  have hcells : (b.erase index).cells.length = b.slotCount - 1 := by
    have hperm := RingBuffer.cells_perm_erase (h.covered.index_lt hid) hid
    rw [h.count, hperm.length_eq, List.length_cons, Nat.add_sub_cancel]
  have hcursor : cursor = if b.slotCount - 1 = 0 then b.writeHead
      else if index = b.readHead % b.capacity then b.readHead + 1 else b.readHead := by
    simp only [cursor, settledReadHead, withoutSlot_slotCount, withoutSlot_toRingBuffer,
      RingBuffer.erase_readHead, RingBuffer.erase_writeHead, RingBuffer.erase_capacity]
  rw [hcursor]
  by_cases hlast : b.slotCount - 1 = 0
  · rw [if_pos hlast]
    refine ⟨h.covered.heads, Nat.le_refl _, ?_, fun _ => rfl, fun _ => by omega⟩
    intro c' _ _
    by_contra hsome
    obtain ⟨other, hother⟩ := Option.ne_none_iff_exists'.mp hsome
    have hmem := (h.covered.erase index).mem_cells_iff.mpr ⟨_, hother⟩
    exact absurd (List.length_pos_of_mem hmem) (by omega)
  have hcount : b.slotCount ≠ 1 := by omega
  rw [if_neg hlast]
  by_cases hhead : index = b.readHead % b.capacity
  · rw [if_pos hhead]
    refine ⟨by omega, by omega, ?_, fun h1 => absurd h1 hcount, fun _ => Nat.lt_succ_self _⟩
    intro c' hle hlt
    obtain rfl : c' = b.readHead := by omega
    simp only [RingBuffer.get, RingBuffer.erase, ← hhead, Function.update_self]
  · rw [if_neg hhead]
    exact ⟨Nat.le_refl _, h.covered.heads, fun c' _ _ => by omega, fun h1 => absurd h1 hcount,
      fun heq => absurd heq hhead⟩

theorem evictIndex_eq (hid : b.slots index = some id) :
    b.evictIndex hrtime heap index countOverflow =
      { b.withoutSlot hrtime heap index id countOverflow with
        readHead := (b.withoutSlot hrtime heap index id countOverflow).settledReadHead index } := by
  simp only [evictIndex, hid]
  rfl

/-- `evictIndex` removes the slot of the cell and nothing else. -/
theorem evictIndex_evicts (hrtime : Nat → Int) (heap : Heap) (countOverflow : Bool)
    (h : b.Accounted) (hid : b.slots index = some id) :
    b.Evicts heap index id (if countOverflow then [b.evictionOf heap id] else [])
      (b.evictIndex hrtime heap index countOverflow) := by
  obtain ⟨hread, hwrite, passed, last, head⟩ :=
    settledReadHead_spec hrtime heap countOverflow h hid
  have hperm : b.cells.Perm (id :: (b.erase index).cells) :=
    RingBuffer.cells_perm_erase (h.covered.index_lt hid) hid
  have hcount : b.slotCount = (b.erase index).cells.length + 1 := by
    rw [h.count, hperm.length_eq, List.length_cons]
  have hring : (b.evictIndex hrtime heap index countOverflow).toRingBuffer =
      (b.erase index).advance
        ((b.withoutSlot hrtime heap index id countOverflow).settledReadHead index) := by
    rw [evictIndex_eq hid]
    cases countOverflow <;> rfl
  have hslotCount : (b.evictIndex hrtime heap index countOverflow).slotCount = b.slotCount - 1 := by
    rw [evictIndex_eq hid, ← withoutSlot_slotCount]
  refine
    { shrinks := ?_, accounted := ⟨?_, ?_, ?_⟩, freed := ?_, cells := ?_, slotCount := ?_,
      head := ?_, maxBytes := ?_, payloadBytes := ?_, storedSlots := ?_, requestIdIndex := ?_,
      evictions := ?_ }
  · rw [hring]
    exact (RingBuffer.Shrinks.erase _ index).trans (RingBuffer.Shrinks.advance hread)
  · rw [hring]
    exact (h.covered.erase index).advance hwrite passed
  · rw [hring, hslotCount, hcount, Nat.add_sub_cancel]
    rfl
  · intro hzero
    rw [hring]
    exact last (by omega)
  · rw [hring]
    simp only [RingBuffer.advance, RingBuffer.erase, Function.update_self]
  · rw [hring]
    exact hperm
  · rw [hslotCount]
    omega
  · rw [hring]
    exact head
  all_goals
    rw [evictIndex_eq hid]
    cases countOverflow <;> rfl

theorem evictIndex_of_none (hid : b.slots index = none) :
    b.evictIndex hrtime heap index countOverflow = b := by
  simp only [evictIndex, hid]

/-! ## `evictOldest` and `enforceByteBudget` -/

theorem Accounted.advance (h : b.Accounted) (hcount : 0 < b.slotCount) {cursor : Nat}
    (hwrite : cursor ≤ b.writeHead)
    (passed : ∀ c, b.readHead ≤ c → c < cursor → b.get c = none) :
    Accounted { b with readHead := cursor } where
  covered := h.covered.advance hwrite passed
  count := h.count
  empty hzero := absurd hzero (Nat.ne_of_gt hcount)

/-- With a slot in the window the loop ends at the first occupied cursor. -/
theorem evictOldestFrom_eq (hrtime : Nat → Int) (heap : Heap) {fuel : Nat} (h : b.Accounted)
    (hcount : 0 < b.slotCount) (hfuel : b.writeHead - b.readHead ≤ fuel) :
    ∃ cursor id, b.readHead ≤ cursor ∧ cursor < b.writeHead ∧ b.get cursor = some id ∧
      (∀ c, b.readHead ≤ c → c < cursor → b.get c = none) ∧
      evictOldestFrom hrtime heap fuel b =
        evictIndex hrtime heap { b with readHead := cursor } (cursor % b.capacity) true := by
  obtain ⟨other, i, hi⟩ := h.exists_stored hcount
  obtain ⟨c, hread, hwrite, _⟩ := h.covered.cursor i other hi
  induction fuel generalizing b c with
  | zero => omega
  | succ fuel ih =>
      rw [evictOldestFrom, if_pos (by omega)]
      cases hget : b.slots (b.readHead % b.capacity) with
      | some id =>
          refine ⟨b.readHead, id, Nat.le_refl _, by omega, hget, ?_, ?_⟩
          · intro c' hle hlt
            omega
          · rw [Option.isSome_some, if_pos rfl]
      | none =>
          rw [Option.isSome_none, if_neg Bool.false_ne_true]
          have passed : ∀ c', b.readHead ≤ c' → c' < b.readHead + 1 → b.get c' = none := by
            intro c' hle hlt
            obtain rfl : c' = b.readHead := by omega
            exact hget
          have hnext : Accounted { b with readHead := b.readHead + 1 } :=
            h.advance hcount (by omega) passed
          obtain ⟨c', hread', hwrite', hc'⟩ := hnext.covered.cursor i other hi
          obtain ⟨cursor, id, hle, hlt, hid, hfirst, heq⟩ :=
            ih hnext hcount (by simp only; omega) hi c' hread' hwrite' hc'
          refine ⟨cursor, id, Nat.le_of_succ_le hle, hlt, hid, ?_, heq⟩
          intro c'' hle' hlt'
          rcases Nat.eq_or_lt_of_le hle' with rfl | hpast
          · exact hget
          · exact hfirst c'' hpast hlt'

/-- `evictOldest` removes the slot of the first occupied cursor. -/
theorem evictOldest_evicts (hrtime : Nat → Int) (heap : Heap) (h : b.Accounted)
    (hcount : 0 < b.slotCount) :
    ∃ cursor id, b.readHead ≤ cursor ∧ b.get cursor = some id ∧
      (∀ c, b.readHead ≤ c → c < cursor → b.get c = none) ∧
      b.readHead < (b.evictOldest hrtime heap).readHead ∧
      b.Evicts heap (cursor % b.capacity) id [b.evictionOf heap id]
        (b.evictOldest hrtime heap) := by
  obtain ⟨cursor, id, hle, hlt, hid, hfirst, heq⟩ :=
    evictOldestFrom_eq hrtime heap h hcount (Nat.le_refl _)
  refine ⟨cursor, id, hle, hid, hfirst, ?_⟩
  rw [evictOldest, heq]
  have ev := evictIndex_evicts hrtime heap true (h.advance hcount (Nat.le_of_lt hlt) hfirst) hid
  have hread := ev.head rfl
  exact ⟨Nat.lt_of_le_of_lt hle hread, { ev with
    shrinks := (RingBuffer.Shrinks.advance hle).trans ev.shrinks
    head := fun _ => Nat.lt_of_le_of_lt hle hread }⟩

/-- What every `evictOldest` of a non-empty buffer keeps, `enforceByteBudget` keeps. -/
theorem enforceByteBudget_rule {P : IOEventBuffer → Prop} (incomingBytes : Int)
    (step : ∀ b, b.Accounted → 0 < b.slotCount → P b → P (b.evictOldest hrtime heap))
    (h : b.Accounted) (hP : P b) : P (b.enforceByteBudget hrtime heap incomingBytes) := by
  have loop (fuel : Nat) : P (enforceByteBudgetFrom hrtime heap incomingBytes fuel b) := by
    induction fuel generalizing b with
    | zero => exact hP
    | succ fuel ih =>
        rw [enforceByteBudgetFrom]
        by_cases hover : b.OverBudget incomingBytes
        · rw [if_pos hover]
          obtain ⟨_, _, _, _, _, _, ev⟩ := evictOldest_evicts hrtime heap h hover.2
          exact ih ev.accounted (step b h hover.2 hP)
        · rwa [if_neg hover]
  exact loop b.slotCount

theorem enforceByteBudget_accounted (h : b.Accounted) (incomingBytes : Int) :
    (b.enforceByteBudget hrtime heap incomingBytes).Accounted := by
  refine enforceByteBudget_rule incomingBytes ?_ h h
  intro b h hcount _
  obtain ⟨_, _, _, _, _, _, ev⟩ := evictOldest_evicts hrtime heap h hcount
  exact ev.accounted

theorem enforceByteBudget_shrinks (hrtime : Nat → Int) (heap : Heap) (h : b.Accounted)
    (incomingBytes : Int) :
    b.Shrinks (b.enforceByteBudget hrtime heap incomingBytes).toRingBuffer := by
  refine enforceByteBudget_rule (P := fun r => b.Shrinks r.toRingBuffer) incomingBytes ?_ h
    (RingBuffer.Shrinks.refl _)
  intro r h hcount hr
  obtain ⟨_, _, _, _, _, _, ev⟩ := evictOldest_evicts hrtime heap h hcount
  exact hr.trans ev.shrinks

/-- The loop ends within budget or with nothing stored. -/
theorem enforceByteBudget_not_overBudget (h : b.Accounted) (incomingBytes : Int) :
    ¬ (b.enforceByteBudget hrtime heap incomingBytes).OverBudget incomingBytes := by
  have loop (fuel : Nat) (hfuel : b.slotCount ≤ fuel) :
      ¬ (enforceByteBudgetFrom hrtime heap incomingBytes fuel b).OverBudget incomingBytes := by
    induction fuel generalizing b with
    | zero =>
        intro hover
        exact absurd hover.2 (by rw [enforceByteBudgetFrom]; omega)
    | succ fuel ih =>
        rw [enforceByteBudgetFrom]
        by_cases hover : b.OverBudget incomingBytes
        · rw [if_pos hover]
          obtain ⟨_, _, _, _, _, _, ev⟩ := evictOldest_evicts hrtime heap h hover.2
          have hcount := ev.slotCount
          exact ih ev.accounted (by omega)
        · rwa [if_neg hover]
  exact loop b.slotCount (Nat.le_refl _)

theorem enforceByteBudget_of_not_overBudget {incomingBytes : Int}
    (hover : ¬ b.OverBudget incomingBytes) : b.enforceByteBudget hrtime heap incomingBytes = b := by
  rw [enforceByteBudget]
  cases b.slotCount with
  | zero => rfl
  | succ fuel => rw [enforceByteBudgetFrom, if_neg hover]

/-- Over budget, the loop evicts at least once, so the read head moves. -/
theorem enforceByteBudget_readHead_lt (hrtime : Nat → Int) (heap : Heap) (h : b.Accounted)
    {incomingBytes : Int} (hover : b.OverBudget incomingBytes) :
    b.readHead < (b.enforceByteBudget hrtime heap incomingBytes).readHead := by
  obtain ⟨fuel, hfuel⟩ := Nat.exists_eq_add_of_lt hover.2
  obtain ⟨_, _, _, _, _, hlt, ev⟩ := evictOldest_evicts hrtime heap h hover.2
  have hcount := ev.slotCount
  have hstep : b.enforceByteBudget hrtime heap incomingBytes =
      (b.evictOldest hrtime heap).enforceByteBudget hrtime heap incomingBytes := by
    rw [enforceByteBudget, hcount, enforceByteBudgetFrom, if_pos hover]
    rfl
  rw [hstep]
  exact Nat.lt_of_lt_of_le hlt
    (enforceByteBudget_shrinks hrtime heap ev.accounted incomingBytes).readHead

theorem enforceByteBudget_requestIdIndex (hrtime : Nat → Int) (heap : Heap) (h : b.Accounted)
    (incomingBytes : Int) :
    (b.enforceByteBudget hrtime heap incomingBytes).requestIdIndex = b.requestIdIndex := by
  refine enforceByteBudget_rule (P := fun r => r.requestIdIndex = b.requestIdIndex) incomingBytes
    ?_ h rfl
  intro r h hcount hr
  obtain ⟨_, _, _, _, _, _, ev⟩ := evictOldest_evicts hrtime heap h hcount
  rw [ev.requestIdIndex, hr]

/-! ## Order -/

namespace Chronological

variable {key : SlotId → Nat} {log : List Eviction}

theorem evicts (h : b.Chronological key) (ev : b.Evicts heap index id log r)
    (oldest : ∀ e ∈ log, e.Oldest) : r.Chronological key where
  accounted := ev.accounted
  fits := ev.shrinks.fits h.fits
  sorted := ev.shrinks.sorted h.sorted
  evictions e he := by
    rw [ev.evictions, List.mem_append] at he
    exact he.elim (oldest e) (h.evictions e)

/-- The slot of the first occupied cursor has the smallest `seq`. -/
theorem oldest_of_first (h : b.Chronological fun id => (heap id).seq) {cursor : Nat}
    (hread : b.readHead ≤ cursor) (hid : b.get cursor = some id)
    (first : ∀ c, b.readHead ≤ c → c < cursor → b.get c = none) :
    (b.evictionOf heap id).Oldest := by
  have covered := h.accounted.covered
  refine ⟨List.mem_map_of_mem (covered.mem_cells_iff.mpr ⟨_, hid⟩), ?_⟩
  intro seq hseq
  obtain ⟨other, hother, rfl⟩ := List.mem_map.mp hseq
  exact h.sorted.le_of_first covered hread hid first (covered.mem_cells_iff.mp hother)

theorem evictOldest (h : b.Chronological fun id => (heap id).seq) (hcount : 0 < b.slotCount) :
    (b.evictOldest hrtime heap).Chronological fun id => (heap id).seq := by
  obtain ⟨cursor, id, hread, hid, hfirst, _, ev⟩ :=
    evictOldest_evicts hrtime heap h.accounted hcount
  refine h.evicts ev ?_
  intro e he
  rw [List.mem_singleton.mp he]
  exact h.oldest_of_first hread hid hfirst

theorem enforceByteBudget (h : b.Chronological fun id => (heap id).seq) (incomingBytes : Int) :
    (b.enforceByteBudget hrtime heap incomingBytes).Chronological fun id => (heap id).seq :=
  enforceByteBudget_rule incomingBytes (fun _ _ hcount hb => hb.evictOldest hcount) h.accounted h

end Chronological

/-! ## `push` -/

/-- A push finds a cell at the end of the window or makes one there: the window is not full, its
first cell is occupied, or the byte budget makes the read head move. -/
def HasRoom (b : IOEventBuffer) (incomingBytes : Int) : Prop :=
  b.writeHead - b.readHead < b.capacity ∨ (b.slots (b.readHead % b.capacity)).isSome ∨
    b.OverBudget incomingBytes

instance (b : IOEventBuffer) (incomingBytes : Int) : Decidable (b.HasRoom incomingBytes) := by
  unfold HasRoom
  infer_instance

theorem makeRoom_of_some {other : SlotId}
    (hid : b.slots (b.writeHead % b.capacity) = some other) :
    b.makeRoom hrtime heap id =
      (b.evictIndex hrtime heap (b.writeHead % b.capacity) true).enforceByteBudget hrtime heap
        (heap id).estimatedBytes := by
  simp only [makeRoom, hid, Option.isSome_some, if_true]

theorem makeRoom_of_none (hid : b.slots (b.writeHead % b.capacity) = none) :
    b.makeRoom hrtime heap id = b.enforceByteBudget hrtime heap (heap id).estimatedBytes := by
  simp only [makeRoom, hid, Option.isSome_none, Bool.false_eq_true, if_false]

/-- What a counted eviction keeps, the evictions of a push keep. -/
theorem makeRoom_rule {P : IOEventBuffer → Prop}
    (step : ∀ b index other log r, b.Accounted → P b → b.slots index = some other →
      b.Evicts heap index other log r → P r)
    (h : b.Accounted) (hP : P b) : P (b.makeRoom hrtime heap id) := by
  have enforce (b : IOEventBuffer) (h : b.Accounted) (hP : P b) :
      P (b.enforceByteBudget hrtime heap (heap id).estimatedBytes) := by
    refine enforceByteBudget_rule _ ?_ h hP
    intro b h hcount hP
    obtain ⟨cursor, other, _, hid, _, _, ev⟩ := evictOldest_evicts hrtime heap h hcount
    exact step b _ other _ _ h hP hid ev
  cases hslot : b.slots (b.writeHead % b.capacity) with
  | none =>
      rw [makeRoom_of_none hslot]
      exact enforce b h hP
  | some other =>
      rw [makeRoom_of_some hslot]
      have ev := evictIndex_evicts hrtime heap true h hslot
      exact enforce _ ev.accounted (step b _ other _ _ h hP hslot ev)

theorem makeRoom_accounted (h : b.Accounted) : (b.makeRoom hrtime heap id).Accounted :=
  makeRoom_rule (fun _ _ _ _ _ _ _ _ ev => ev.accounted) h h

theorem makeRoom_shrinks (h : b.Accounted) :
    b.Shrinks (b.makeRoom hrtime heap id).toRingBuffer :=
  makeRoom_rule (P := fun r => b.Shrinks r.toRingBuffer)
    (fun _ _ _ _ _ _ hr _ ev => hr.trans ev.shrinks) h (RingBuffer.Shrinks.refl _)

theorem makeRoom_requestIdIndex (hrtime : Nat → Int) (heap : Heap) (id : SlotId)
    (h : b.Accounted) :
    (b.makeRoom hrtime heap id).requestIdIndex = b.requestIdIndex :=
  makeRoom_rule (P := fun r => r.requestIdIndex = b.requestIdIndex)
    (fun _ _ _ _ _ _ hr _ ev => ev.requestIdIndex.trans hr) h rfl

/-- The cell the push writes is empty by then. -/
theorem makeRoom_freed (h : b.Accounted) :
    (b.makeRoom hrtime heap id).slots (b.writeHead % b.capacity) = none := by
  have empty {b r : IOEventBuffer} (hs : b.Shrinks r.toRingBuffer) {i : Nat}
      (hi : b.slots i = none) : r.slots i = none := by
    by_contra hsome
    obtain ⟨other, hother⟩ := Option.ne_none_iff_exists'.mp hsome
    rw [hs.slots i other hother] at hi
    exact nomatch hi
  cases hslot : b.slots (b.writeHead % b.capacity) with
  | none =>
      rw [makeRoom_of_none hslot]
      exact empty (enforceByteBudget_shrinks hrtime heap h _) hslot
  | some other =>
      rw [makeRoom_of_some hslot]
      have ev := evictIndex_evicts hrtime heap true h hslot
      exact empty (enforceByteBudget_shrinks hrtime heap ev.accounted _) ev.freed

/-- `push` stores the slot behind the window that the evictions leave. -/
theorem storeSlot_ring (h : b.Accounted) :
    (b.storeSlot hrtime heap id).toRingBuffer =
      (b.makeRoom hrtime heap id).toRingBuffer.store id := by
  have hs : b.Shrinks (b.makeRoom hrtime heap id).toRingBuffer := makeRoom_shrinks h
  rw [RingBuffer.store, hs.writeHead, hs.capacity]
  simp only [storeSlot, hs.writeHead, hs.capacity]

theorem stored_storeSlot (h : b.Accounted) {other : SlotId}
    (hother : (b.storeSlot hrtime heap id).Stored other) : other = id ∨ b.Stored other := by
  rw [storeSlot_ring h] at hother
  exact (RingBuffer.stored_store hother).imp_right (makeRoom_shrinks h).stored

theorem storeSlot_cells (h : b.Accounted) :
    (b.storeSlot hrtime heap id).cells.Perm (id :: (b.makeRoom hrtime heap id).cells) := by
  have hs : b.Shrinks (b.makeRoom hrtime heap id).toRingBuffer := makeRoom_shrinks h
  have free : (b.makeRoom hrtime heap id).slots (b.writeHead % b.capacity) = none :=
    makeRoom_freed h
  rw [storeSlot_ring h]
  refine RingBuffer.cells_store_perm ?_ ?_ id
  · rw [hs.capacity]
    exact h.covered.capacity_pos
  · rwa [hs.writeHead, hs.capacity]

theorem storeSlot_accounted (h : b.Accounted) : (b.storeSlot hrtime heap id).Accounted where
  covered := by
    rw [storeSlot_ring h]
    exact (makeRoom_accounted h).covered.store id
  count := by
    rw [(storeSlot_cells h).length_eq, List.length_cons, ← (makeRoom_accounted h).count]
    rfl
  empty hzero := absurd hzero (Nat.succ_ne_zero _)

namespace Chronological

/-- With room the evictions of a push are in order and leave the window short of one cell. -/
theorem makeRoom (hrtime : Nat → Int) (h : b.Chronological fun id => (heap id).seq)
    (room : b.HasRoom (heap id).estimatedBytes) :
    ((b.makeRoom hrtime heap id).Chronological fun id => (heap id).seq) ∧
      (b.makeRoom hrtime heap id).writeHead - (b.makeRoom hrtime heap id).readHead <
        (b.makeRoom hrtime heap id).capacity := by
  have hs : b.Shrinks (b.makeRoom hrtime heap id).toRingBuffer := makeRoom_shrinks h.accounted
  have hfits := h.fits
  have hheads := h.accounted.covered.heads
  have hpos := h.accounted.covered.capacity_pos
  have hread := hs.readHead
  rw [hs.writeHead, hs.capacity]
  unfold RingBuffer.Fits at hfits
  by_cases hshort : b.writeHead - b.readHead < b.capacity
  · rw [makeRoom_of_none (h.accounted.covered.free_of_room hshort)] at hread ⊢
    exact ⟨h.enforceByteBudget _, by omega⟩
  -- the window is full, so the cell behind it is its first one
  have hfull : b.writeHead = b.readHead + b.capacity := by omega
  have hindex : b.writeHead % b.capacity = b.readHead % b.capacity := by
    rw [hfull, Nat.add_mod_right]
  cases hslot : b.slots (b.writeHead % b.capacity) with
  | some other =>
      have ev := evictIndex_evicts hrtime heap true h.accounted hslot
      have hlt := ev.head hindex
      have hle := (enforceByteBudget_shrinks hrtime heap ev.accounted
        (heap id).estimatedBytes).readHead
      have oldest : (b.evictionOf heap other).Oldest := by
        refine h.oldest_of_first (Nat.le_refl b.readHead) ?_ (fun c _ _ => by omega)
        rw [RingBuffer.get, ← hindex]
        exact hslot
      rw [makeRoom_of_some hslot]
      refine ⟨(h.evicts ev ?_).enforceByteBudget _, by omega⟩
      intro e he
      rw [List.mem_singleton.mp he]
      exact oldest
  | none =>
      rw [makeRoom_of_none hslot]
      refine ⟨h.enforceByteBudget _, ?_⟩
      rw [HasRoom, ← hindex, hslot] at room
      obtain hover := (room.resolve_left hshort).resolve_left Bool.false_ne_true
      have hlt := enforceByteBudget_readHead_lt hrtime heap h.accounted hover
      omega

/-- A push with room keeps the order if its slot has the largest `seq`. -/
theorem storeSlot (h : b.Chronological fun id => (heap id).seq)
    (room : b.HasRoom (heap id).estimatedBytes)
    (newest : ∀ other, b.Stored other → (heap other).seq < (heap id).seq) :
    (b.storeSlot hrtime heap id).Chronological fun id => (heap id).seq := by
  have hs : b.Shrinks (b.makeRoom hrtime heap id).toRingBuffer := makeRoom_shrinks h.accounted
  obtain ⟨hroom, hshort⟩ := h.makeRoom hrtime room
  refine
    { accounted := storeSlot_accounted h.accounted, fits := ?_, sorted := ?_,
      evictions := hroom.evictions }
  · rw [storeSlot_ring h.accounted]
    exact RingBuffer.Fits.store hshort id
  · rw [storeSlot_ring h.accounted]
    exact hroom.sorted.store hshort (fun other hother => newest other (hs.stored hother))

theorem congr {key key' : SlotId → Nat} (h : b.Chronological key)
    (same : ∀ id, b.Stored id → key' id = key id) : b.Chronological key' :=
  { h with sorted := h.sorted.congr same }

/-- The order does not depend on the byte counter and the request index. -/
theorem of_ring (h : b.Chronological key) (ring : r.toRingBuffer = b.toRingBuffer)
    (slotCount : r.slotCount = b.slotCount) (evictions : r.evictions = b.evictions) :
    r.Chronological key where
  accounted := h.accounted.congr ring slotCount
  fits := by
    rw [ring]
    exact h.fits
  sorted := by
    rw [ring]
    exact h.sorted
  evictions := by
    rw [evictions]
    exact h.evictions

end Chronological

/-! ## `clear` and a new buffer -/

theorem foldl_clear_slots (capacity : Nat) (cursors : List Nat) (slots : Nat → Option SlotId)
    {i : Nat} (h : slots i = none ∨ ∃ c ∈ cursors, c % capacity = i) :
    cursors.foldl (fun slots cursor => Function.update slots (cursor % capacity) none) slots i =
      none := by
  induction cursors generalizing slots with
  | nil => exact h.resolve_right (by rintro ⟨_, hc, _⟩; exact nomatch hc)
  | cons cursor cursors ih =>
      apply ih
      simp only
      by_cases hi : i = cursor % capacity
      · rw [hi, Function.update_self]
        exact .inl rfl
      · rw [Function.update_of_ne hi]
        refine h.imp_right ?_
        rintro ⟨c, hc, rfl⟩
        exact ⟨c, (List.mem_cons.mp hc).resolve_left (fun heq => hi (by rw [heq])), rfl⟩

theorem clear_slots (h : b.Accounted) (i : Nat) : b.clear.slots i = none := by
  refine foldl_clear_slots b.capacity b.cursors b.slots ?_
  cases hi : b.slots i with
  | none => exact .inl rfl
  | some id =>
      obtain ⟨c, hread, hwrite, hc⟩ := h.covered.cursor i id hi
      exact .inr ⟨c, (RingBuffer.mem_cursors h.covered.heads).mpr ⟨hread, hwrite⟩, hc⟩

theorem clear_shrinks (h : b.Accounted) : b.Shrinks b.clear.toRingBuffer where
  capacity := rfl
  writeHead := rfl
  readHead := h.covered.heads
  slots i x hi := by
    rw [clear_slots h] at hi
    exact nomatch hi

/-- A buffer with empty cells only, whose heads are together. -/
theorem accounted_of_empty (hpos : 0 < b.capacity) (hslots : ∀ i, b.slots i = none)
    (hcount : b.slotCount = 0) (hheads : b.readHead = b.writeHead) : b.Accounted where
  covered :=
    { capacity_pos := hpos
      heads := Nat.le_of_eq hheads
      cursor := fun i x hi => by
        rw [hslots] at hi
        exact nomatch hi }
  count := by
    rw [hcount, RingBuffer.cells, List.filterMap_eq_nil_iff.mpr (fun i _ => hslots i),
      List.length_nil]
  empty _ := hheads

theorem clear_accounted (h : b.Accounted) : b.clear.Accounted :=
  accounted_of_empty h.covered.capacity_pos (clear_slots h) rfl rfl

theorem Chronological.clear {key : SlotId → Nat} (h : b.Chronological key) :
    b.clear.Chronological key where
  accounted := clear_accounted h.accounted
  fits := (clear_shrinks h.accounted).fits h.fits
  sorted := (clear_shrinks h.accounted).sorted h.sorted
  evictions := h.evictions

theorem new_accounted {capacity : Nat} (hpos : 0 < capacity) (maxBytes : Nat)
    (storeContextEvents : Bool) : (new capacity maxBytes storeContextEvents).Accounted :=
  accounted_of_empty hpos (fun _ => rfl) rfl rfl

end IOEventBuffer

/-! ## The loops over a request's slots -/

namespace BufferState

variable {hrtime : Nat → Int} {s : BufferState} {requestId : Text} {cursor : Nat} {id : SlotId}

theorem completedAt_spec (h : s.completedAt requestId cursor = some id) :
    s.buffer.get cursor = some id ∧ (s.heap id).requestId = some requestId ∧
      (s.heap id).successful := by
  rw [completedAt] at h
  split at h
  case h_1 => exact nomatch h
  case h_2 other hget =>
      split at h
      case isFalse => exact nomatch h
      case isTrue hdone =>
          obtain rfl := Option.some.inj h
          rw [Bool.and_eq_true, decide_eq_true_eq] at hdone
          exact ⟨hget, hdone⟩

/-- What compacting one completed slot keeps, `compactCompletedRequest` keeps. -/
theorem compactFrom_rule {P : BufferState → Prop} (cursors : List Nat)
    (step : ∀ s cursor id, P s → s.completedAt requestId cursor = some id → P (s.compactStored id))
    (hP : P s) : P (s.compactFrom requestId cursors) := by
  induction cursors generalizing s with
  | nil => exact hP
  | cons cursor cursors ih =>
      rw [compactFrom]
      cases hdone : s.completedAt requestId cursor with
      | none => exact ih hP
      | some id => exact ih (step s cursor id hP hdone)

/-- What releasing one completed slot keeps, `releaseCompletedRequest` keeps. -/
theorem releaseFrom_rule {P : BufferState → Prop} (cursors : List Nat)
    (step : ∀ s cursor id, P s → s.completedAt requestId cursor = some id →
      P (s.releaseStored hrtime cursor id))
    (hP : P s) : P (s.releaseFrom hrtime requestId cursors) := by
  induction cursors generalizing s with
  | nil => exact hP
  | cons cursor cursors ih =>
      rw [releaseFrom]
      cases hdone : s.completedAt requestId cursor with
      | none => exact ih hP
      | some id => exact ih (step s cursor id hP hdone)

end BufferState

end ErrorCore
