import ErrorCore.Buffer.IOEventBuffer.Bytes
import ErrorCore.Buffer.IOEventBuffer.Order

/-!
# The byte budget of the IO event buffer

The two eviction loops as relations between the buffer that enters a loop and
the one that leaves it, without a bound on the iterations. Every live slot lies
between the two heads, so `evictOldest` always finds one and both loops end.

A push then leaves at most `maxBytes`, or its own slot alone, if the counter has
no more than the stored slots account for. A report for a slot that `clear`
dropped, or one that names no slot and is for a slot that is not stored, breaks
the counter.
-/

namespace ErrorCore

namespace IOEventBuffer

/-! ## The loops -/

section Loops

variable (hrtime : Nat → Int) (heap : Heap)

/-- The loop of `evictOldest` ends. -/
inductive EvictOldestEnds : IOEventBuffer → IOEventBuffer → Prop
  | passed {b : IOEventBuffer} (h : ¬ b.readHead < b.writeHead) : EvictOldestEnds b b
  | found {b : IOEventBuffer} (h : b.readHead < b.writeHead)
      (hslot : (b.slots (b.readHead % b.capacity)).isSome) :
      EvictOldestEnds b (b.evictIndex hrtime heap (b.readHead % b.capacity) true)
  | skip {b r : IOEventBuffer} (h : b.readHead < b.writeHead)
      (hslot : ¬ (b.slots (b.readHead % b.capacity)).isSome)
      (rest : EvictOldestEnds { b with readHead := b.readHead + 1 } r) : EvictOldestEnds b r

/-- The loop of `enforceByteBudget` ends. -/
inductive EnforceEnds (incomingBytes : Int) : IOEventBuffer → IOEventBuffer → Prop
  | within {b : IOEventBuffer} (h : ¬ b.OverBudget incomingBytes) : EnforceEnds incomingBytes b b
  | evict {b middle r : IOEventBuffer} (h : b.OverBudget incomingBytes)
      (evicted : EvictOldestEnds hrtime heap b middle)
      (rest : EnforceEnds incomingBytes middle r) : EnforceEnds incomingBytes b r

end Loops

variable {hrtime : Nat → Int} {heap : Heap} {b : IOEventBuffer} {id : SlotId}

theorem evictOldestFrom_ends (hrtime : Nat → Int) (heap : Heap) {fuel : Nat}
    (hfuel : b.writeHead - b.readHead ≤ fuel) :
    EvictOldestEnds hrtime heap b (evictOldestFrom hrtime heap fuel b) := by
  induction fuel generalizing b with
  | zero => exact .passed (by omega)
  | succ fuel ih =>
      rw [evictOldestFrom]
      by_cases hheads : b.readHead < b.writeHead
      · rw [if_pos hheads]
        by_cases hslot : (b.slots (b.readHead % b.capacity)).isSome
        · rw [if_pos hslot]
          exact .found hheads hslot
        · rw [if_neg hslot]
          exact .skip hheads hslot (ih (by simp only; omega))
      · rw [if_neg hheads]
        exact .passed hheads

/-- Each round evicts a slot, so the slots bound the rounds. -/
theorem enforceByteBudget_ends (hrtime : Nat → Int) (heap : Heap) (h : b.Accounted)
    (incomingBytes : Int) :
    EnforceEnds hrtime heap incomingBytes b (b.enforceByteBudget hrtime heap incomingBytes) := by
  have loop (fuel : Nat) (hfuel : b.slotCount ≤ fuel) :
      EnforceEnds hrtime heap incomingBytes b
        (enforceByteBudgetFrom hrtime heap incomingBytes fuel b) := by
    induction fuel generalizing b with
    | zero =>
        refine .within ?_
        intro hover
        exact absurd hover.2 (by omega)
    | succ fuel ih =>
        rw [enforceByteBudgetFrom]
        by_cases hover : b.OverBudget incomingBytes
        · rw [if_pos hover]
          obtain ⟨_, _, _, _, _, _, ev⟩ := evictOldest_evicts hrtime heap h hover.2
          have hcount : (b.evictOldest hrtime heap).slotCount ≤ fuel := by
            have := ev.slotCount
            omega
          exact .evict hover (evictOldestFrom_ends hrtime heap (Nat.le_refl _))
            (ih ev.accounted hcount)
        · rw [if_neg hover]
          exact .within hover
  exact loop b.slotCount (Nat.le_refl _)

/-! ## What the loops leave -/

theorem Accounted.slotCount_le (h : b.Accounted) : b.slotCount ≤ b.capacity := by
  rw [h.count, RingBuffer.cells]
  exact (List.length_filterMap_le _ _).trans (Nat.le_of_eq List.length_range)

theorem enforceByteBudget_maxBytes (hrtime : Nat → Int) (heap : Heap) (h : b.Accounted)
    (incomingBytes : Int) :
    (b.enforceByteBudget hrtime heap incomingBytes).maxBytes = b.maxBytes := by
  refine enforceByteBudget_rule (P := fun r => r.maxBytes = b.maxBytes) incomingBytes ?_ h rfl
  intro r hr hcount hP
  obtain ⟨_, _, _, _, _, _, ev⟩ := evictOldest_evicts hrtime heap hr hcount
  exact ev.maxBytes.trans hP

/-- `enforceByteBudget` leaves room for the incoming bytes, or no slot. -/
theorem enforceByteBudget_within (hrtime : Nat → Int) (heap : Heap) (h : b.Accounted)
    (incomingBytes : Int) :
    (b.enforceByteBudget hrtime heap incomingBytes).payloadBytes + incomingBytes ≤ b.maxBytes ∨
      (b.enforceByteBudget hrtime heap incomingBytes).slotCount = 0 := by
  have hwithin : ¬ (b.enforceByteBudget hrtime heap incomingBytes).OverBudget incomingBytes :=
    enforceByteBudget_not_overBudget h incomingBytes
  rw [OverBudget, enforceByteBudget_maxBytes hrtime heap h] at hwithin
  omega

theorem evictIndex_accounted (h : b.Accounted) {index : Nat} {countOverflow : Bool} :
    (b.evictIndex hrtime heap index countOverflow).Accounted := by
  cases hslot : b.slots index with
  | none => rwa [evictIndex_of_none hslot]
  | some other => exact (evictIndex_evicts hrtime heap countOverflow h hslot).accounted

theorem makeRoom_within (hrtime : Nat → Int) (heap : Heap) (id : SlotId) (h : b.Accounted) :
    (b.makeRoom hrtime heap id).payloadBytes + (heap id).estimatedBytes ≤ b.maxBytes ∨
      (b.makeRoom hrtime heap id).slotCount = 0 := by
  cases hslot : b.slots (b.writeHead % b.capacity) with
  | none =>
      rw [makeRoom_of_none hslot]
      exact enforceByteBudget_within hrtime heap h _
  | some other =>
      have ev := evictIndex_evicts hrtime heap true h hslot
      have hwithin := enforceByteBudget_within hrtime heap ev.accounted (heap id).estimatedBytes
      rw [makeRoom_of_some hslot]
      rwa [ev.maxBytes] at hwithin

end IOEventBuffer

namespace BufferState

/-! ## Runs -/

/-- The operations of the buffer, with reports of what a slot was rewritten to. -/
inductive BudgetAction
  | push (event : PushableIOEvent)
  /-- The slot is rewritten and its change reported, with the slot or without it. -/
  | updatePayloadBytes (id : SlotId) (slot : IOEventSlot) (named : Bool)
  | releaseCompletedRequest (requestId : Text)
  | compactCompletedRequest (requestId : Text)
  | clear

def update (hrtime : Nat → Int) (s : BufferState) (id : SlotId) (slot : IOEventSlot)
    (named : Bool) : BufferState :=
  { s with
    heap := Function.update s.heap id slot
    buffer := s.buffer.updatePayloadBytes hrtime (Function.update s.heap id slot)
      (s.heap id).estimatedBytes slot.estimatedBytes (if named then some id else none) }

def budgetStep (hrtime : Nat → Int) (s : BufferState) : BudgetAction → BufferState
  | .push event => s.push hrtime event
  | .updatePayloadBytes id slot named => s.update hrtime id slot named
  | .releaseCompletedRequest requestId => s.releaseCompletedRequest hrtime requestId
  | .compactCompletedRequest requestId => s.compactCompletedRequest requestId
  | .clear => { s with buffer := s.buffer.clear }

def budgetSystem (hrtime : Nat → Int) : Transition.System BufferState BudgetAction where
  init := Initial
  step s a := some (s.budgetStep hrtime a)

/-- A report names a slot that `storedSlots` does not have, and is ignored. -/
def Ignores (s : BufferState) (id : SlotId) (named : Bool) : Prop :=
  named = true ∧ id ∉ s.buffer.storedSlots

instance (s : BufferState) (id : SlotId) (named : Bool) : Decidable (s.Ignores id named) :=
  inferInstanceAs (Decidable (named = true ∧ id ∉ s.buffer.storedSlots))

/-- A change that is reported and not ignored is that of a stored slot. -/
def ReportsStored (s : BufferState) : BudgetAction → Prop
  | .updatePayloadBytes id slot named =>
      slot.estimatedBytes = (s.heap id).estimatedBytes ∨ id ∈ s.buffer.cells ∨ s.Ignores id named
  | _ => True

instance (s : BufferState) : ∀ a, Decidable (s.ReportsStored a)
  | .updatePayloadBytes id slot named =>
      inferInstanceAs (Decidable (slot.estimatedBytes = (s.heap id).estimatedBytes ∨
        id ∈ s.buffer.cells ∨ s.Ignores id named))
  | .push _ => .isTrue trivial
  | .releaseCompletedRequest _ => .isTrue trivial
  | .compactCompletedRequest _ => .isTrue trivial
  | .clear => .isTrue trivial

/-- The buffer in which an operation enters the loop of `enforceByteBudget`, with the slots and the
incoming bytes. -/
def loopEntry (hrtime : Nat → Int) (s : BufferState) :
    BudgetAction → Option (Heap × IOEventBuffer × Int)
  | .push event =>
      let buffer := { s.buffer with requestIdIndex := none }
      let heap := (s.push hrtime event).heap
      if keepsSlot buffer event then
        some (heap, buffer.evictIndex hrtime heap (buffer.writeHead % buffer.capacity) true,
          (heap s.nextSlot).estimatedBytes)
      else none
  | .updatePayloadBytes id slot named =>
      if s.Ignores id named then none
      else
        some (Function.update s.heap id slot,
          { s.buffer with
            requestIdIndex := none
            payloadBytes := s.buffer.payloadBytes +
              (slot.estimatedBytes - (s.heap id).estimatedBytes) }, 0)
  | _ => none

variable {hrtime : Nat → Int} {s : BufferState} {id : SlotId} {slot : IOEventSlot} {named : Bool}

/-! ## One step -/

theorem update_of_ignores (h : s.Ignores id named) :
    s.update hrtime id slot named = s.withSlot id slot := by
  obtain ⟨rfl, hid⟩ := h
  rw [update, if_pos rfl, IOEventBuffer.updatePayloadBytes_of_not_mem hid]
  rfl

theorem update_of_not_ignores (h : ¬ s.Ignores id named) :
    s.update hrtime id slot named =
      { s with
        heap := Function.update s.heap id slot
        buffer := IOEventBuffer.enforceByteBudget hrtime (Function.update s.heap id slot)
          { s.buffer with
            requestIdIndex := none
            payloadBytes := s.buffer.payloadBytes +
              (slot.estimatedBytes - (s.heap id).estimatedBytes) } 0 } := by
  cases named with
  | false => rfl
  | true =>
      have hid : id ∈ s.buffer.storedSlots := by
        by_contra hnot
        exact h ⟨rfl, hnot⟩
      rw [update, if_pos rfl, IOEventBuffer.updatePayloadBytes_of_mem hid]

/-- A report moves the surplus unless it is ignored or for a stored slot. -/
theorem update_placed (hrtime : Nat → Int) (h : s.Placed) (id : SlotId) (slot : IOEventSlot)
    (named : Bool) :
    (s.update hrtime id slot named).Placed ∧
      (s.ReportsStored (.updatePayloadBytes id slot named) →
        (s.update hrtime id slot named).surplus = s.surplus) := by
  obtain ⟨hwritten, hsurplus⟩ := withSlot_placed h id slot
  by_cases hignores : s.Ignores id named
  · have hnot : id ∉ s.buffer.cells := fun hid => hignores.2 (h.tracked.tracked id hid)
    rw [update_of_ignores hignores]
    rw [if_neg hnot, Int.sub_zero] at hsurplus
    exact ⟨hwritten, fun _ => hsurplus⟩
  · have htracked : IOEventBuffer.Tracked { s.buffer with
        requestIdIndex := none
        payloadBytes := s.buffer.payloadBytes +
          (slot.estimatedBytes - (s.heap id).estimatedBytes) } := h.tracked.congr rfl rfl rfl
    have frees := IOEventBuffer.enforceByteBudget_frees hrtime (Function.update s.heap id slot)
      htracked 0
    rw [update_of_not_ignores hignores]
    refine ⟨hwritten.withBuffer frees.tracked frees.subset, ?_⟩
    intro hreports
    have hmoved := frees.surplus
    simp only [surplus, IOEventBuffer.surplus, withSlot] at hsurplus hmoved ⊢
    rcases hreports with hsame | hid | hignored
    · rw [hsame, Int.sub_self, ite_self] at hsurplus
      omega
    · rw [if_pos hid] at hsurplus
      omega
    · exact absurd hignored hignores

/-- What every operation keeps. -/
theorem budgetStep_placed (hrtime : Nat → Int) (h : s.Placed) (a : BudgetAction) :
    (s.budgetStep hrtime a).Placed ∧
      (s.ReportsStored a → s.surplus = 0 → (s.budgetStep hrtime a).surplus = 0) := by
  cases a with
  | push event =>
      obtain ⟨hplaced, _, hsurplus⟩ := push_placed hrtime h event
      exact ⟨hplaced, fun _ hzero => hsurplus.trans hzero⟩
  | updatePayloadBytes id slot named =>
      obtain ⟨hplaced, hsurplus⟩ := update_placed hrtime h id slot named
      exact ⟨hplaced, fun hreports hzero => (hsurplus hreports).trans hzero⟩
  | releaseCompletedRequest requestId =>
      obtain ⟨hplaced, _, hsurplus⟩ := releaseCompletedRequest_placed hrtime h requestId
      exact ⟨hplaced, fun _ hzero => hsurplus.trans hzero⟩
  | compactCompletedRequest requestId =>
      obtain ⟨hplaced, hsurplus⟩ := compactCompletedRequest_placed h requestId
      exact ⟨hplaced, fun _ hzero => hsurplus.trans hzero⟩
  | clear =>
      obtain ⟨hplaced, hsurplus⟩ := clear_placed h
      exact ⟨hplaced, fun _ _ => hsurplus⟩

/-- Every loop that an operation enters ends. -/
theorem loopEntry_ends (h : s.Placed) {a : BudgetAction} {heap : Heap} {b : IOEventBuffer}
    {incomingBytes : Int} (hentry : s.loopEntry hrtime a = some (heap, b, incomingBytes)) :
    IOEventBuffer.EnforceEnds hrtime heap incomingBytes b
      (b.enforceByteBudget hrtime heap incomingBytes) := by
  have hbuffer : IOEventBuffer.Accounted { s.buffer with requestIdIndex := none } :=
    h.tracked.accounted.congr rfl rfl
  apply IOEventBuffer.enforceByteBudget_ends
  cases a with
  | push event =>
      simp only [loopEntry, Option.ite_none_right_eq_some, Option.some.injEq, Prod.mk.injEq]
        at hentry
      obtain ⟨_, _, rfl, _⟩ := hentry
      exact IOEventBuffer.evictIndex_accounted hbuffer
  | updatePayloadBytes id slot named =>
      simp only [loopEntry, Option.ite_none_left_eq_some, Option.some.injEq, Prod.mk.injEq]
        at hentry
      obtain ⟨_, _, rfl, _⟩ := hentry
      exact h.tracked.accounted.congr rfl rfl
  | releaseCompletedRequest requestId => exact nomatch hentry
  | compactCompletedRequest requestId => exact nomatch hentry
  | clear => exact nomatch hentry

/-- A stored push without surplus leaves the budget, or its slot alone. -/
theorem push_payloadBytes_le (h : s.Placed) (hsurplus : s.surplus = 0) {event : PushableIOEvent}
    (hkeeps : keepsSlot s.buffer event) :
    (s.push hrtime event).buffer.payloadBytes ≤
      max (s.buffer.maxBytes : Int) (estimateBytes event.requestBody event.responseBody) := by
  let buffer := { s.buffer with requestIdIndex := none }
  let heap := (s.push hrtime event).heap
  have htracked : buffer.Tracked := h.tracked.congr rfl rfl rfl
  have fresh : s.nextSlot ∉ s.buffer.cells := fun hmem => Nat.lt_irrefl _ (h.allocated _ hmem)
  have hbytes : (heap s.nextSlot).estimatedBytes =
      estimateBytes event.requestBody event.responseBody := by
    simp only [heap, push, Function.update_self]
  have room := IOEventBuffer.makeRoom_frees hrtime heap s.nextSlot htracked
  have hzero : (buffer.makeRoom hrtime heap s.nextSlot).surplus heap = 0 := by
    rw [room.surplus, ← hsurplus]
    simp only [IOEventBuffer.surplus, surplus, buffer, heap, push, storedBytes_of_not_mem fresh]
  have hwithin : (buffer.makeRoom hrtime heap s.nextSlot).payloadBytes +
      (heap s.nextSlot).estimatedBytes ≤ s.buffer.maxBytes ∨
        (buffer.makeRoom hrtime heap s.nextSlot).slotCount = 0 :=
    IOEventBuffer.makeRoom_within hrtime heap s.nextSlot htracked.accounted
  have hpush : (s.push hrtime event).buffer.payloadBytes =
      (buffer.makeRoom hrtime heap s.nextSlot).payloadBytes + (heap s.nextSlot).estimatedBytes := by
    have hstored : (s.push hrtime event).buffer = buffer.storeSlot hrtime heap s.nextSlot :=
      if_pos hkeeps
    rw [hstored]
    rfl
  rw [hpush, ← hbytes]
  rcases hwithin with hle | hempty
  · exact hle.trans (Int.le_max_left _ _)
  · -- nothing is stored, so that the counter is at zero before the slot is added
    have hcells : (buffer.makeRoom hrtime heap s.nextSlot).cells = [] := by
      rw [← List.length_eq_zero_iff, ← room.tracked.accounted.count, hempty]
    rw [IOEventBuffer.surplus, hcells, storedBytes, Int.sub_zero] at hzero
    rw [hzero, Int.zero_add]
    exact Int.le_max_right _ _

/-- What the byte budget is worth in a state: every loop an operation can enter there ends, and the
slots are counted. A report that is not ignored leaves the budget or no slot, and what is ignored
leaves the counters. -/
structure Budgeted (hrtime : Nat → Int) (s : BufferState) : Prop where
  terminates : ∀ a heap b incomingBytes,
    s.loopEntry hrtime a = some (heap, b, incomingBytes) →
      ∃ r, IOEventBuffer.EnforceEnds hrtime heap incomingBytes b r
  slotCount : s.buffer.slotCount = s.buffer.cells.length
  capacity : s.buffer.slotCount ≤ s.buffer.capacity
  updated : ∀ id slot named, ¬ s.Ignores id named →
    (s.update hrtime id slot named).buffer.payloadBytes ≤ s.buffer.maxBytes ∨
      (s.update hrtime id slot named).buffer.slotCount = 0
  ignored : ∀ id slot named, s.Ignores id named →
    (s.update hrtime id slot named).buffer = s.buffer
  unstored : ∀ event, ¬ keepsSlot s.buffer event →
    (s.push hrtime event).buffer = { s.buffer with requestIdIndex := none }

theorem Placed.budgeted (h : s.Placed) : s.Budgeted hrtime where
  terminates _ _ _ _ hentry := ⟨_, loopEntry_ends h hentry⟩
  slotCount := h.tracked.accounted.count
  capacity := h.tracked.accounted.slotCount_le
  updated id slot named hignores := by
    have haccounted : IOEventBuffer.Accounted { s.buffer with
        requestIdIndex := none
        payloadBytes := s.buffer.payloadBytes +
          (slot.estimatedBytes - (s.heap id).estimatedBytes) } :=
      h.tracked.accounted.congr rfl rfl
    have hwithin := IOEventBuffer.enforceByteBudget_within hrtime
      (Function.update s.heap id slot) haccounted 0
    rw [update_of_not_ignores hignores]
    rwa [Int.add_zero] at hwithin
  ignored id slot named hignores := by
    rw [update_of_ignores hignores]
    rfl
  unstored _ hkeeps := if_neg hkeeps

/-! ## Whole runs -/

theorem Initial.placed (h : Initial s) : s.Placed ∧ s.surplus = 0 := by
  obtain ⟨_, capacity, maxBytes, storeContextEvents, hpos, hbuffer⟩ := h
  have haccounted : s.buffer.Accounted := by
    rw [hbuffer]
    exact IOEventBuffer.new_accounted hpos maxBytes storeContextEvents
  have hcells : s.buffer.cells = [] := by
    rw [hbuffer]
    exact List.filterMap_eq_nil_iff.mpr fun _ _ => rfl
  refine ⟨⟨⟨haccounted, ?_, ?_⟩, ?_⟩, ?_⟩
  · rw [hcells]
    exact List.nodup_nil
  · rw [hcells]
    exact fun id hid => absurd hid List.not_mem_nil
  · rw [hcells]
    exact fun id hid => absurd hid List.not_mem_nil
  · rw [surplus, IOEventBuffer.surplus, hcells, hbuffer]
    rfl

theorem placed_preserved : (budgetSystem hrtime).Preserved (fun _ _ => True) Placed where
  init _ h := h.placed.1
  step s a t h _ hstep := by
    obtain rfl := Option.some.inj hstep
    exact (budgetStep_placed hrtime h a).1

theorem surplus_preserved :
    (budgetSystem hrtime).Preserved ReportsStored (fun s => s.Placed ∧ s.surplus = 0) where
  init _ h := h.placed
  step s a t h hreports hstep := by
    obtain rfl := Option.some.inj hstep
    obtain ⟨hplaced, hsurplus⟩ := budgetStep_placed hrtime h.1 a
    exact ⟨hplaced, hsurplus hreports h.2⟩

/-- In every run the loops end, the slots are counted and reports enforce the budget; and where the
changes that count are those of stored slots, each push that stores its slot does too. -/
theorem byteBudget_holds (s₀ s : BufferState) (run : List BudgetAction) (init : Initial s₀)
    (reached : (budgetSystem hrtime).exec s₀ run = some s) :
    s.Budgeted hrtime ∧
      ((budgetSystem hrtime).Guarded ReportsStored s₀ run →
        ∀ event, keepsSlot s.buffer event →
          (s.push hrtime event).buffer.payloadBytes ≤
            max (s.buffer.maxBytes : Int)
              (estimateBytes event.requestBody event.responseBody)) := by
  have hplaced := placed_preserved.exec init Transition.System.guarded_true reached
  refine ⟨hplaced.budgeted, ?_⟩
  intro guarded event hkeeps
  obtain ⟨_, hsurplus⟩ := surplus_preserved.exec init guarded reached
  exact push_payloadBytes_le hplaced hsurplus hkeeps

/-- A buffer for 300 bytes, and a slot of 356. -/
def tightBuffer (storeContextEvents : Bool) : BufferState :=
  { smallBuffer with buffer := .new 3 300 storeContextEvents }

theorem tightBuffer_initial (storeContextEvents : Bool) :
    Initial (tightBuffer storeContextEvents) :=
  ⟨Nat.zero_le _, 3, 300, storeContextEvents, by decide, rfl⟩

def largeSlot : IOEventSlot :=
  { doneEvent ['a'] with contextLost := true, seq := 1, estimatedBytes := 356 }

/-- The slot of the first push grows over the budget and is evicted, and a push follows. -/
def growingRun : List BudgetAction :=
  [.push (doneEvent ['a']), .updatePayloadBytes 0 largeSlot true, .push (doneEvent ['b'])]

theorem byteBudget_holds_growing :
    ∃ s, (budgetSystem fun _ => 0).exec (tightBuffer true) growingRun = some s ∧
      s.buffer.drain = [1] ∧ s.Budgeted (fun _ => 0) ∧
      (s.push (fun _ => 0) (doneEvent ['c'])).buffer.payloadBytes ≤ max (300 : Int) 256 := by
  obtain ⟨s, hs⟩ : ∃ s, (budgetSystem fun _ => 0).exec (tightBuffer true) growingRun = some s :=
    ⟨_, rfl⟩
  obtain ⟨budgeted, pushed⟩ := byteBudget_holds (tightBuffer true) s growingRun
    (tightBuffer_initial true) hs
  obtain rfl := Option.some.inj hs
  exact ⟨_, rfl, by decide +kernel, budgeted, pushed (by decide +kernel) (doneEvent ['c']) rfl⟩

/-- A slot that grew alone stays above the budget. -/
def grownRun : List BudgetAction :=
  [.push { doneEvent ['a'] with
      contextLost := true
      requestBody := some (.string (List.replicate 100 'x')) }]

/-- `clear` drops the slot before its change is reported. -/
def clearedRun : List BudgetAction :=
  [.push (doneEvent ['a']), .clear, .updatePayloadBytes 0 largeSlot true]

/-- A push that is not stored, and a report that is ignored, leave the counter above the budget; and
after a report for a dropped slot a stored push does. -/
theorem byteBudget_exceeded :
    (¬ ∀ s₀ s run event, Initial s₀ → (budgetSystem fun _ => 0).exec s₀ run = some s →
      (s.push (fun _ => 0) event).buffer.payloadBytes ≤
        max (s.buffer.maxBytes : Int) (estimateBytes event.requestBody event.responseBody)) ∧
    (¬ ∀ s₀ s run id slot named, Initial s₀ →
      (budgetSystem fun _ => 0).exec s₀ run = some s →
      (s.update (fun _ => 0) id slot named).buffer.payloadBytes ≤ s.buffer.maxBytes ∨
        (s.update (fun _ => 0) id slot named).buffer.slotCount = 0) ∧
    ¬ ∀ s₀ s run event, Initial s₀ → (budgetSystem fun _ => 0).exec s₀ run = some s →
      keepsSlot s.buffer event →
      (s.push (fun _ => 0) event).buffer.payloadBytes ≤
        max (s.buffer.maxBytes : Int) (estimateBytes event.requestBody event.responseBody) := by
  refine ⟨?_, ?_, ?_⟩
  · intro claim
    exact absurd (claim (tightBuffer false) _ grownRun (doneEvent ['b'])
      (tightBuffer_initial false) rfl) (by decide +kernel)
  · intro claim
    exact absurd (claim (tightBuffer false) _ grownRun 7 largeSlot true
      (tightBuffer_initial false) rfl) (by decide +kernel)
  · intro claim
    exact absurd (claim (tightBuffer true) _ clearedRun (doneEvent ['b'])
      (tightBuffer_initial true) rfl rfl) (by decide +kernel)

end BufferState

end ErrorCore
