import ErrorCore.Buffer.IOEventBuffer.Window
import ErrorCore.Foundation.Transition
import Mathlib.Data.List.DropRight

/-!
# Order and completeness of the IO event buffer

Runs of the buffer under any order of its operations, of the recorders' writes
to slots they hold, and of the clock's. A push keeps the order when its cell is
the one behind the window. Where a full window starts with a cell that
`releaseCompletedRequest` emptied, `push` reuses that cell without moving the
read head, and readers find the newest slot first and once more at the end.
-/

namespace ErrorCore

namespace IOEventBuffer

variable {heap : Heap} {b : IOEventBuffer}

/-! ## The readers -/

theorem collectRecent_eq {n : Int} (recent : List SlotId) (cursors : List Nat)
    (short : recent.length < n) :
    b.collectRecent n recent cursors = (recent ++ cursors.filterMap b.get).take n.toNat := by
  induction cursors generalizing recent with
  | nil =>
      rw [collectRecent, List.filterMap_nil, List.append_nil, List.take_of_length_le (by omega)]
  | cons cursor cursors ih =>
      rw [collectRecent, List.filterMap_cons]
      cases hget : b.get cursor with
      | none =>
          simp only
          rw [if_neg (by omega), ih recent short]
      | some id =>
          simp only
          have happend : recent ++ id :: cursors.filterMap b.get =
              (recent ++ [id]) ++ cursors.filterMap b.get := by simp
          have hlength : (recent ++ [id]).length = recent.length + 1 := by simp
          rw [happend]
          by_cases hfull : n ≤ (recent ++ [id]).length
          · rw [if_pos hfull, List.take_append_of_le_length (by omega),
              List.take_of_length_le (by omega)]
          · rw [if_neg hfull, ih (recent ++ [id]) (by omega)]

/-- `getRecent` is the end of what `drain` returns. -/
theorem getRecent_eq (h : b.Accounted) (n : Int) : b.getRecent n = b.drain.rtake n.toNat := by
  rw [getRecent, List.rtake_eq_reverse_take_reverse]
  by_cases hn : n ≤ 0
  · rw [if_pos (.inl hn), Int.toNat_of_nonpos hn, List.take_zero, List.reverse_nil]
  by_cases hcount : b.slotCount = 0
  · rw [if_pos (.inr hcount), drain, RingBuffer.live, RingBuffer.cursors, h.empty hcount,
      Nat.sub_self]
    simp
  · rw [if_neg (by omega), collectRecent_eq [] b.cursors.reverse (by simpa using hn),
      List.nil_append, List.filterMap_reverse, drain, RingBuffer.live]

theorem lookup_addToIndex (requestId other : Text) (id : SlotId)
    (index : List (Text × List SlotId)) :
    ((addToIndex other id index).lookup requestId).getD [] =
      (index.lookup requestId).getD [] ++ if requestId = other then [id] else [] := by
  induction index with
  | nil =>
      by_cases heq : requestId = other
      · simp [addToIndex, heq]
      · simp [addToIndex, List.lookup_cons, beq_eq_false_iff_ne.mpr heq, heq]
  | cons entry rest ih =>
      obtain ⟨key, ids⟩ := entry
      rw [addToIndex]
      by_cases hkey : key = other
      · subst hkey
        rw [if_pos rfl]
        by_cases heq : requestId = key
        · simp [heq]
        · simp [List.lookup_cons, beq_eq_false_iff_ne.mpr heq, heq]
      · rw [if_neg hkey]
        by_cases heq : requestId = key
        · simp [heq, hkey]
        · simp only [List.lookup_cons, beq_eq_false_iff_ne.mpr heq]
          exact ih

/-- The index maps a request to its slots in the order of the window. -/
def IndexAgrees (heap : Heap) (b : IOEventBuffer) (index : List (Text × List SlotId)) : Prop :=
  ∀ requestId, (index.lookup requestId).getD [] =
    b.drain.filter fun id => (heap id).requestId = some requestId

theorem buildRequestIdIndex_agrees : b.IndexAgrees heap (b.buildRequestIdIndex heap) := by
  intro requestId
  have loop (cursors : List Nat) (index : List (Text × List SlotId)) :
      ((cursors.foldl (b.indexCursor heap) index).lookup requestId).getD [] =
        (index.lookup requestId).getD [] ++
          (cursors.filterMap b.get).filter fun id => (heap id).requestId = some requestId := by
    induction cursors generalizing index with
    | nil => simp
    | cons cursor cursors ih =>
        rw [List.foldl_cons, ih, List.filterMap_cons, indexCursor]
        cases hget : b.get cursor with
        | none => rfl
        | some id =>
            simp only [List.filter_cons]
            cases hrequest : (heap id).requestId with
            | none => simp
            | some other =>
                simp only [lookup_addToIndex, Option.some.injEq, decide_eq_true_eq]
                by_cases heq : requestId = other
                · simp [heq]
                · simp [heq, Ne.symm heq]
  have hbuilt := loop b.cursors []
  rwa [List.lookup_nil, Option.getD_none, List.nil_append] at hbuilt

/-- Whatever is cached, the index of the next reader is right if a cached one is. -/
theorem requestIdIndexFor_agrees
    (cached : ∀ index, b.requestIdIndex = some index → b.IndexAgrees heap index) :
    b.IndexAgrees heap (b.requestIdIndexFor heap) := by
  cases hindex : b.requestIdIndex with
  | none =>
      rw [requestIdIndexFor, hindex]
      exact buildRequestIdIndex_agrees
  | some index =>
      rw [requestIdIndexFor, hindex]
      exact cached index hindex

end IOEventBuffer

namespace BufferState

/-! ## Runs -/

/-- The operations of the buffer, the recorders' and the clock's. -/
inductive Action
  | push (event : PushableIOEvent)
  | updatePayloadBytes (oldBytes newBytes : Int) (slot : Option SlotId)
  | compactCompletedRequest (requestId : Text)
  | releaseCompletedRequest (requestId : Text)
  | compactDetachedSlot (slot : SlotId)
  | clear
  | filterByRequestId (requestId : Text)
  | record (slot : SlotId) (event : PushableIOEvent) (estimatedBytes : Nat)
  | tick
  | merge (received : Nat)

/-- A recorder may rewrite every field of a slot but its `seq`. -/
def record (s : BufferState) (id : SlotId) (event : PushableIOEvent) (estimatedBytes : Nat) :
    BufferState :=
  let slot : IOEventSlot := { event with seq := (s.heap id).seq, estimatedBytes }
  { s with heap := Function.update s.heap id slot }

def step (hrtime : Nat → Int) (s : BufferState) : Action → BufferState
  | .push event => s.push hrtime event
  | .updatePayloadBytes oldBytes newBytes slot =>
      { s with buffer := s.buffer.updatePayloadBytes hrtime s.heap oldBytes newBytes slot }
  | .compactCompletedRequest requestId => s.compactCompletedRequest requestId
  | .releaseCompletedRequest requestId => s.releaseCompletedRequest hrtime requestId
  | .compactDetachedSlot slot => s.compactDetachedSlot slot
  | .clear => { s with buffer := s.buffer.clear }
  | .filterByRequestId _ => { s with buffer := s.buffer.cacheRequestIdIndex s.heap }
  | .record slot event estimatedBytes => s.record slot event estimatedBytes
  | .tick => { s with clock := s.clock.tick }
  | .merge received => { s with clock := s.clock.merge received }

/-- A new buffer, at any reading of the clock. -/
def Initial (s : BufferState) : Prop :=
  s.clock.value ≤ maxSafeInteger ∧
    ∃ capacity maxBytes storeContextEvents, 0 < capacity ∧
      s.buffer = .new capacity maxBytes storeContextEvents

def system (hrtime : Nat → Int) : Transition.System BufferState Action where
  init := Initial
  step s a := some (s.step hrtime a)

/-- A stored push needs a clock below its last value and a cell behind the window; the request of
a slot may change only while no index is cached. -/
def KeepsOrder (s : BufferState) : Action → Prop
  | .push event =>
      keepsSlot s.buffer event →
        s.clock.value < maxSafeInteger ∧
          s.buffer.HasRoom (estimateBytes event.requestBody event.responseBody)
  | .record slot event _ =>
      (s.heap slot).requestId = event.requestId ∨ s.buffer.requestIdIndex = none
  | _ => True

instance (s : BufferState) : ∀ a, Decidable (s.KeepsOrder a)
  | .push _ => by unfold KeepsOrder; infer_instance
  | .record .. => by unfold KeepsOrder; infer_instance
  | .updatePayloadBytes .. => .isTrue trivial
  | .compactCompletedRequest _ => .isTrue trivial
  | .releaseCompletedRequest _ => .isTrue trivial
  | .compactDetachedSlot _ => .isTrue trivial
  | .clear => .isTrue trivial
  | .filterByRequestId _ => .isTrue trivial
  | .tick => .isTrue trivial
  | .merge _ => .isTrue trivial

def seqOf (s : BufferState) (id : SlotId) : Nat := (s.heap id).seq

/-- What readers are promised: the stored slots, each once and by increasing `seq`; and every
counted eviction took the smallest. -/
structure OrderedReads (s : BufferState) : Prop where
  complete : ∀ id, id ∈ s.buffer.drain ↔ s.buffer.Stored id
  increasing : s.buffer.drain.Pairwise fun id other => s.seqOf id < s.seqOf other
  filterByRequestId : ∀ requestId, s.buffer.filterByRequestId s.heap requestId =
    s.buffer.drain.filter fun id => (s.heap id).requestId = some requestId
  getRecent : ∀ n : Int, s.buffer.getRecent n = s.buffer.drain.rtake n.toNat
  evictions : ∀ e ∈ s.buffer.evictions, e.Oldest

/-- The invariant of runs that keep the order. -/
structure Ordered (s : BufferState) : Prop where
  chronological : s.buffer.Chronological s.seqOf
  allocated : ∀ id, s.buffer.Stored id → id < s.nextSlot
  stamped : ∀ id, s.buffer.Stored id → s.seqOf id ≤ s.clock.value
  clock : s.clock.value ≤ maxSafeInteger
  index : ∀ index, s.buffer.requestIdIndex = some index → s.buffer.IndexAgrees s.heap index

variable {hrtime : Nat → Int} {s t : BufferState} {requestId : Text} {id : SlotId}

theorem Ordered.reads (h : s.Ordered) : s.OrderedReads where
  complete _ := h.chronological.accounted.covered.mem_live_iff
  increasing := h.chronological.sorted.pairwise_live h.chronological.accounted.covered.heads
  filterByRequestId := IOEventBuffer.requestIdIndexFor_agrees h.index
  getRecent := IOEventBuffer.getRecent_eq h.chronological.accounted
  evictions := h.chronological.evictions

/-! ## Steps that store nothing new -/

/-- A step on the buffer that loses slots in order and leaves no index behind. -/
theorem Ordered.withBuffer (h : s.Ordered) {buffer : IOEventBuffer}
    (shrinks : s.buffer.Shrinks buffer.toRingBuffer)
    (chronological : buffer.Chronological s.seqOf) (index : buffer.requestIdIndex = none) :
    Ordered { s with buffer } where
  chronological := chronological
  allocated id hid := h.allocated id (shrinks.stored hid)
  stamped id hid := h.stamped id (shrinks.stored hid)
  clock := h.clock
  index cached hcached := by
    rw [index] at hcached
    exact nomatch hcached

/-- The state after a slot was rewritten and the byte counter corrected. -/
def rewrite (s : BufferState) (id : SlotId) (slot : IOEventSlot) (payloadBytes : Int) :
    BufferState :=
  { s with
    heap := Function.update s.heap id slot
    buffer := { s.buffer with payloadBytes } }

theorem rewrite_requestId {slot : IOEventSlot} {payloadBytes : Int}
    (same : slot.requestId = (s.heap id).requestId) (other : SlotId) :
    ((s.rewrite id slot payloadBytes).heap other).requestId = (s.heap other).requestId := by
  by_cases heq : other = id
  · simp only [BufferState.rewrite, heq, Function.update_self, same]
  · simp only [BufferState.rewrite, Function.update_of_ne heq]

theorem rewrite_seqOf {slot : IOEventSlot} {payloadBytes : Int} (same : slot.seq = s.seqOf id) :
    (s.rewrite id slot payloadBytes).seqOf = s.seqOf := by
  funext other
  by_cases heq : other = id
  · simpa only [heq, seqOf, BufferState.rewrite, Function.update_self] using same
  · simp only [seqOf, BufferState.rewrite, Function.update_of_ne heq]

/-- Rewriting a slot keeps the order while its `seq` stays, and its request or the lack of an
index does. -/
theorem Ordered.rewrite (h : s.Ordered) {slot : IOEventSlot} (payloadBytes : Int)
    (same : slot.seq = s.seqOf id)
    (request : slot.requestId = (s.heap id).requestId ∨ s.buffer.requestIdIndex = none) :
    (s.rewrite id slot payloadBytes).Ordered where
  chronological := by
    rw [rewrite_seqOf same]
    exact h.chronological.of_ring rfl rfl rfl
  allocated := h.allocated
  stamped other hother := by
    rw [rewrite_seqOf same]
    exact h.stamped other hother
  clock := h.clock
  index cached hcached requestId := by
    have hcached' : s.buffer.requestIdIndex = some cached := hcached
    rcases request with request | request
    · rw [h.index cached hcached' requestId]
      refine List.filter_congr ?_
      intro other _
      rw [rewrite_requestId request]
    · rw [request] at hcached'
      exact nomatch hcached'

theorem Ordered.compactStored (h : s.Ordered) (id : SlotId) : (s.compactStored id).Ordered :=
  h.rewrite _ rfl (.inl rfl)

theorem Ordered.compactCompletedRequest (h : s.Ordered) (requestId : Text) :
    (s.compactCompletedRequest requestId).Ordered :=
  compactFrom_rule _ (fun _ _ id ht _ => ht.compactStored id) h

theorem Ordered.compactDetachedSlot (h : s.Ordered) (id : SlotId) :
    (s.compactDetachedSlot id).Ordered := by
  rw [BufferState.compactDetachedSlot]
  split
  · exact h.rewrite s.buffer.payloadBytes rfl (.inl rfl)
  · exact h

theorem Ordered.releaseStored (h : s.Ordered) (index : s.buffer.requestIdIndex = none)
    {cursor : Nat} (hdone : s.completedAt requestId cursor = some id) :
    (s.releaseStored hrtime cursor id).Ordered ∧
      (s.releaseStored hrtime cursor id).buffer.requestIdIndex = none := by
  have hc := h.compactStored id
  have ev := IOEventBuffer.evictIndex_evicts hrtime (s.compactStored id).heap false
    hc.chronological.accounted (completedAt_spec hdone).1
  have hindex := ev.requestIdIndex.trans index
  refine ⟨hc.withBuffer ev.shrinks (hc.chronological.evicts ev ?_) hindex, hindex⟩
  intro e he
  exact nomatch he

theorem Ordered.releaseCompletedRequest (h : s.Ordered) (requestId : Text) :
    (s.releaseCompletedRequest hrtime requestId).Ordered := by
  have hstart : Ordered { s with buffer := { s.buffer with requestIdIndex := none } } :=
    h.withBuffer (RingBuffer.Shrinks.refl _) (h.chronological.of_ring rfl rfl rfl) rfl
  exact (releaseFrom_rule (P := fun t => t.Ordered ∧ t.buffer.requestIdIndex = none) _
    (fun _ _ _ ht hdone => ht.1.releaseStored ht.2 hdone) ⟨hstart, rfl⟩).1

theorem Ordered.clear (h : s.Ordered) : Ordered { s with buffer := s.buffer.clear } :=
  h.withBuffer (IOEventBuffer.clear_shrinks h.chronological.accounted) h.chronological.clear rfl

theorem Ordered.updatePayloadBytes (h : s.Ordered) (oldBytes newBytes : Int)
    (slot : Option SlotId) :
    Ordered { s with
      buffer := s.buffer.updatePayloadBytes hrtime s.heap oldBytes newBytes slot } := by
  rw [IOEventBuffer.updatePayloadBytes]
  split
  · exact h
  · have hb : IOEventBuffer.Chronological s.seqOf { s.buffer with
        requestIdIndex := none
        payloadBytes := s.buffer.payloadBytes + (newBytes - oldBytes) } :=
      h.chronological.of_ring rfl rfl rfl
    have hindex := IOEventBuffer.enforceByteBudget_requestIdIndex hrtime s.heap hb.accounted 0
    exact h.withBuffer (IOEventBuffer.enforceByteBudget_shrinks hrtime s.heap hb.accounted 0)
      (hb.enforceByteBudget 0) hindex

theorem Ordered.cacheRequestIdIndex (h : s.Ordered) :
    Ordered { s with buffer := s.buffer.cacheRequestIdIndex s.heap } where
  chronological := h.chronological.of_ring rfl rfl rfl
  allocated := h.allocated
  stamped := h.stamped
  clock := h.clock
  index cached hcached := by
    obtain rfl := Option.some.inj hcached
    have agrees : s.buffer.IndexAgrees s.heap (s.buffer.requestIdIndexFor s.heap) :=
      IOEventBuffer.requestIdIndexFor_agrees h.index
    exact agrees

theorem Ordered.withClock (h : s.Ordered) {clock : EventClock} (hle : s.clock.value ≤ clock.value)
    (hmax : clock.value ≤ maxSafeInteger) : Ordered { s with clock } where
  chronological := h.chronological
  allocated := h.allocated
  stamped id hid := Nat.le_trans (h.stamped id hid) hle
  clock := hmax
  index := h.index

/-! ## `push` -/

theorem Ordered.push (h : s.Ordered) (event : PushableIOEvent)
    (guard : s.KeepsOrder (.push event)) : (s.push hrtime event).Ordered := by
  let slot : IOEventSlot :=
    { event with
      seq := s.clock.tick.value
      estimatedBytes := estimateBytes event.requestBody event.responseBody }
  -- the state in which the slot exists and is not stored yet
  let made : BufferState :=
    { s with
      heap := Function.update s.heap s.nextSlot slot
      nextSlot := s.nextSlot + 1
      clock := s.clock.tick
      buffer := { s.buffer with requestIdIndex := none } }
  have old (id : SlotId) (hid : s.buffer.Stored id) : made.seqOf id = s.seqOf id := by
    have hne : id ≠ s.nextSlot := Nat.ne_of_lt (h.allocated id hid)
    simp only [seqOf, made, Function.update_of_ne hne]
  have hmade : made.Ordered :=
    { chronological := (h.chronological.congr old).of_ring rfl rfl rfl
      allocated := fun id hid => Nat.lt_succ_of_lt (h.allocated id hid)
      stamped := fun id hid => by
        rw [old id hid]
        exact Nat.le_trans (h.stamped id hid) (EventClock.value_le_tick h.clock)
      clock := EventClock.tick_le _
      index := fun _ hcached => nomatch hcached }
  have hpush : s.push hrtime event =
      { made with buffer :=
          if keepsSlot made.buffer event then
            made.buffer.storeSlot hrtime made.heap s.nextSlot
          else made.buffer } := rfl
  rw [hpush]
  by_cases hkeeps : keepsSlot made.buffer event
  · rw [if_pos hkeeps]
    obtain ⟨hclock, hroom⟩ := guard hkeeps
    have hslot : made.heap s.nextSlot = slot := Function.update_self ..
    have newest (other : SlotId) (hother : made.buffer.Stored other) :
        made.seqOf other < made.seqOf s.nextSlot := by
      have hseq : made.seqOf s.nextSlot = s.clock.tick.value := congrArg IOEventSlot.seq hslot
      rw [old other hother, hseq]
      exact Nat.lt_of_le_of_lt (h.stamped other hother) (EventClock.value_lt_tick hclock)
    have acc := hmade.chronological.accounted
    exact
      { chronological := hmade.chronological.storeSlot (by rw [hslot]; exact hroom) newest
        allocated := fun id hid => by
          rcases IOEventBuffer.stored_storeSlot acc hid with rfl | hold
          · exact Nat.lt_succ_self _
          · exact hmade.allocated id hold
        stamped := fun id hid => by
          rcases IOEventBuffer.stored_storeSlot acc hid with rfl | hold
          · exact Nat.le_of_eq (congrArg IOEventSlot.seq hslot)
          · exact hmade.stamped id hold
        clock := hmade.clock
        index := fun cached hcached => by
          have hnone := IOEventBuffer.makeRoom_requestIdIndex hrtime made.heap s.nextSlot
            acc
          exact nomatch hcached.symm.trans hnone }
  · rw [if_neg hkeeps]
    exact hmade

/-- The condition on the cell cannot be dropped: a stored push without room is read twice. -/
theorem hasRoom_of_orderedReads (h : s.Ordered) {event : PushableIOEvent}
    (hkeeps : keepsSlot s.buffer event) (reads : (s.push hrtime event).OrderedReads) :
    s.buffer.HasRoom (estimateBytes event.requestBody event.responseBody) := by
  by_contra hroom
  rw [IOEventBuffer.HasRoom, not_or, not_or] at hroom
  obtain ⟨hfull, hhead, hover⟩ := hroom
  let b : IOEventBuffer := { s.buffer with requestIdIndex := none }
  let t : BufferState := s.push hrtime event
  have acc : b.Accounted := h.chronological.accounted.congr rfl rfl
  have hfits : b.writeHead - b.readHead ≤ b.capacity := h.chronological.fits
  have hheads := acc.covered.heads
  have hpos := acc.covered.capacity_pos
  have hwindow : b.writeHead = b.readHead + b.capacity := by
    have hfull' : ¬ b.writeHead - b.readHead < b.capacity := hfull
    omega
  have hindex : b.writeHead % b.capacity = b.readHead % b.capacity := by
    rw [hwindow, Nat.add_mod_right]
  have hfree : b.slots (b.writeHead % b.capacity) = none := by
    rw [hindex]
    exact Option.not_isSome_iff_eq_none.mp hhead
  have hbytes : (t.heap s.nextSlot).estimatedBytes =
      estimateBytes event.requestBody event.responseBody := by
    simp only [t, BufferState.push, Function.update_self]
  have hover' : ¬ b.OverBudget (t.heap s.nextSlot).estimatedBytes := by
    rw [hbytes]
    exact hover
  have hbuffer : t.buffer = b.storeSlot hrtime t.heap s.nextSlot := if_pos hkeeps
  have hring : t.buffer.toRingBuffer = b.store s.nextSlot := by
    rw [hbuffer, IOEventBuffer.storeSlot_ring acc, IOEventBuffer.makeRoom_of_none hfree,
      IOEventBuffer.enforceByteBudget_of_not_overBudget hover']
  -- the first and the last cursor of the new window read the same cell
  have hsorted : (b.store s.nextSlot).Sorted t.seqOf := by
    rw [← hring]
    exact RingBuffer.sorted_of_pairwise_live reads.increasing
  have hlast := RingBuffer.store_get_writeHead b.toRingBuffer s.nextSlot
  have hfirst : (b.store s.nextSlot).get b.readHead = some s.nextSlot := by
    rw [RingBuffer.get, RingBuffer.store_capacity, ← hindex]
    exact hlast
  exact Nat.lt_irrefl _ (hsorted b.readHead b.writeHead _ _ (Nat.le_refl _) (by omega)
    (Nat.lt_succ_self _) hfirst hlast)

/-! ## Whole runs -/

theorem Initial.ordered (h : Initial s) : s.Ordered := by
  obtain ⟨hclock, capacity, maxBytes, storeContextEvents, hpos, hbuffer⟩ := h
  have hslots (i : Nat) : s.buffer.slots i = none := by
    rw [hbuffer]
    rfl
  have hstored (id : SlotId) : ¬ s.buffer.Stored id := by
    rintro ⟨i, hi⟩
    exact nomatch (hslots i).symm.trans hi
  refine
    { chronological := ?_, allocated := fun id hid => absurd hid (hstored id),
      stamped := fun id hid => absurd hid (hstored id), clock := hclock, index := ?_ }
  · rw [hbuffer]
    exact
      { accounted := IOEventBuffer.new_accounted hpos maxBytes storeContextEvents
        fits := Nat.zero_le _
        sorted := fun _ _ _ _ _ _ hlt => absurd hlt (Nat.not_lt_zero _)
        evictions := fun _ he => nomatch he }
  · intro cached hcached
    rw [hbuffer] at hcached
    exact nomatch hcached

theorem ordered_preserved : (system hrtime).Preserved KeepsOrder Ordered where
  init _ := Initial.ordered
  step s a t h guard hstep := by
    obtain rfl := Option.some.inj hstep
    cases a with
    | push event => exact h.push event guard
    | updatePayloadBytes oldBytes newBytes slot => exact h.updatePayloadBytes oldBytes newBytes slot
    | compactCompletedRequest requestId => exact h.compactCompletedRequest requestId
    | releaseCompletedRequest requestId => exact h.releaseCompletedRequest requestId
    | compactDetachedSlot slot => exact h.compactDetachedSlot slot
    | clear => exact h.clear
    | filterByRequestId requestId => exact h.cacheRequestIdIndex
    | record slot event estimatedBytes =>
        exact h.rewrite s.buffer.payloadBytes rfl (guard.imp_left Eq.symm)
    | tick => exact h.withClock (EventClock.value_le_tick h.clock) (EventClock.tick_le _)
    | merge received =>
        exact h.withClock (EventClock.value_le_merge h.clock received) (EventClock.merge_le _ _)

/-- In a run whose pushes find their cell behind the window, every reader sees the stored slots in
order and exactly once, and every eviction took the oldest. -/
theorem orderedReads_of_keepsOrder (s₀ s : BufferState) (run : List Action) (init : Initial s₀)
    (guarded : (system hrtime).Guarded KeepsOrder s₀ run)
    (reached : (system hrtime).exec s₀ run = some s) : s.OrderedReads :=
  (ordered_preserved.exec init guarded reached).reads

/-- An event of request `requestId` whose recorder is through with it. -/
def doneEvent (requestId : Text) : PushableIOEvent where
  phase := .done
  startTime := 0
  type := .dbQuery
  direction := .outbound
  requestId := some requestId
  contextLost := false
  target := ("db" : Text)
  requestHeaders := none
  responseHeaders := none
  requestBody := none
  responseBody := none
  requestBodyDigest := none
  responseBodyDigest := none
  requestPayloadRef := none
  responsePayloadRef := none
  requestBodyTruncated := false
  responseBodyTruncated := false
  requestBodyOriginalSize := none
  responseBodyOriginalSize := none
  error := none
  aborted := false
  dbMeta := none

/-- Three cells and a budget that is never reached. -/
def smallBuffer : BufferState where
  heap _ := { doneEvent [] with seq := 0, estimatedBytes := 0 }
  nextSlot := 0
  clock := { value := 0 }
  buffer := .new 3 100000 true

theorem smallBuffer_initial : Initial smallBuffer :=
  ⟨by decide, 3, 100000, true, by decide, rfl⟩

/-- The middle slot is released, and the push that follows still finds the head's cell. -/
def releaseRun : List Action :=
  [.push (doneEvent ['a']), .push (doneEvent ['b']), .push (doneEvent ['c']),
    .releaseCompletedRequest ['b'], .push (doneEvent ['d'])]

theorem releaseRun_orderedReads :
    ∃ s, (system fun _ => 0).exec smallBuffer releaseRun = some s ∧ s.buffer.drain = [2, 3] ∧
      s.OrderedReads :=
  ⟨_, rfl, by decide +kernel,
    orderedReads_of_keepsOrder smallBuffer _ releaseRun smallBuffer_initial (by decide +kernel) rfl⟩

/-- One push more: the window is full and its first cell, that of `b`, is empty. -/
def reuseRun : List Action := releaseRun ++ [.push (doneEvent ['e'])]

/-- The newest slot is read first and again last. -/
theorem reuseRun_not_orderedReads :
    ¬ ∀ s₀ s run, Initial s₀ → (system fun _ => 0).exec s₀ run = some s → s.OrderedReads := by
  intro claim
  have reads := (claim smallBuffer _ reuseRun smallBuffer_initial rfl).increasing
  have drained : ∀ s, (system fun _ => 0).exec smallBuffer reuseRun = some s →
      s.buffer.drain = [4, 2, 3, 4] := by
    intro s hs
    obtain rfl := Option.some.inj hs
    decide +kernel
  rw [drained _ rfl] at reads
  exact absurd (List.rel_of_pairwise_cons reads (by decide : (4 : SlotId) ∈ [2, 3, 4]))
    (Nat.lt_irrefl _)

end BufferState

end ErrorCore
