import ErrorCore.Context.EventClock
import ErrorCore.Foundation.RingBuffer
import ErrorCore.Types

/-!
# The IO event buffer

`src/buffer/io-event-buffer.ts`. Slots are objects that recorders keep changing
after they were pushed, so they live in a heap and the buffer holds references.
Releasing a completed request empties cells in the middle of the ring, which is
why the window between the two heads may contain holes.

The two `while` loops carry a bound on their number of iterations; that the
bound is never what stops them is proved in `Window.lean`. The readings of
`process.hrtime.bigint()` at evictions are a parameter, counted from the first.
The field `evictions` is not in the source: it records what was stored whenever
a counted eviction happened.
-/

namespace ErrorCore

/-- A reference to an `IOEventSlot` object. -/
abbrev SlotId := Nat

abbrev Heap := SlotId → IOEventSlot

def metadataOverhead : Nat := 256

def estimateBytes (requestBody responseBody : Option Body) : Nat :=
  metadataOverhead + (requestBody.map Body.length).getD 0 + (responseBody.map Body.length).getD 0

/-- The `seq` of a counted eviction, and of the slots stored just before it. -/
structure Eviction where
  seq : Nat
  stored : List Nat
  deriving DecidableEq, Repr

structure IOEventBuffer extends RingBuffer SlotId where
  maxBytes : Nat
  storeContextEvents : Bool
  slotCount : Nat
  payloadBytes : Int
  overflowCount : Nat
  storedSlots : List SlotId
  requestIdIndex : Option (List (Text × List SlotId))
  evictionSlots : Nat → Option EvictionRecord
  evictionWriteHead : Nat
  evictionCount : Nat
  evictions : List Eviction

namespace IOEventBuffer

def evictionLogCapacity : Nat := 100

/-- The constructor. -/
def new (capacity maxBytes : Nat) (storeContextEvents : Bool) : IOEventBuffer where
  capacity := capacity
  slots := fun _ => none
  readHead := 0
  writeHead := 0
  maxBytes := maxBytes
  storeContextEvents := storeContextEvents
  slotCount := 0
  payloadBytes := 0
  overflowCount := 0
  storedSlots := []
  requestIdIndex := none
  evictionSlots := fun _ => none
  evictionWriteHead := 0
  evictionCount := 0
  evictions := []

section Evict

variable (hrtime : Nat → Int) (heap : Heap) (b : IOEventBuffer)

/-- The part of `evictIndex` for a counted eviction. -/
def logEviction (id : SlotId) : IOEventBuffer :=
  let slot := heap id
  { b with
    evictionSlots := Function.update b.evictionSlots (b.evictionWriteHead % evictionLogCapacity)
      (some { seq := slot.seq, type := slot.type, direction := slot.direction,
              target := slot.target, requestId := slot.requestId, startTime := slot.startTime,
              evictedAt := hrtime b.evictionCount })
    evictionWriteHead := b.evictionWriteHead + 1
    evictionCount := b.evictionCount + 1
    overflowCount := b.overflowCount + 1
    evictions := { seq := slot.seq, stored := b.cells.map fun other => (heap other).seq } ::
      b.evictions }

/-- Empty the cell and take the slot out of the counters. -/
def removeSlot (index : Nat) (id : SlotId) : IOEventBuffer :=
  { b with
    toRingBuffer := b.toRingBuffer.erase index
    storedSlots := b.storedSlots.filter (· ≠ id)
    payloadBytes := b.payloadBytes - (heap id).estimatedBytes
    slotCount := b.slotCount - 1 }

/-- Where the end of `evictIndex` leaves the read head: an emptied head cell moves it by one. -/
def settledReadHead (index : Nat) : Nat :=
  if b.slotCount = 0 then b.writeHead
  else if index = b.readHead % b.capacity then b.readHead + 1
  else b.readHead

def evictIndex (index : Nat) (countOverflow : Bool) : IOEventBuffer :=
  match b.slots index with
  | none => b
  | some id =>
      let b := if countOverflow then b.logEviction hrtime heap id else b
      let b := b.removeSlot heap index id
      { b with readHead := b.settledReadHead index }

end Evict

section Loops

variable (hrtime : Nat → Int) (heap : Heap)

def evictOldestFrom : Nat → IOEventBuffer → IOEventBuffer
  | 0, b => b
  | fuel + 1, b =>
      if b.readHead < b.writeHead then
        if (b.slots (b.readHead % b.capacity)).isSome then
          b.evictIndex hrtime heap (b.readHead % b.capacity) true
        else
          evictOldestFrom fuel { b with readHead := b.readHead + 1 }
      else
        b

def evictOldest (b : IOEventBuffer) : IOEventBuffer :=
  evictOldestFrom hrtime heap (b.writeHead - b.readHead) b

/-- The condition of the loop of `enforceByteBudget`. -/
def OverBudget (b : IOEventBuffer) (incomingBytes : Int) : Prop :=
  (b.maxBytes : Int) < b.payloadBytes + incomingBytes ∧ 0 < b.slotCount

instance (b : IOEventBuffer) (incomingBytes : Int) : Decidable (b.OverBudget incomingBytes) := by
  unfold OverBudget
  infer_instance

def enforceByteBudgetFrom (incomingBytes : Int) : Nat → IOEventBuffer → IOEventBuffer
  | 0, b => b
  | fuel + 1, b =>
      if b.OverBudget incomingBytes then
        enforceByteBudgetFrom incomingBytes fuel (b.evictOldest hrtime heap)
      else
        b

def enforceByteBudget (b : IOEventBuffer) (incomingBytes : Int) : IOEventBuffer :=
  enforceByteBudgetFrom hrtime heap incomingBytes b.slotCount b

end Loops

/-! ## Readers -/

/-- `collectChronological`. -/
def drain (b : IOEventBuffer) : List SlotId := b.live

/-- The loop of `getRecent`, newest first. -/
def collectRecent (b : IOEventBuffer) (n : Int) : List SlotId → List Nat → List SlotId
  | recent, [] => recent
  | recent, cursor :: cursors =>
      let recent := match b.get cursor with
        | none => recent
        | some id => recent ++ [id]
      if n ≤ recent.length then recent else collectRecent b n recent cursors

def getRecent (b : IOEventBuffer) (n : Int) : List SlotId :=
  if n ≤ 0 ∨ b.slotCount = 0 then []
  else (b.collectRecent n [] b.cursors.reverse).reverse

def addToIndex (requestId : Text) (id : SlotId) :
    List (Text × List SlotId) → List (Text × List SlotId)
  | [] => [(requestId, [id])]
  | (other, ids) :: rest =>
      if other = requestId then (other, ids ++ [id]) :: rest
      else (other, ids) :: addToIndex requestId id rest

/-- The body of the loop of `filterByRequestId` that fills the index. -/
def indexCursor (heap : Heap) (b : IOEventBuffer) (index : List (Text × List SlotId))
    (cursor : Nat) : List (Text × List SlotId) :=
  match b.get cursor with
  | none => index
  | some id =>
      match (heap id).requestId with
      | none => index
      | some requestId => addToIndex requestId id index

def buildRequestIdIndex (heap : Heap) (b : IOEventBuffer) : List (Text × List SlotId) :=
  b.cursors.foldl (b.indexCursor heap) []

/-- The index the next reader uses: the cached one, or a new one. -/
def requestIdIndexFor (heap : Heap) (b : IOEventBuffer) : List (Text × List SlotId) :=
  b.requestIdIndex.getD (b.buildRequestIdIndex heap)

def filterByRequestId (heap : Heap) (b : IOEventBuffer) (requestId : Text) : List SlotId :=
  ((b.requestIdIndexFor heap).lookup requestId).getD []

/-- What a call of `filterByRequestId` leaves behind. -/
def cacheRequestIdIndex (heap : Heap) (b : IOEventBuffer) : IOEventBuffer :=
  { b with requestIdIndex := some (b.requestIdIndexFor heap) }

def getEvictionLog (b : IOEventBuffer) : List EvictionRecord :=
  let count := min b.evictionCount evictionLogCapacity
  let start := if b.evictionCount ≤ evictionLogCapacity then 0 else b.evictionWriteHead
  (List.range count).filterMap fun i => b.evictionSlots ((start + i) % evictionLogCapacity)

def getOverflowCount (b : IOEventBuffer) : Nat := b.overflowCount

/-! ## Writers -/

/-- The evictions of `push`: the slot it overwrites, then those over the budget. -/
def makeRoom (hrtime : Nat → Int) (heap : Heap) (b : IOEventBuffer) (id : SlotId) :
    IOEventBuffer :=
  let index := b.writeHead % b.capacity
  let b := if (b.slots index).isSome then b.evictIndex hrtime heap index true else b
  b.enforceByteBudget hrtime heap (heap id).estimatedBytes

/-- `push` from the computation of the index on. -/
def storeSlot (hrtime : Nat → Int) (heap : Heap) (b : IOEventBuffer) (id : SlotId) :
    IOEventBuffer :=
  let index := b.writeHead % b.capacity
  let b := b.makeRoom hrtime heap id
  { b with
    slots := Function.update b.slots index (some id)
    storedSlots := id :: b.storedSlots
    payloadBytes := b.payloadBytes + (heap id).estimatedBytes
    slotCount := b.slotCount + 1
    writeHead := b.writeHead + 1 }

def updatePayloadBytes (hrtime : Nat → Int) (heap : Heap) (b : IOEventBuffer)
    (oldBytes newBytes : Int) (slot : Option SlotId) : IOEventBuffer :=
  if slot.any (· ∉ b.storedSlots) then b
  else
    enforceByteBudget hrtime heap
      { b with requestIdIndex := none, payloadBytes := b.payloadBytes + (newBytes - oldBytes) } 0

def clear (b : IOEventBuffer) : IOEventBuffer :=
  { b with
    slots := b.cursors.foldl (fun slots cursor => Function.update slots (cursor % b.capacity) none)
      b.slots
    requestIdIndex := none
    payloadBytes := 0
    slotCount := 0
    readHead := b.writeHead }

end IOEventBuffer

/-- The slots a completed request no longer needs in full. -/
def IOEventSlot.successful (slot : IOEventSlot) : Bool :=
  slot.phase = .done && slot.error.isNone && !slot.aborted

def DbMeta.compact (dbMeta : DbMeta) : Option DbMeta :=
  if dbMeta.rowCount.isNone ∧ dbMeta.collection.isNone then none
  else
    some { query := none, params := none, rowCount := dbMeta.rowCount,
           collection := dbMeta.collection }

def compactSuccessfulSlot (slot : IOEventSlot) : IOEventSlot :=
  { slot with
    requestHeaders := none
    responseHeaders := none
    requestBody := none
    responseBody := none
    requestBodyDigest := none
    responseBodyDigest := none
    requestPayloadRef := none
    responsePayloadRef := none
    requestBodyTruncated := false
    responseBodyTruncated := false
    requestBodyOriginalSize := none
    responseBodyOriginalSize := none
    dbMeta := slot.dbMeta.bind DbMeta.compact
    estimatedBytes := estimateBytes none none }

/-- The slots, the clock that stamps them, and the buffer. -/
structure BufferState where
  heap : Heap
  nextSlot : SlotId
  clock : EventClock
  buffer : IOEventBuffer

namespace BufferState

/-- Slots of a request are kept in its own context unless context was lost. -/
def keepsSlot (b : IOEventBuffer) (event : PushableIOEvent) : Bool :=
  b.storeContextEvents || event.requestId.isNone || event.contextLost

variable (hrtime : Nat → Int)

/-- `push`: the new slot is `nextSlot` of the state before. -/
def push (s : BufferState) (event : PushableIOEvent) : BufferState :=
  let clock := s.clock.tick
  let slot : IOEventSlot :=
    { event with
      seq := clock.value
      estimatedBytes := estimateBytes event.requestBody event.responseBody }
  let heap := Function.update s.heap s.nextSlot slot
  let buffer := { s.buffer with requestIdIndex := none }
  { heap, clock
    nextSlot := s.nextSlot + 1
    buffer := if keepsSlot buffer event then buffer.storeSlot hrtime heap s.nextSlot else buffer }

/-- Compact one slot and correct the byte count by the difference. -/
def compactStored (s : BufferState) (id : SlotId) : BufferState :=
  let compacted := compactSuccessfulSlot (s.heap id)
  { s with
    heap := Function.update s.heap id compacted
    buffer :=
      { s.buffer with
        payloadBytes :=
          s.buffer.payloadBytes + (compacted.estimatedBytes - (s.heap id).estimatedBytes : Int) } }

/-- The slot at the cursor, if the request's successful slot is there. -/
def completedAt (s : BufferState) (requestId : Text) (cursor : Nat) : Option SlotId :=
  match s.buffer.get cursor with
  | none => none
  | some id =>
      if (s.heap id).requestId = some requestId && (s.heap id).successful then some id else none

/-- The loop of `compactCompletedRequest` over the cursors. -/
def compactFrom (requestId : Text) : BufferState → List Nat → BufferState
  | s, [] => s
  | s, cursor :: cursors =>
      match s.completedAt requestId cursor with
      | none => compactFrom requestId s cursors
      | some id => compactFrom requestId (s.compactStored id) cursors

def compactCompletedRequest (s : BufferState) (requestId : Text) : BufferState :=
  s.compactFrom requestId s.buffer.cursors

def releaseStored (s : BufferState) (cursor : Nat) (id : SlotId) : BufferState :=
  let s := s.compactStored id
  { s with
    buffer := s.buffer.evictIndex hrtime s.heap (cursor % s.buffer.capacity) false }

/-- The loop of `releaseCompletedRequest` over the cursors. -/
def releaseFrom (requestId : Text) : BufferState → List Nat → BufferState
  | s, [] => s
  | s, cursor :: cursors =>
      match s.completedAt requestId cursor with
      | none => releaseFrom requestId s cursors
      | some id => releaseFrom requestId (s.releaseStored hrtime cursor id) cursors

def releaseCompletedRequest (s : BufferState) (requestId : Text) : BufferState :=
  let s := { s with buffer := { s.buffer with requestIdIndex := none } }
  s.releaseFrom hrtime requestId s.buffer.cursors

def compactDetachedSlot (s : BufferState) (id : SlotId) : BufferState :=
  if (s.heap id).successful then
    { s with heap := Function.update s.heap id (compactSuccessfulSlot (s.heap id)) }
  else
    s

end BufferState

end ErrorCore
