import ErrorCore.Recording.BodyCapture

/-!
# Chunks as views

`captureChunk` of `src/recording/body-capture.ts`, below the model that takes the
bytes of a chunk for the chunk: a buffer is a view of memory that the host shares
and may write to again, and a capture keeps the views. Only a chunk that
`toBufferView` converts from a string has memory of its own. The digest is fed
when a chunk is delivered, and the views are read when the body is materialized.
-/

namespace ErrorCore.ChunkViews

abbrev BufferId := Nat

/-- The bytes of each `ArrayBuffer`. -/
abbrev Memory := BufferId → Nat → UInt8

def Memory.write (memory : Memory) (buffer : BufferId) (index : Nat) (byte : UInt8) : Memory :=
  Function.update memory buffer (Function.update (memory buffer) index byte)

structure View where
  buffer : BufferId
  byteOffset : Nat
  byteLength : Nat
  deriving DecidableEq, Repr

def View.read (memory : Memory) (view : View) : List UInt8 :=
  (List.range view.byteLength).map fun index => memory view.buffer (view.byteOffset + index)

/-- A `Buffer`, on memory of the host or on memory of its own. -/
inductive BufferView
  | shared (view : View)
  | own (bytes : List UInt8)
  deriving DecidableEq, Repr

namespace BufferView

def length : BufferView → Nat
  | .shared view => view.byteLength
  | .own bytes => bytes.length

def read (memory : Memory) : BufferView → List UInt8
  | .shared view => view.read memory
  | .own bytes => bytes

/-- `buffer.subarray(0, end)`. -/
def subarray (finish : Nat) : BufferView → BufferView
  | .shared view => .shared { view with byteLength := min finish view.byteLength }
  | .own bytes => .own (bytes.take finish)

variable (memory : Memory) (buffer : BufferView) (finish : Nat)

@[simp] theorem length_read : (buffer.read memory).length = buffer.length := by
  cases buffer with
  | shared view => rw [read, View.read, List.length_map, List.length_range, length]
  | own bytes => rfl

@[simp] theorem read_subarray :
    (buffer.subarray finish).read memory = (buffer.read memory).take finish := by
  cases buffer with
  | shared view =>
      rw [subarray, read, View.read, read, View.read, ← List.map_take, List.take_range]
  | own bytes => rfl

@[simp] theorem length_subarray : (buffer.subarray finish).length = min finish buffer.length := by
  cases buffer with
  | shared view => rfl
  | own bytes => exact List.length_take

end BufferView

/-- What a stream or the host hands over. -/
inductive Chunk
  /-- `null`, `undefined` or `false`. -/
  | absent
  | buffer (view : View)
  | uint8Array (view : View)
  | string (text : Text) (encoding : Option Text)
  /-- Any other value, with its `String(chunk)`. -/
  | other (text : Text)
  deriving DecidableEq, Repr

/-- `Buffer.from` of a string, and SHA-256 in hexadecimal. -/
structure Environment where
  bufferFrom : Text → Option Text → List UInt8
  sha256 : List UInt8 → Text

def toBufferView (env : Environment) : Chunk → Option BufferView
  | .absent => none
  | .buffer view => some (.shared view)
  | .uint8Array view => some (.shared view)
  | .string text encoding => some (.own (env.bufferFrom text encoding))
  | .other text => some (.own (env.bufferFrom text none))

/-- An `AccumulatorState` whose chunks are views. -/
structure Accumulator where
  chunks : List BufferView
  totalBytesSeen : Nat
  capturedBytes : Nat
  truncated : Bool
  finalized : Bool
  contentTypeChecked : Bool
  digest : Option Sha256Hash
  digestHex : Option Text
  headers : Option Headers
  deriving DecidableEq, Repr

/-- `createState`. -/
def Accumulator.fresh (config : BodyCaptureConfig) (headers : Option Headers) : Accumulator where
  chunks := []
  totalBytesSeen := 0
  capturedBytes := 0
  truncated := false
  finalized := false
  contentTypeChecked := false
  digest := if config.shouldHashBodies then some { data := [], closed := false } else none
  digestHex := none
  headers

/-- What is in the memory that the views show. -/
def readAll (memory : Memory) (chunks : List BufferView) : List UInt8 :=
  chunks.flatMap (BufferView.read memory)

variable (env : Environment) (config : BodyCaptureConfig) (key : BodyKey)

/-- A buffer that `captureChunk` was given, and the slot. A hash whose digest was taken throws on
`update`, before anything changes. -/
def captureBuffer (memory : Memory) (state : Accumulator) (slot : IOEventSlot)
    (buffer : BufferView) : Accumulator × IOEventSlot :=
  let counted : Accumulator :=
    { state with
      digest := state.digest.map fun digest =>
        { digest with data := digest.data ++ buffer.read memory }
      totalBytesSeen := state.totalBytesSeen + buffer.length }
  let sized := slot.setOriginalSize key (some counted.totalBytesSeen)
  if state.digest.any (·.closed) then (state, slot)
  else if state.truncated then (counted, sized)
  else if config.getCaptureByteLimit ≤ state.capturedBytes then
    ({ counted with truncated := true }, sized.setTruncated key true)
  else
    let remaining := config.getCaptureByteLimit - state.capturedBytes
    let captured := if buffer.length ≤ remaining then buffer else buffer.subarray remaining
    let kept : Accumulator :=
      { counted with
        chunks := state.chunks ++ [captured]
        capturedBytes := state.capturedBytes + captured.length }
    if buffer.length ≤ remaining then (kept, slot)
    else ({ kept with truncated := true }, sized.setTruncated key true)

def captureChunk (memory : Memory) (state : Accumulator) (slot : IOEventSlot) (chunk : Chunk) :
    Accumulator × IOEventSlot :=
  match toBufferView env chunk with
  | none => (state, slot)
  | some buffer => captureBuffer config key memory state slot buffer

def Accumulator.takeDigest (state : Accumulator) : Accumulator :=
  if state.digest.isSome && state.digestHex.isNone && 0 < state.capturedBytes then
    { state with
      digestHex := state.digest.map fun digest => env.sha256 digest.data
      digest := state.digest.map fun digest =>
        { digest with closed := digest.closed || state.finalized } }
  else state

/-- `finalizeCapture` of a slot that is still the one the capture began with. -/
def finalizeCapture (state : Accumulator) (slot : IOEventSlot) (headers : Option Headers) :
    Accumulator × IOEventSlot :=
  let final := Accumulator.takeDigest env { state with finalized := true, headers }
  (final,
    { (slot.setBody key none).setDigest key final.digestHex with
      estimatedBytes :=
        slot.estimatedBytes + min final.capturedBytes config.maxPayloadSize })

/-- `Buffer.concat(chunks, totalLength)`, which cuts the bytes or fills them up with zeros. -/
def bufferConcat (memory : Memory) (chunks : List BufferView) (totalLength : Nat) : List UInt8 :=
  (readAll memory chunks ++ List.replicate totalLength 0).take totalLength

/-- The bytes that `materializeBody` scrubs. -/
def rawBody (memory : Memory) (state : Accumulator) : List UInt8 :=
  bufferConcat memory state.chunks state.capturedBytes

/-! ## Runs -/

inductive Event
  | chunk (chunk : Chunk)
  /-- The host writes to memory. -/
  | write (buffer : BufferId) (index : Nat) (byte : UInt8)
  deriving DecidableEq, Repr

structure State where
  memory : Memory
  state : Accumulator
  slot : IOEventSlot

def step (s : State) : Event → State
  | .chunk chunk =>
      let (state, slot) := captureChunk env config key s.memory s.state s.slot chunk
      { s with state, slot }
  | .write buffer index byte => { s with memory := s.memory.write buffer index byte }

def run (s : State) (events : List Event) : State := events.foldl (step env config key) s

/-- A capture from its first chunk until it is finalized; `headers` are the ones it ends with. -/
def capture (memory : Memory) (slot : IOEventSlot) (headers : Option Headers)
    (events : List Event) : State :=
  let s := run env config key { memory, state := .fresh config none, slot } events
  let (state, slot) := finalizeCapture env config key s.state s.slot headers
  { s with state, slot }

end ErrorCore.ChunkViews
