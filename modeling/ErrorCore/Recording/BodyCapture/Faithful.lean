import ErrorCore.Recording.BodyCapture.ChunkViews

/-!
# A captured body is a prefix of what was delivered

A chunk adds to the capture as many of its bytes as there is room for, whether
the chunk fits, is cut or comes too late, so that the captured bytes depend on
the bytes delivered and not on how they were split. They are read when the body
is materialized, however, and then show what the host has written since. An
empty chunk that comes after exactly as many bytes as there is room for is taken
for one too many.
-/

namespace ErrorCore

namespace IOEventSlot

/-- `slot[truncatedKey]`. -/
def truncated (slot : IOEventSlot) : BodyKey → Bool
  | .requestBody => slot.requestBodyTruncated
  | .responseBody => slot.responseBodyTruncated

/-- `slot[originalSizeKey]`. -/
def originalSize (slot : IOEventSlot) : BodyKey → Option Nat
  | .requestBody => slot.requestBodyOriginalSize
  | .responseBody => slot.responseBodyOriginalSize

/-- `slot[digestKey]`. -/
def digest (slot : IOEventSlot) : BodyKey → Option Text
  | .requestBody => slot.requestBodyDigest
  | .responseBody => slot.responseBodyDigest

variable (slot : IOEventSlot) (key : BodyKey)

@[simp] theorem truncated_setTruncated (b : Bool) :
    (slot.setTruncated key b).truncated key = b := by
  cases key <;> rfl

@[simp] theorem truncated_setOriginalSize (size : Option Nat) :
    (slot.setOriginalSize key size).truncated key = slot.truncated key := by
  cases key <;> rfl

@[simp] theorem truncated_setBody (body : Option Body) :
    (slot.setBody key body).truncated key = slot.truncated key := by
  cases key <;> rfl

@[simp] theorem truncated_setDigest (digest : Option Text) :
    (slot.setDigest key digest).truncated key = slot.truncated key := by
  cases key <;> rfl

@[simp] theorem originalSize_setBody (body : Option Body) :
    (slot.setBody key body).originalSize key = slot.originalSize key := by
  cases key <;> rfl

@[simp] theorem originalSize_setDigest (digest : Option Text) :
    (slot.setDigest key digest).originalSize key = slot.originalSize key := by
  cases key <;> rfl

@[simp] theorem digest_setDigest (digest : Option Text) :
    (slot.setDigest key digest).digest key = digest := by
  cases key <;> rfl

@[simp] theorem originalSize_setOriginalSize (size : Option Nat) :
    (slot.setOriginalSize key size).originalSize key = size := by
  cases key <;> rfl

@[simp] theorem originalSize_setTruncated (b : Bool) :
    (slot.setTruncated key b).originalSize key = slot.originalSize key := by
  cases key <;> rfl

end IOEventSlot

namespace ChunkViews

variable (env : Environment) (config : BodyCaptureConfig) (key : BodyKey)

/-! ## What is to hold -/

/-- The bytes of the chunks as they were when the chunks came. -/
def delivered : Memory → List Event → List UInt8
  | _, [] => []
  | memory, .chunk chunk :: events =>
      match toBufferView env chunk with
      | none => delivered memory events
      | some buffer => buffer.read memory ++ delivered memory events
  | memory, .write buffer index byte :: events => delivered (memory.write buffer index byte) events

/-- The capture `s` is that of the bytes `bytes`; its body is read in `memory`. -/
structure Faithful (memory : Memory) (bytes : List UInt8) (s : State) : Prop where
  body : rawBody memory s.state = bytes.take config.getCaptureByteLimit
  truncated : s.slot.truncated key = true ↔ config.getCaptureByteLimit < bytes.length
  originalSize : config.getCaptureByteLimit < bytes.length →
    s.slot.originalSize key = some bytes.length
  digest : config.shouldHashBodies = true → 0 < s.state.capturedBytes →
    s.slot.digest key = some (env.sha256 bytes)

/-- What was captured of the chunks is in `final` as it was when they came; `seen` bytes came before
them. -/
def Kept (final : Memory) (limit : Nat) : Memory → Nat → List Event → Prop
  | _, _, [] => True
  | memory, seen, .chunk chunk :: events =>
      match toBufferView env chunk with
      | none => Kept final limit memory seen events
      | some buffer =>
          (buffer.read final).take (limit - seen) = (buffer.read memory).take (limit - seen) ∧
            Kept final limit memory (seen + buffer.length) events
  | memory, seen, .write buffer index byte :: events =>
      Kept final limit (memory.write buffer index byte) seen events

/-- An empty chunk comes when the capture is exactly full. -/
def EmptyAtLimit (limit : Nat) : Nat → List Event → Prop
  | _, [] => False
  | seen, .chunk chunk :: events =>
      match toBufferView env chunk with
      | none => EmptyAtLimit limit seen events
      | some buffer =>
          buffer.length = 0 ∧ seen = limit ∨ EmptyAtLimit limit (seen + buffer.length) events
  | seen, .write _ _ _ :: events => EmptyAtLimit limit seen events

/-! ## One chunk -/

/-- The captured part of the chunks, read in `final`. -/
def captured (final : Memory) (limit : Nat) : Nat → List Event → List UInt8
  | _, [] => []
  | seen, .chunk chunk :: events =>
      match toBufferView env chunk with
      | none => captured final limit seen events
      | some buffer =>
          (buffer.read final).take (limit - seen) ++
            captured final limit (seen + buffer.length) events
  | seen, .write _ _ _ :: events => captured final limit seen events

section Equations

variable {env : Environment} {memory final : Memory} {limit seen : Nat} {chunk : Chunk}
variable {buffer : BufferView} {events : List Event}

theorem delivered_absent (h : toBufferView env chunk = none) :
    delivered env memory (.chunk chunk :: events) = delivered env memory events := by
  rw [delivered, h]

theorem delivered_buffer (h : toBufferView env chunk = some buffer) :
    delivered env memory (.chunk chunk :: events) =
      buffer.read memory ++ delivered env memory events := by
  rw [delivered, h]

theorem kept_absent (h : toBufferView env chunk = none) :
    Kept env final limit memory seen (.chunk chunk :: events) ↔
      Kept env final limit memory seen events := by
  rw [Kept, h]

theorem kept_buffer (h : toBufferView env chunk = some buffer) :
    Kept env final limit memory seen (.chunk chunk :: events) ↔
      (buffer.read final).take (limit - seen) = (buffer.read memory).take (limit - seen) ∧
        Kept env final limit memory (seen + buffer.length) events := by
  rw [Kept, h]

theorem emptyAtLimit_absent (h : toBufferView env chunk = none) :
    EmptyAtLimit env limit seen (.chunk chunk :: events) ↔
      EmptyAtLimit env limit seen events := by
  rw [EmptyAtLimit, h]

theorem emptyAtLimit_buffer (h : toBufferView env chunk = some buffer) :
    EmptyAtLimit env limit seen (.chunk chunk :: events) ↔
      buffer.length = 0 ∧ seen = limit ∨
        EmptyAtLimit env limit (seen + buffer.length) events := by
  rw [EmptyAtLimit, h]

theorem captured_absent (h : toBufferView env chunk = none) :
    captured env final limit seen (.chunk chunk :: events) =
      captured env final limit seen events := by
  rw [captured, h]

theorem captured_buffer (h : toBufferView env chunk = some buffer) :
    captured env final limit seen (.chunk chunk :: events) =
      (buffer.read final).take (limit - seen) ++
        captured env final limit (seen + buffer.length) events := by
  rw [captured, h]

end Equations

/-- The accumulator and the slot after the bytes `bytes`. -/
structure Tracks (bytes : List UInt8) (state : Accumulator) (slot : IOEventSlot) : Prop where
  total : state.totalBytesSeen = bytes.length
  capturedBytes : state.capturedBytes = min bytes.length config.getCaptureByteLimit
  length : ∀ memory, (readAll memory state.chunks).length = state.capturedBytes
  fits : state.truncated = false → bytes.length ≤ config.getCaptureByteLimit
  full : state.truncated = true → config.getCaptureByteLimit ≤ bytes.length
  flag : slot.truncated key = state.truncated
  size : state.truncated = true → slot.originalSize key = some bytes.length
  digest : state.digest =
    if config.shouldHashBodies then some { data := bytes, closed := false } else none
  noHex : state.digestHex = none

/-- What a buffer adds to the capture. -/
structure Adds (memory : Memory) (bytes : List UInt8) (state : Accumulator) (buffer : BufferView)
    (after : Accumulator × IOEventSlot) : Prop where
  tracks : Tracks config key (bytes ++ buffer.read memory) after.1 after.2
  chunks : ∀ final, readAll final after.1.chunks =
    readAll final state.chunks ++
      (buffer.read final).take (config.getCaptureByteLimit - bytes.length)
  truncated : after.1.truncated = true ↔
    state.truncated = true ∨ config.getCaptureByteLimit < bytes.length + buffer.length ∨
      buffer.length = 0 ∧ bytes.length = config.getCaptureByteLimit

/-- What events add to a capture that has `bytes` already. -/
structure AddsAll (bytes : List UInt8) (s t : State) (events : List Event) : Prop where
  tracks : Tracks config key (bytes ++ delivered env s.memory events) t.state t.slot
  chunks : ∀ final, readAll final t.state.chunks =
    readAll final s.state.chunks ++
      captured env final config.getCaptureByteLimit bytes.length events
  truncated : t.state.truncated = true ↔
    s.state.truncated = true ∨
      config.getCaptureByteLimit < bytes.length + (delivered env s.memory events).length ∨
      EmptyAtLimit env config.getCaptureByteLimit bytes.length events

section Chunk

variable {env : Environment} {config : BodyCaptureConfig} {key : BodyKey}
variable {bytes : List UInt8} {state : Accumulator} {slot : IOEventSlot}

theorem readAll_concat (memory : Memory) (chunks : List BufferView) (buffer : BufferView) :
    readAll memory (chunks ++ [buffer]) = readAll memory chunks ++ buffer.read memory := by
  rw [readAll, List.flatMap_append, List.flatMap_singleton]
  rfl

theorem Tracks.captureBuffer (h : Tracks config key bytes state slot) (memory : Memory)
    (buffer : BufferView) :
    Adds config key memory bytes state buffer
      (captureBuffer config key memory state slot buffer) := by
  have hlength : (bytes ++ buffer.read memory).length = bytes.length + buffer.length := by
    rw [List.length_append, BufferView.length_read]
  have hdigest : (state.digest.map fun digest =>
      { digest with data := digest.data ++ buffer.read memory }) =
        if config.shouldHashBodies then
          some { data := bytes ++ buffer.read memory, closed := false }
        else none := by
    rw [h.digest]
    split <;> rfl
  have hopened : state.digest.any (·.closed) = false := by
    rw [h.digest]
    split <;> rfl
  have hcapturedBytes := h.capturedBytes
  have htotal := h.total
  have hno : ∀ final : Memory, config.getCaptureByteLimit ≤ bytes.length →
      (buffer.read final).take (config.getCaptureByteLimit - bytes.length) = [] := by
    intro final hle
    rw [Nat.sub_eq_zero_of_le hle, List.take_zero]
  rw [ChunkViews.captureBuffer]
  dsimp only
  rw [hopened, if_neg Bool.false_ne_true]
  by_cases htruncated : state.truncated = true
  · have hfull := h.full htruncated
    rw [if_pos htruncated]
    exact
      { tracks :=
          { total := by rw [hlength, ← htotal]
            capturedBytes := by rw [hlength, hcapturedBytes]; omega
            length := h.length
            fits := fun hopen => absurd (htruncated.symm.trans hopen) Bool.noConfusion
            full := fun _ => by rw [hlength]; omega
            flag := by rw [IOEventSlot.truncated_setOriginalSize]; exact h.flag
            size := fun _ => by rw [IOEventSlot.originalSize_setOriginalSize, hlength, htotal]
            digest := hdigest
            noHex := h.noHex }
        chunks := fun final => by rw [hno final hfull, List.append_nil]
        truncated := ⟨.inl, fun _ => htruncated⟩ }
  · have hopen : state.truncated = false := Bool.eq_false_iff.mpr htruncated
    have hfits := h.fits hopen
    have hcaptured : state.capturedBytes = bytes.length := by rw [hcapturedBytes]; omega
    rw [if_neg htruncated]
    by_cases hfull : config.getCaptureByteLimit ≤ state.capturedBytes
    · rw [if_pos hfull]
      exact
        { tracks :=
            { total := by rw [hlength, ← htotal]
              capturedBytes := by rw [hlength, hcapturedBytes]; omega
              length := h.length
              fits := Bool.noConfusion
              full := fun _ => by rw [hlength]; omega
              flag := IOEventSlot.truncated_setTruncated _ _ _
              size := fun _ => by
                rw [IOEventSlot.originalSize_setTruncated,
                  IOEventSlot.originalSize_setOriginalSize, hlength, htotal]
              digest := hdigest
              noHex := h.noHex }
          chunks := fun final => by rw [hno final (by omega), List.append_nil]
          truncated := ⟨fun _ => .inr (by omega), fun _ => rfl⟩ }
    · rw [if_neg hfull, hcaptured]
      by_cases hroom : buffer.length ≤ config.getCaptureByteLimit - bytes.length
      · rw [if_pos hroom, if_pos hroom]
        exact
          { tracks :=
              { total := by rw [hlength, ← htotal]
                capturedBytes := by dsimp only; rw [hlength]; omega
                length := fun final => by
                  rw [readAll_concat, List.length_append, h.length, hcaptured,
                    BufferView.length_read]
                fits := fun _ => by rw [hlength]; omega
                full := fun htrue => absurd (hopen.symm.trans htrue) Bool.noConfusion
                flag := h.flag
                size := fun htrue => absurd (hopen.symm.trans htrue) Bool.noConfusion
                digest := hdigest
                noHex := h.noHex }
            chunks := fun final => by
              rw [readAll_concat, List.take_of_length_le (by rwa [BufferView.length_read])]
            truncated :=
              ⟨fun htrue => absurd (hopen.symm.trans htrue) Bool.noConfusion, fun hcases => by
                exfalso
                rcases hcases with htrue | hover | ⟨-, hat⟩
                · exact htruncated htrue
                · omega
                · omega⟩ }
      · rw [if_neg hroom, if_neg hroom]
        exact
          { tracks :=
              { total := by rw [hlength, ← htotal]
                capturedBytes := by dsimp only; rw [hlength, BufferView.length_subarray]; omega
                length := fun final => by
                  rw [readAll_concat, List.length_append, h.length, hcaptured,
                    BufferView.length_read]
                fits := Bool.noConfusion
                full := fun _ => by rw [hlength]; omega
                flag := IOEventSlot.truncated_setTruncated _ _ _
                size := fun _ => by
                  rw [IOEventSlot.originalSize_setTruncated,
                    IOEventSlot.originalSize_setOriginalSize, hlength, htotal]
                digest := hdigest
                noHex := h.noHex }
            chunks := fun final => by rw [readAll_concat, BufferView.read_subarray]
            truncated := ⟨fun _ => .inr (.inl (by omega)), fun _ => rfl⟩ }

end Chunk

/-! ## All chunks -/

section Run

variable {env : Environment} {config : BodyCaptureConfig} {key : BodyKey}
variable {bytes : List UInt8} {s : State}

theorem Tracks.run (h : Tracks config key bytes s.state s.slot) (events : List Event) :
    AddsAll env config key bytes s (run env config key s events) events := by
  induction events generalizing bytes s with
  | nil =>
      have hfits := h.fits
      exact
        { tracks := by rw [delivered, List.append_nil]; exact h
          chunks := fun final => by rw [captured, List.append_nil]; rfl
          truncated := by
            refine ⟨.inl, fun hcases => ?_⟩
            rcases hcases with htrue | hover | hfalse
            · exact htrue
            · by_contra hopen
              have := hfits (Bool.eq_false_iff.mpr hopen)
              rw [delivered, List.length_nil] at hover
              omega
            · exact hfalse.elim }
  | cons event events ih =>
      cases event with
      | write buffer index byte =>
          have rest := ih (s := { s with memory := s.memory.write buffer index byte }) h
          exact ⟨rest.tracks, rest.chunks, rest.truncated⟩
      | chunk chunk =>
          cases hbuffer : toBufferView env chunk with
          | none =>
              have hstep : step env config key s (.chunk chunk) = s := by
                rw [step, captureChunk, hbuffer]
              have rest := ih h
              rw [ChunkViews.run, List.foldl_cons, hstep]
              exact
                { tracks := by rw [delivered_absent hbuffer]; exact rest.tracks
                  chunks := fun final => by rw [captured_absent hbuffer]; exact rest.chunks final
                  truncated := by
                    rw [delivered_absent hbuffer, emptyAtLimit_absent hbuffer]
                    exact rest.truncated }
          | some buffer =>
              have hstep : step env config key s (.chunk chunk) =
                  { memory := s.memory
                    state := (ChunkViews.captureBuffer config key s.memory s.state s.slot buffer).1
                    slot :=
                      (ChunkViews.captureBuffer config key s.memory s.state s.slot buffer).2 } := by
                rw [step, captureChunk, hbuffer]
              have first := h.captureBuffer s.memory buffer
              have rest := ih (s := step env config key s (.chunk chunk)) (by
                rw [hstep]
                exact first.tracks)
              rw [hstep] at rest
              rw [ChunkViews.run, List.foldl_cons, hstep]
              exact
                { tracks := by
                    rw [delivered_buffer hbuffer, ← List.append_assoc]
                    exact rest.tracks
                  chunks := fun final => by
                    rw [captured_buffer hbuffer, ← List.append_assoc, ← first.chunks,
                      ← BufferView.length_read s.memory, ← List.length_append]
                    exact rest.chunks final
                  truncated := by
                    have hrest := rest.truncated
                    rw [List.length_append, BufferView.length_read] at hrest
                    rw [delivered_buffer hbuffer, emptyAtLimit_buffer hbuffer, List.length_append,
                      BufferView.length_read, ← Nat.add_assoc]
                    refine hrest.trans ?_
                    rw [first.truncated]
                    constructor
                    · rintro ((htrue | hover | hempty) | hmore | hlater)
                      · exact .inl htrue
                      · exact .inr (.inl (by omega))
                      · exact .inr (.inr (.inl hempty))
                      · exact .inr (.inl hmore)
                      · exact .inr (.inr (.inr hlater))
                    · rintro (htrue | hover | hempty | hlater)
                      · exact .inl (.inl htrue)
                      · exact .inr (.inl hover)
                      · exact .inl (.inr (.inr hempty))
                      · exact .inr (.inr hlater) }

/-- What is read in the end is what was delivered when each chunk was kept. -/
theorem kept_iff (final memory : Memory) (limit seen : Nat) (events : List Event) :
    Kept env final limit memory seen events ↔
      captured env final limit seen events =
        (delivered env memory events).take (limit - seen) := by
  induction events generalizing memory seen with
  | nil => rw [captured, delivered, List.take_nil, Kept]; exact ⟨fun _ => rfl, fun _ => trivial⟩
  | cons event events ih =>
      cases event with
      | write buffer index byte => exact ih (memory.write buffer index byte) seen
      | chunk chunk =>
          cases hbuffer : toBufferView env chunk with
          | none =>
              rw [kept_absent hbuffer, captured_absent hbuffer, delivered_absent hbuffer]
              exact ih memory seen
          | some buffer =>
              have hlength : ((buffer.read final).take (limit - seen)).length =
                  ((buffer.read memory).take (limit - seen)).length := by
                rw [List.length_take, List.length_take, BufferView.length_read,
                  BufferView.length_read]
              rw [kept_buffer hbuffer, captured_buffer hbuffer, delivered_buffer hbuffer, ih,
                List.take_append, BufferView.length_read, Nat.sub_sub]
              constructor
              · rintro ⟨hfirst, hrest⟩
                rw [hfirst, hrest]
              · exact fun heq => List.append_inj heq hlength

theorem tracks_fresh {slot : IOEventSlot} (hslot : slot.truncated key = false)
    (headers : Option Headers) :
    Tracks config key [] (.fresh config headers) slot where
  total := rfl
  capturedBytes := (Nat.zero_min _).symm
  length _ := rfl
  fits _ := Nat.zero_le _
  full := Bool.noConfusion
  flag := hslot
  size := Bool.noConfusion
  digest := rfl
  noHex := rfl

theorem rawBody_of_tracks (h : Tracks config key bytes s.state s.slot) (memory : Memory) :
    rawBody memory s.state = readAll memory s.state.chunks := by
  rw [rawBody, bufferConcat, List.take_append_of_le_length (Nat.le_of_eq (h.length memory).symm),
    ← h.length memory, List.take_length]

theorem takeDigest_digestHex (h : Tracks config key bytes s.state s.slot)
    (hhash : config.shouldHashBodies = true) (hcaptured : 0 < s.state.capturedBytes)
    (headers : Option Headers) :
    (Accumulator.takeDigest env { s.state with finalized := true, headers }).digestHex =
      some (env.sha256 bytes) := by
  have hdigest : s.state.digest = some { data := bytes, closed := false } := by
    rw [h.digest, if_pos hhash]
  rw [Accumulator.takeDigest]
  dsimp only
  rw [hdigest, h.noHex, if_pos (by simpa using hcaptured)]
  rfl

end Run

section Final

variable {env : Environment} {config : BodyCaptureConfig} {key : BodyKey}
variable (state : Accumulator) (slot : IOEventSlot) (headers : Option Headers)

@[simp] theorem takeDigest_chunks : (state.takeDigest env).chunks = state.chunks := by
  rw [Accumulator.takeDigest]
  split <;> rfl

@[simp] theorem takeDigest_capturedBytes :
    (state.takeDigest env).capturedBytes = state.capturedBytes := by
  rw [Accumulator.takeDigest]
  split <;> rfl

theorem finalizeCapture_truncated :
    (finalizeCapture env config key state slot headers).2.truncated key = slot.truncated key := by
  cases key <;> rfl

theorem finalizeCapture_originalSize :
    (finalizeCapture env config key state slot headers).2.originalSize key =
      slot.originalSize key := by
  cases key <;> rfl

theorem finalizeCapture_digest :
    (finalizeCapture env config key state slot headers).2.digest key =
      (Accumulator.takeDigest env { state with finalized := true, headers }).digestHex := by
  cases key <;> rfl

theorem rawBody_finalizeCapture (memory : Memory) :
    rawBody memory (finalizeCapture env config key state slot headers).1 =
      rawBody memory state := by
  rw [finalizeCapture, rawBody, takeDigest_chunks, takeDigest_capturedBytes]
  rfl

end Final

/-! ## The model on bytes -/

section Bytes

variable {key : BodyKey}

/-- The accumulator with the bytes that the views show. -/
def Accumulator.read (memory : Memory) (state : Accumulator) : AccumulatorState where
  chunks := state.chunks.map (BufferView.read memory)
  totalBytesSeen := state.totalBytesSeen
  capturedBytes := state.capturedBytes
  truncated := state.truncated
  finalized := state.finalized
  contentTypeChecked := state.contentTypeChecked
  digest := state.digest
  digestHex := state.digestHex
  headers := state.headers

/-- As long as the memory stays, capturing a view is capturing its bytes. -/
theorem captureChunk_read (s : CaptureState) (id : StateId) (slot : SlotId) (memory : Memory)
    {state : Accumulator} (hstate : s.states id = state.read memory) (buffer : BufferView) :
    let after := captureBuffer s.config key memory state (s.heap slot) buffer
    (s.captureChunk id slot key (buffer.read memory)).states id = after.1.read memory ∧
      (s.captureChunk id slot key (buffer.read memory)).heap slot = after.2 := by
  rw [CaptureState.captureChunk, captureBuffer, hstate]
  by_cases hclosed : state.digest.any (·.closed) = true
  · have hclosed' : (state.read memory).digest.any (·.closed) = true := hclosed
    simp only [if_pos hclosed, if_pos hclosed']
    exact ⟨hstate, trivial⟩
  have hclosed' : ¬ (state.read memory).digest.any (·.closed) = true := hclosed
  simp only [if_neg hclosed, if_neg hclosed', BufferView.length_read]
  by_cases htruncated : state.truncated = true
  · have htruncated' : (state.read memory).truncated = true := htruncated
    simp only [if_pos htruncated, if_pos htruncated']
    exact ⟨Function.update_self .., Function.update_self ..⟩
  have htruncated' : ¬ (state.read memory).truncated = true := htruncated
  simp only [if_neg htruncated, if_neg htruncated']
  have hcaptured : (state.read memory).capturedBytes = state.capturedBytes := rfl
  rw [hcaptured]
  by_cases hfull : s.config.getCaptureByteLimit ≤ state.capturedBytes
  · simp only [if_pos hfull]
    exact ⟨Function.update_self .., Function.update_self ..⟩
  simp only [if_neg hfull]
  by_cases hroom : buffer.length ≤ s.config.getCaptureByteLimit - state.capturedBytes
  · simp only [if_pos hroom]
    rw [List.take_of_length_le (by rwa [BufferView.length_read]), BufferView.length_read]
    refine ⟨(Function.update_self ..).trans ?_, rfl⟩
    rw [Accumulator.read, Accumulator.read, List.map_append, List.map_singleton]
  · simp only [if_neg hroom]
    rw [← BufferView.read_subarray, BufferView.length_read]
    refine ⟨(Function.update_self ..).trans ?_, Function.update_self ..⟩
    rw [Accumulator.read, Accumulator.read, List.map_append, List.map_singleton]

end Bytes

/-- A captured body, its flag, its size and its digest are those of the delivered bytes exactly if the
captured part of each chunk is unchanged when the body is read, and bytes follow the empty chunks
that come when the capture is full. -/
theorem faithful_iff (final memory : Memory) (slot : IOEventSlot) (headers : Option Headers)
    (events : List Event) (fresh : slot.truncated key = false) :
    Faithful env config key final (delivered env memory events)
        (capture env config key memory slot headers events) ↔
      Kept env final config.getCaptureByteLimit memory 0 events ∧
        (EmptyAtLimit env config.getCaptureByteLimit 0 events →
          config.getCaptureByteLimit < (delivered env memory events).length) := by
  let start : State := { memory, state := .fresh config none, slot }
  have adds : AddsAll env config key [] start (run env config key start events) events :=
    (tracks_fresh fresh none).run events
  have tracks := adds.tracks
  rw [List.nil_append] at tracks
  have hbody : rawBody final (capture env config key memory slot headers events).state =
      captured env final config.getCaptureByteLimit 0 events := by
    rw [capture, rawBody_finalizeCapture, rawBody_of_tracks tracks, adds.chunks final]
    rfl
  have htruncated : (capture env config key memory slot headers events).slot.truncated key = true ↔
      config.getCaptureByteLimit < (delivered env memory events).length ∨
        EmptyAtLimit env config.getCaptureByteLimit 0 events := by
    rw [capture, finalizeCapture_truncated, tracks.flag, adds.truncated, List.length_nil,
      Nat.zero_add]
    exact ⟨fun hcases => hcases.resolve_left Bool.false_ne_true, .inr⟩
  have hsize : config.getCaptureByteLimit < (delivered env memory events).length →
      (capture env config key memory slot headers events).slot.originalSize key =
        some (delivered env memory events).length := by
    intro hover
    rw [capture, finalizeCapture_originalSize]
    refine tracks.size (adds.truncated.mpr (.inr (.inl ?_)))
    rwa [List.length_nil, Nat.zero_add]
  have hdigest : config.shouldHashBodies = true →
      0 < (capture env config key memory slot headers events).state.capturedBytes →
        (capture env config key memory slot headers events).slot.digest key =
          some (env.sha256 (delivered env memory events)) := by
    intro hhash hcaptured
    rw [capture, finalizeCapture_digest]
    rw [capture, finalizeCapture, takeDigest_capturedBytes] at hcaptured
    exact takeDigest_digestHex tracks hhash hcaptured headers
  rw [kept_iff, Nat.sub_zero]
  constructor
  · intro faithful
    exact ⟨hbody.symm.trans faithful.body,
      fun hempty => faithful.truncated.mp (htruncated.mpr (.inr hempty))⟩
  · rintro ⟨hkept, hempty⟩
    exact
      { body := hbody.trans hkept
        truncated := htruncated.trans ⟨fun hcases => hcases.elim id hempty, .inl⟩
        originalSize := hsize
        digest := hdigest }

/-! ## A shared buffer and a full capture -/

def plainEnvironment : Environment where
  bufferFrom text _ := text.map fun c => UInt8.ofNat c.toNat
  sha256 bytes := bytes.map fun byte => Char.ofNat byte.toNat

def twoBytes : BodyCaptureConfig where
  maxPayloadSize := 2
  captureDigest := true
  bodyCaptureContentTypes := []
  maxCaptureBytes := none

def uploadSlot : IOEventSlot where
  phase := .active
  startTime := 0
  type := .httpServer
  direction := .inbound
  requestId := none
  contextLost := true
  target := "/upload"
  requestHeaders := none
  responseHeaders := none
  requestBody := none
  responseBody := none
  requestBodyDigest := none
  responseBodyDigest := none
  requestPayloadRef := none
  responsePayloadRef := none
  requestBodyTruncated := false
  responseBodyTruncated := false
  requestBodyOriginalSize := none
  responseBodyOriginalSize := none
  error := none
  aborted := false
  dbMeta := none
  seq := 1
  estimatedBytes := 256

def numbered : Memory := fun _ index => UInt8.ofNat index

def sharedChunk : Chunk := .buffer { buffer := 0, byteOffset := 7, byteLength := 2 }

/-- What the host does to the memory of `sharedChunk` afterwards. -/
def overwritten : Memory := numbered.write 0 7 (UInt8.ofNat 99)

theorem sharedChunk_faithful :
    Faithful plainEnvironment twoBytes .requestBody numbered
      (delivered plainEnvironment numbered [.chunk sharedChunk, .chunk sharedChunk])
      (capture plainEnvironment twoBytes .requestBody numbered uploadSlot none
        [.chunk sharedChunk, .chunk sharedChunk]) :=
  (faithful_iff plainEnvironment twoBytes .requestBody numbered numbered uploadSlot none
    [.chunk sharedChunk, .chunk sharedChunk] rfl).mpr ⟨⟨rfl, rfl, trivial⟩, fun _ => by decide⟩

/-- A buffer that the host writes to again shows in the body, and an empty chunk after a body that
fits exactly marks it as truncated. -/
theorem capture_unfaithful :
    ¬ Faithful plainEnvironment twoBytes .requestBody overwritten
        (delivered plainEnvironment numbered [.chunk sharedChunk, .write 0 7 (UInt8.ofNat 99)])
        (capture plainEnvironment twoBytes .requestBody numbered uploadSlot none
          [.chunk sharedChunk, .write 0 7 (UInt8.ofNat 99)]) ∧
      ¬ Faithful plainEnvironment twoBytes .requestBody numbered
        (delivered plainEnvironment numbered [.chunk sharedChunk, .chunk (.string [] none)])
        (capture plainEnvironment twoBytes .requestBody numbered uploadSlot none
          [.chunk sharedChunk, .chunk (.string [] none)]) :=
  ⟨fun h => absurd h.body (by decide), fun h => absurd (h.truncated.mp rfl) (by decide)⟩

end ChunkViews

end ErrorCore
