import ErrorCore.Buffer.IOEventBuffer.Bytes
import ErrorCore.Foundation.Transition
import ErrorCore.Recording.BodyCapture

/-!
# Byte accounting under body capture

Runs of the buffer together with the captures that rewrite its slots. The
surplus of the byte counter moves in two ways only: `materializeBody` and
`compactDetachedSlot` rewrite `estimatedBytes` of a stored slot and report
nothing, and `finalizeCapture` and `recordMultipartMarker` report a change of a
slot that `clear` dropped. A run keeps the accounts exactly when it does
neither with an effect.
-/

namespace ErrorCore.CaptureState

inductive Action
  | push (event : PushableIOEvent)
  | beginCapture (slot : SlotId) (key : BodyKey) (headers : Option Headers)
  | checkContentType (state : StateId) (headers : Option Headers)
  | captureChunk (state : StateId) (slot : SlotId) (key : BodyKey) (buffer : List UInt8)
  | recordMultipartMarker (slot : SlotId) (key : BodyKey)
  | finalizeCapture (slot : SlotId) (seq : Nat) (key : BodyKey) (state : StateId)
      (headers : Option Headers)
  | materializeBody (slot : SlotId) (key : BodyKey) (headers : Option Headers)
      (store : PayloadSpoolStoreInput → PayloadSpoolStoreResult)
  | discardCapture (slot : SlotId) (key : BodyKey) (state : StateId)
  | compactCompletedRequest (requestId : Text)
  | releaseCompletedRequest (requestId : Text)
  | compactDetachedSlot (slot : SlotId)
  | clear
  | record (slot : SlotId) (event : PushableIOEvent)
  | applyModeState (captureDigest : Bool) (maxCaptureBytes : Option Nat)
  | tick
  | merge (received : Nat)

/-- The slot that an action is about. -/
def Action.slot? : Action → Option SlotId
  | .beginCapture slot _ _ => some slot
  | .captureChunk _ slot _ _ => some slot
  | .recordMultipartMarker slot _ => some slot
  | .finalizeCapture slot _ _ _ _ => some slot
  | .materializeBody slot _ _ _ => some slot
  | .discardCapture slot _ _ => some slot
  | .compactDetachedSlot slot => some slot
  | .record slot _ => some slot
  | _ => none

/-- The header check of `skipOutboundResponseCapture`. -/
def checkContentType (s : CaptureState) (id : StateId) (headers : Option Headers) : CaptureState :=
  s.writeState id { s.states id with contentTypeChecked := true, headers }

/-- Recorders rewrite every field of a slot but its `seq` and `estimatedBytes`. -/
def record (s : CaptureState) (id : SlotId) (event : PushableIOEvent) : CaptureState :=
  s.writeSlot id { s.heap id with toPushableIOEvent := event }

def step (deps : BodyCaptureDeps) (hrtime : Nat → Int) (s : CaptureState) :
    Action → CaptureState
  | .push event => { s with toBufferState := s.toBufferState.push hrtime event }
  | .beginCapture slot key headers => s.beginCapture slot key headers
  | .checkContentType state headers => s.checkContentType state headers
  | .captureChunk state slot key buffer => s.captureChunk state slot key buffer
  | .recordMultipartMarker slot key => s.recordMultipartMarker hrtime slot key
  | .finalizeCapture slot seq key state headers =>
      s.finalizeCapture deps hrtime slot seq key state headers
  | .materializeBody slot key headers store => s.materializeBody deps slot key headers store
  | .discardCapture slot key state => s.discardCapture slot key state
  | .compactCompletedRequest requestId => s.compactCompletedRequest requestId
  | .releaseCompletedRequest requestId => s.releaseCompletedRequest hrtime requestId
  | .compactDetachedSlot slot => s.compactDetachedSlot slot
  | .clear => { s with buffer := s.buffer.clear }
  | .record slot event => s.record slot event
  | .applyModeState captureDigest maxCaptureBytes =>
      { s with config := { s.config with captureDigest, maxCaptureBytes } }
  | .tick => { s with clock := s.clock.tick }
  | .merge received => { s with clock := s.clock.merge received }

/-- A new buffer; the accumulators may be in any state. -/
def Initial (s : CaptureState) : Prop :=
  ∃ capacity maxBytes storeContextEvents, 0 < capacity ∧
    s.buffer = .new capacity maxBytes storeContextEvents

def system (deps : BodyCaptureDeps) (hrtime : Nat → Int) :
    Transition.System CaptureState Action where
  init := Initial
  step s a := some (s.step deps hrtime a)

/-- The byte counter is the sum of the stored slots, and so never negative. -/
def Accurate (s : CaptureState) : Prop := s.BytesAgree ∧ 0 ≤ s.buffer.payloadBytes

/-- An action on a slot that is not stored leaves the byte counter alone. -/
def IgnoresUnstored (deps : BodyCaptureDeps) (hrtime : Nat → Int) (s : CaptureState) (a : Action) :
    Prop :=
  ∀ id, a.slot? = some id → id ∉ s.buffer.cells →
    (s.step deps hrtime a).buffer.payloadBytes = s.buffer.payloadBytes

/-- What the slot would be estimated at with the given body in place of its own. -/
def estimateWith (slot : IOEventSlot) (key : BodyKey) (body : Body) : Nat :=
  estimateBytes (slot.setBody key (some body)).requestBody
    (slot.setBody key (some body)).responseBody

/-- The branch that `materializeBody` takes leaves the slot's estimate as it is. -/
def BranchIsEven (deps : BodyCaptureDeps) (s : CaptureState) (slot : IOEventSlot) (key : BodyKey)
    (state : AccumulatorState) (headers : Option Headers)
    (store : PayloadSpoolStoreInput → PayloadSpoolStoreResult) : Prop :=
  if ¬ s.config.shouldCaptureHeaders headers then
    state.capturedBytes = 0 ∨
      estimateBytes slot.requestBody slot.responseBody = slot.estimatedBytes
  else if s.config.shouldSpoolPayload state then
    let preview := (store (storeInput deps slot state headers)).preview
    estimateWith slot key (decodeBody deps (contentTypeOf headers) preview) = slot.estimatedBytes
  else
    True

/-- `materializeBody` has nothing to do, or does it without touching the estimate. -/
def MaterializesEvenly (deps : BodyCaptureDeps) (s : CaptureState) (id : SlotId) (key : BodyKey)
    (headers : Option Headers) (store : PayloadSpoolStoreInput → PayloadSpoolStoreResult) : Prop :=
  ((s.heap id).body key).isSome ∨
    match (s.captures id).get key with
    | none => True
    | some stateId =>
        let state := (s.states stateId).takeDigest deps
        s.BranchIsEven deps (s.heap id) key state (headers.or state.headers) store

/-- The steps that keep the accounts. -/
def KeepsAccounts (deps : BodyCaptureDeps) (s : CaptureState) : Action → Prop
  | .recordMultipartMarker slot key =>
      s.MayReport slot
        (estimateWith (s.heap slot) key (.string MULTIPART_REDACTED) - (s.heap slot).estimatedBytes)
  | .finalizeCapture slot seq _ state _ =>
      (s.heap slot).seq = seq →
        s.MayReport slot (min (s.states state).capturedBytes s.config.maxPayloadSize : Nat)
  | .materializeBody slot key headers store =>
      slot ∈ s.buffer.cells → s.MaterializesEvenly deps slot key headers store
  | .compactDetachedSlot slot =>
      slot ∈ s.buffer.cells → (s.heap slot).successful →
        (s.heap slot).estimatedBytes = metadataOverhead
  | _ => True

instance (deps : BodyCaptureDeps) (s : CaptureState) (slot : IOEventSlot) (key : BodyKey)
    (state : AccumulatorState) (headers : Option Headers)
    (store : PayloadSpoolStoreInput → PayloadSpoolStoreResult) :
    Decidable (s.BranchIsEven deps slot key state headers store) := by
  unfold BranchIsEven
  infer_instance

instance (deps : BodyCaptureDeps) (s : CaptureState) (id : SlotId) (key : BodyKey)
    (headers : Option Headers) (store : PayloadSpoolStoreInput → PayloadSpoolStoreResult) :
    Decidable (s.MaterializesEvenly deps id key headers store) := by
  unfold MaterializesEvenly
  cases (s.captures id).get key <;> infer_instance

instance (deps : BodyCaptureDeps) (s : CaptureState) : ∀ a, Decidable (s.KeepsAccounts deps a)
  | .push _ => .isTrue trivial
  | .beginCapture .. => .isTrue trivial
  | .checkContentType .. => .isTrue trivial
  | .captureChunk .. => .isTrue trivial
  | .recordMultipartMarker .. => by unfold KeepsAccounts; infer_instance
  | .finalizeCapture .. => by unfold KeepsAccounts; infer_instance
  | .materializeBody .. => by unfold KeepsAccounts; infer_instance
  | .discardCapture .. => .isTrue trivial
  | .compactCompletedRequest _ => .isTrue trivial
  | .releaseCompletedRequest _ => .isTrue trivial
  | .compactDetachedSlot _ => by unfold KeepsAccounts; infer_instance
  | .clear => .isTrue trivial
  | .record .. => .isTrue trivial
  | .applyModeState .. => .isTrue trivial
  | .tick => .isTrue trivial
  | .merge _ => .isTrue trivial

variable {deps : BodyCaptureDeps} {hrtime : Nat → Int} {s : CaptureState} {id : SlotId}
variable {key : BodyKey} {stateId : StateId} {headers : Option Headers} {requestId : Text}

/-! ## What the captures do to the buffer -/

@[simp] theorem releaseState_toBufferState (id : StateId) :
    (s.releaseState id).toBufferState = s.toBufferState := by
  simp only [releaseState]
  split <;> rfl

@[simp] theorem discardCapture_toBufferState :
    (s.discardCapture id key stateId).toBufferState = s.toBufferState :=
  releaseState_toBufferState stateId

@[simp] theorem beginCapture_toBufferState :
    (s.beginCapture id key headers).toBufferState = s.toBufferState := by
  simp only [beginCapture, createState]
  cases s.statePool <;> rfl

theorem releaseCapture_toBufferState (state : Option StateId) :
    (s.releaseCapture state).toBufferState = s.toBufferState := by
  cases state with
  | none => rfl
  | some state => exact releaseState_toBufferState state

@[simp] theorem releaseSlotBodies_toBufferState :
    (s.releaseSlotBodies id).toBufferState = s.toBufferState := by
  simp only [releaseSlotBodies, releaseCapture_toBufferState]

/-- The captures do not change what `compactCompletedRequest` does to the buffer. -/
theorem compactFrom_toBufferState (cursors : List Nat) :
    (s.compactFrom requestId cursors).toBufferState =
      s.toBufferState.compactFrom requestId cursors := by
  induction cursors generalizing s with
  | nil => rfl
  | cons cursor cursors ih =>
      rw [compactFrom, BufferState.compactFrom]
      cases s.completedAt requestId cursor with
      | none => exact ih
      | some id => simp only [ih, releaseSlotBodies_toBufferState]

theorem releaseFrom_toBufferState (cursors : List Nat) :
    (s.releaseFrom hrtime requestId cursors).toBufferState =
      s.toBufferState.releaseFrom hrtime requestId cursors := by
  induction cursors generalizing s with
  | nil => rfl
  | cons cursor cursors ih =>
      rw [releaseFrom, BufferState.releaseFrom]
      cases s.completedAt requestId cursor with
      | none => exact ih
      | some id => simp only [ih, releaseSlotBodies_toBufferState]

theorem compactDetachedSlot_toBufferState :
    (s.compactDetachedSlot id).toBufferState = s.toBufferState.compactDetachedSlot id := by
  rw [compactDetachedSlot]
  split
  case isTrue => simp only [releaseSlotBodies_toBufferState]
  case isFalse hnot => rw [BufferState.compactDetachedSlot, if_neg hnot]

theorem setTruncated_estimatedBytes (slot : IOEventSlot) (truncated : Bool) :
    (slot.setTruncated key truncated).estimatedBytes = slot.estimatedBytes := by
  cases key <;> rfl

theorem setOriginalSize_estimatedBytes (slot : IOEventSlot) (size : Option Nat) :
    (slot.setOriginalSize key size).estimatedBytes = slot.estimatedBytes := by
  cases key <;> rfl

theorem withSlot_self : s.toBufferState.withSlot id (s.heap id) = s.toBufferState := by
  rw [BufferState.withSlot, Function.update_eq_self]

/-- A chunk changes the slot's flags only. -/
theorem captureChunk_toBufferState (state : StateId) (buffer : List UInt8) :
    ∃ slot : IOEventSlot, slot.estimatedBytes = (s.heap id).estimatedBytes ∧
      (s.captureChunk state id key buffer).toBufferState = s.toBufferState.withSlot id slot := by
  have unchanged (t : CaptureState) (ht : t.toBufferState = s.toBufferState) :
      ∃ slot : IOEventSlot, slot.estimatedBytes = (s.heap id).estimatedBytes ∧
        t.toBufferState = s.toBufferState.withSlot id slot :=
    ⟨s.heap id, rfl, ht.trans withSlot_self.symm⟩
  rw [captureChunk]
  split
  · exact unchanged _ rfl
  · simp only
    split
    · exact ⟨_, setOriginalSize_estimatedBytes _ _, rfl⟩
    · split
      · exact ⟨_, (setTruncated_estimatedBytes _ _).trans (setOriginalSize_estimatedBytes _ _), rfl⟩
      · split
        · exact unchanged _ rfl
        · exact ⟨_, (setTruncated_estimatedBytes _ _).trans (setOriginalSize_estimatedBytes _ _),
            rfl⟩

theorem takeDigest_capturedBytes (state : AccumulatorState) :
    (state.takeDigest deps).capturedBytes = state.capturedBytes := by
  rw [AccumulatorState.takeDigest]
  split <;> rfl

/-- `finalizeCapture` adds the captured bytes, up to the maximum, and reports them. -/
theorem finalizeCapture_toBufferState {seq : Nat} (hseq : (s.heap id).seq = seq) :
    ∃ slot : IOEventSlot,
      slot.estimatedBytes = (s.heap id).estimatedBytes +
        min (s.states stateId).capturedBytes s.config.maxPayloadSize ∧
      (s.finalizeCapture deps hrtime id seq key stateId headers).toBufferState =
        (s.toBufferState.withSlot id slot).reportBytes hrtime id (s.heap id).estimatedBytes
          slot.estimatedBytes := by
  let state : AccumulatorState :=
    { s.states stateId with finalized := true, headers }.takeDigest deps
  refine ⟨s.finalizedSlot (s.heap id) key state, ?_, ?_⟩
  · simp only [finalizedSlot, state, takeDigest_capturedBytes]
  · rw [finalizeCapture, if_neg (not_not_intro hseq)]
    simp only
    split
    · rw [discardCapture_toBufferState]
      rfl
    · rfl

theorem finalizeCapture_of_ne {seq : Nat} (hseq : (s.heap id).seq ≠ seq) :
    (s.finalizeCapture deps hrtime id seq key stateId headers).toBufferState =
      s.toBufferState := by
  rw [finalizeCapture, if_pos hseq, discardCapture_toBufferState]

theorem recordMultipartMarker_toBufferState :
    ∃ slot : IOEventSlot,
      slot.estimatedBytes = estimateWith (s.heap id) key (.string MULTIPART_REDACTED) ∧
      (s.recordMultipartMarker hrtime id key).toBufferState =
        (s.toBufferState.withSlot id slot).reportBytes hrtime id (s.heap id).estimatedBytes
          slot.estimatedBytes := by
  refine ⟨_, ?_, rfl⟩
  cases key <;> rfl

section Branches

/-- The estimate that each branch of `materializeBody` leaves. -/
theorem rejectedSlot_estimatedBytes (slot : IOEventSlot) (state : AccumulatorState) :
    (rejectedSlot slot key state).estimatedBytes =
      if 0 < state.capturedBytes then
        max (estimateBytes slot.requestBody slot.responseBody)
          (slot.estimatedBytes - state.capturedBytes)
      else slot.estimatedBytes := by
  cases key <;> rfl

theorem spooledSlot_estimatedBytes (slot : IOEventSlot) (state : AccumulatorState)
    (contentType : Option Text) (digest : Text) (result : PayloadSpoolStoreResult) :
    (spooledSlot deps slot key state contentType digest result).estimatedBytes =
      estimateWith slot key (decodeBody deps contentType result.preview) := by
  cases key <;> rfl

theorem inlineSlot_estimatedBytes (slot : IOEventSlot) (state : AccumulatorState)
    (contentType : Option Text) (bytes : List UInt8) :
    (inlineSlot deps slot key state contentType bytes).estimatedBytes = slot.estimatedBytes := by
  cases key <;> rfl

end Branches

theorem estimateBytes_pos (requestBody responseBody : Option Body) :
    0 < estimateBytes requestBody responseBody := by
  rw [estimateBytes, metadataOverhead]
  omega

theorem materializedSlot_pos {slot : IOEventSlot} {state : AccumulatorState}
    {store : PayloadSpoolStoreInput → PayloadSpoolStoreResult} (hpos : 0 < slot.estimatedBytes) :
    0 < (s.materializedSlot deps slot key state headers store).estimatedBytes := by
  rw [materializedSlot]
  split
  · rw [rejectedSlot_estimatedBytes]
    have hbodies := estimateBytes_pos slot.requestBody slot.responseBody
    split <;> omega
  · split
    · simp only [spooledSlot_estimatedBytes]
      exact estimateBytes_pos _ _
    · rwa [inlineSlot_estimatedBytes]

/-- The branches of `materializeBody` and the condition under which the estimate stays. -/
theorem branchIsEven_iff {slot : IOEventSlot} {state : AccumulatorState}
    {store : PayloadSpoolStoreInput → PayloadSpoolStoreResult} :
    s.BranchIsEven deps slot key state headers store ↔
      (s.materializedSlot deps slot key state headers store).estimatedBytes =
        slot.estimatedBytes := by
  rw [BranchIsEven, materializedSlot]
  by_cases hreject : ¬ s.config.shouldCaptureHeaders headers
  · rw [if_pos hreject, if_pos hreject, rejectedSlot_estimatedBytes]
    split <;> omega
  · rw [if_neg hreject, if_neg hreject]
    by_cases hspool : s.config.shouldSpoolPayload state
    · rw [if_pos hspool, if_pos hspool]
      simp only [spooledSlot_estimatedBytes]
    · rw [if_neg hspool, if_neg hspool]
      simp only [inlineSlot_estimatedBytes]

/-- `materializeBody` rewrites its slot, if it does anything. -/
theorem materializeBody_toBufferState
    (store : PayloadSpoolStoreInput → PayloadSpoolStoreResult) :
    ∃ slot : IOEventSlot,
      (0 < (s.heap id).estimatedBytes → 0 < slot.estimatedBytes) ∧
      (slot.estimatedBytes = (s.heap id).estimatedBytes ↔
        s.MaterializesEvenly deps id key headers store) ∧
      (s.materializeBody deps id key headers store).toBufferState =
        s.toBufferState.withSlot id slot := by
  rw [materializeBody, MaterializesEvenly]
  by_cases hbody : ((s.heap id).body key).isSome
  · exact ⟨s.heap id, fun hpos => hpos, by simp [hbody], by rw [if_pos hbody, withSlot_self]⟩
  · cases hcapture : (s.captures id).get key with
    | none => exact ⟨s.heap id, fun hpos => hpos, by simp, by rw [if_neg hbody, withSlot_self]⟩
    | some stateId =>
        refine ⟨_, materializedSlot_pos, ?_, by rw [if_neg hbody, discardCapture_toBufferState]; rfl⟩
        rw [or_iff_right hbody]
        exact branchIsEven_iff.symm

/-! ## One step -/

/-- What is to be shown of an action: it leaves the stored slots sound, and from accounts that
agree it keeps them, and the counter where it must, exactly under its condition. -/
structure StepSpec (deps : BodyCaptureDeps) (hrtime : Nat → Int) (s : CaptureState) (a : Action) :
    Prop where
  sound : (s.step deps hrtime a).Sound
  exact : s.BytesAgree →
    ((s.step deps hrtime a).BytesAgree ∧ s.IgnoresUnstored deps hrtime a ↔
      s.KeepsAccounts deps a)

variable {a : Action}

/-- An action without a condition. -/
theorem StepSpec.of_balanced (h : s.toBufferState.Balanced (s.step deps hrtime a).toBufferState)
    (ignores : s.IgnoresUnstored deps hrtime a) (keeps : s.KeepsAccounts deps a) :
    StepSpec deps hrtime s a where
  sound := h.1
  exact hagree := by
    rw [BufferState.bytesAgree_iff] at hagree
    refine ⟨fun _ => keeps, fun _ => ⟨?_, ignores⟩⟩
    rw [BufferState.bytesAgree_iff, h.2, hagree]

theorem StepSpec.of_eq (h : s.Sound)
    (same : (s.step deps hrtime a).toBufferState = s.toBufferState)
    (keeps : s.KeepsAccounts deps a) : StepSpec deps hrtime s a := by
  refine .of_balanced ?_ ?_ keeps
  · rw [same]
    exact ⟨h, rfl⟩
  · intro id _ _
    rw [same]

/-- An action that rewrites the slot it is about and reports nothing. -/
theorem StepSpec.of_withSlot (h : s.Sound) {slot : IOEventSlot}
    (positive : 0 < (s.heap id).estimatedBytes → 0 < slot.estimatedBytes)
    (written : (s.step deps hrtime a).toBufferState = s.toBufferState.withSlot id slot)
    (keeps : s.KeepsAccounts deps a ↔
      (id ∈ s.buffer.cells → slot.estimatedBytes = (s.heap id).estimatedBytes)) :
    StepSpec deps hrtime s a := by
  obtain ⟨hsound, hsurplus⟩ :=
    BufferState.withSlot_surplus h (fun hid => positive (h.positive id hid))
  rw [← written] at hsound hsurplus
  refine ⟨hsound, fun hagree => ?_⟩
  have ignores : s.IgnoresUnstored deps hrtime a := by
    intro _ _ _
    rw [written]
    rfl
  rw [BufferState.bytesAgree_iff] at hagree
  rw [and_iff_left ignores, keeps, BufferState.bytesAgree_iff, hsurplus, hagree]
  by_cases hid : id ∈ s.buffer.cells
  · simp only [hid, if_true, true_implies]
    omega
  · simp only [hid, if_false, false_implies, Int.sub_zero]

/-- An action that rewrites the slot it is about and reports the change. -/
theorem StepSpec.of_report (h : s.Sound) {slot : IOEventSlot}
    (positive : 0 < (s.heap id).estimatedBytes → 0 < slot.estimatedBytes)
    (about : a.slot? = some id)
    (reported : (s.step deps hrtime a).toBufferState =
      (s.toBufferState.withSlot id slot).reportBytes hrtime id (s.heap id).estimatedBytes
        slot.estimatedBytes)
    (keeps : s.KeepsAccounts deps a ↔
      s.MayReport id (slot.estimatedBytes - (s.heap id).estimatedBytes : Int)) :
    StepSpec deps hrtime s a := by
  obtain ⟨hsound, hsurplus⟩ := BufferState.report_surplus hrtime h
    (fun hid => positive (h.positive id hid))
  rw [← reported] at hsound hsurplus
  refine ⟨hsound, fun hagree => ?_⟩
  rw [BufferState.bytesAgree_iff] at hagree
  rw [keeps, BufferState.bytesAgree_iff, hsurplus, hagree, Int.zero_add]
  constructor
  · rintro ⟨hzero, ignores⟩
    refine BufferState.mayReport_of_payloadBytes hrtime h ?_ ?_
    · intro hcleared
      rwa [if_pos hcleared] at hzero
    · intro hid
      rw [← reported]
      exact ignores id about hid
  · intro may
    refine ⟨?_, ?_⟩
    · split
      case isTrue hcleared => exact (may hcleared).1
      case isFalse => rfl
    · intro other hother hid
      obtain rfl := Option.some.inj (hother.symm.trans about)
      rw [reported]
      exact BufferState.report_payloadBytes hid may

theorem step_spec (h : s.Sound) (a : Action) : StepSpec deps hrtime s a := by
  cases a with
  | push event =>
      exact .of_balanced (BufferState.push_balanced h event) (fun _ about => nomatch about) trivial
  | beginCapture slot key headers => exact .of_eq h beginCapture_toBufferState trivial
  | checkContentType state headers => exact .of_eq h rfl trivial
  | captureChunk state slot key buffer =>
      obtain ⟨written, same, heq⟩ := captureChunk_toBufferState state buffer
      exact .of_withSlot h (fun hpos => same ▸ hpos) heq (iff_of_true trivial (fun _ => same))
  | recordMultipartMarker slot key =>
      obtain ⟨written, hbytes, heq⟩ := recordMultipartMarker_toBufferState
      refine .of_report h ?_ rfl heq ?_
      · intro _
        rw [hbytes]
        exact estimateBytes_pos _ _
      · rw [hbytes]
        rfl
  | finalizeCapture slot seq key state headers =>
      by_cases hseq : (s.heap slot).seq = seq
      · obtain ⟨written, hbytes, heq⟩ := finalizeCapture_toBufferState hseq
        refine .of_report h ?_ rfl heq ?_
        · intro hpos
          omega
        · have hdiff : (written.estimatedBytes - (s.heap slot).estimatedBytes : Int) =
              (min (s.states state).capturedBytes s.config.maxPayloadSize : Nat) := by
            rw [hbytes]
            omega
          rw [hdiff]
          exact ⟨fun keeps => keeps hseq, fun may _ => may⟩
      · exact .of_eq h (finalizeCapture_of_ne hseq) (fun heq => absurd heq hseq)
  | materializeBody slot key headers store =>
      obtain ⟨written, hpos, heven, heq⟩ := materializeBody_toBufferState store
      refine .of_withSlot h hpos heq ?_
      rw [heven]
      rfl
  | discardCapture slot key state => exact .of_eq h discardCapture_toBufferState trivial
  | compactCompletedRequest requestId =>
      refine .of_balanced ?_ (fun _ about => nomatch about) trivial
      simp only [step, compactCompletedRequest, compactFrom_toBufferState]
      exact BufferState.compactFrom_balanced h _
  | releaseCompletedRequest requestId =>
      refine .of_balanced ?_ (fun _ about => nomatch about) trivial
      simp only [step, releaseCompletedRequest, releaseFrom_toBufferState]
      exact BufferState.releaseCompletedRequest_balanced h requestId
  | compactDetachedSlot slot =>
      have heq : (s.step deps hrtime (.compactDetachedSlot slot)).toBufferState =
          s.toBufferState.compactDetachedSlot slot := compactDetachedSlot_toBufferState
      by_cases hdone : (s.heap slot).successful
      · rw [BufferState.compactDetachedSlot, if_pos hdone] at heq
        refine .of_withSlot h (fun _ => estimateBytes_pos _ _) heq ?_
        exact ⟨fun keeps hid => (keeps hid hdone).symm, fun same hid _ => (same hid).symm⟩
      · rw [BufferState.compactDetachedSlot, if_neg hdone] at heq
        exact .of_eq h heq (fun _ hdone' => absurd hdone' hdone)
  | clear =>
      obtain ⟨hsound, hsurplus⟩ := BufferState.clear_surplus h
      refine ⟨hsound, fun _ => iff_of_true ⟨?_, fun _ about => nomatch about⟩ trivial⟩
      exact BufferState.bytesAgree_iff.mpr hsurplus
  | record slot event =>
      have heq : (s.step deps hrtime (.record slot event)).toBufferState =
          s.toBufferState.withSlot slot { s.heap slot with toPushableIOEvent := event } := rfl
      refine .of_withSlot h ?_ heq (iff_of_true trivial (fun _ => rfl))
      exact fun hpos => hpos
  | applyModeState captureDigest maxCaptureBytes => exact .of_eq h rfl trivial
  | tick =>
      exact .of_balanced ⟨⟨h.tracked, h.allocated, h.positive⟩, rfl⟩ (fun _ _ _ => rfl) trivial
  | merge received =>
      exact .of_balanced ⟨⟨h.tracked, h.allocated, h.positive⟩, rfl⟩ (fun _ _ _ => rfl) trivial

/-! ## Whole runs -/

/-- The invariant of runs that keep the accounts. -/
structure Balanced (s : CaptureState) : Prop where
  sound : s.Sound
  agree : s.BytesAgree

theorem Initial.balanced (h : Initial s) : s.Balanced := by
  obtain ⟨capacity, maxBytes, storeContextEvents, hpos, hbuffer⟩ := h
  have hcells : s.buffer.cells = [] := by
    rw [hbuffer]
    exact List.filterMap_eq_nil_iff.mpr fun _ _ => rfl
  have hnone (id : SlotId) : id ∉ s.buffer.cells := by
    rw [hcells]
    exact List.not_mem_nil
  refine
    { sound :=
        { tracked := ⟨?_, ?_, fun id hid => absurd hid (hnone id)⟩
          allocated := fun id hid => absurd hid (hnone id)
          positive := fun id hid => absurd hid (hnone id) }
      agree := ?_ }
  · rw [hbuffer]
    exact IOEventBuffer.new_accounted hpos maxBytes storeContextEvents
  · rw [hcells]
    exact List.nodup_nil
  · rw [BufferState.BytesAgree, hcells, hbuffer]
    rfl

theorem balanced_preserved : (system deps hrtime).Preserved (KeepsAccounts deps) Balanced where
  init _ := Initial.balanced
  step s a t h keeps hstep := by
    obtain rfl := Option.some.inj hstep
    exact ⟨(step_spec h.sound a).sound, (((step_spec h.sound a).exact h.agree).mpr keeps).1⟩

/-- A run keeps the byte counter equal to the sum over the stored slots, and untouched by slots
that are not stored, if and only if each of its steps keeps the accounts. -/
theorem always_accurate_iff (s₀ : CaptureState) (run : List Action) (init : Initial s₀) :
    ((system deps hrtime).Always Accurate s₀ run ∧
      (system deps hrtime).Guarded (IgnoresUnstored deps hrtime) s₀ run) ↔
    (system deps hrtime).Guarded (KeepsAccounts deps) s₀ run := by
  refine Transition.System.always_and_guarded_iff balanced_preserved ?_ ?_ ?_ init.balanced
  · intro s h
    exact ⟨h.agree, h.agree.nonneg⟩
  · intro s a t h hstep keeps
    exact (((step_spec h.sound a).exact h.agree).mpr keeps).2
  · intro s a t h hstep haccurate ignores
    obtain rfl := Option.some.inj hstep
    exact ((step_spec h.sound a).exact h.agree).mp ⟨haccurate.1, ignores⟩

/-- An outbound call outside any request, before its body is captured. -/
def ambientEvent : PushableIOEvent where
  phase := .active
  startTime := 0
  type := .httpClient
  direction := .outbound
  requestId := none
  contextLost := false
  target := ("api" : Text)
  requestHeaders := none
  responseHeaders := none
  requestBody := none
  responseBody := none
  requestBodyDigest := none
  responseBodyDigest := none
  requestPayloadRef := none
  responsePayloadRef := none
  requestBodyTruncated := false
  responseBodyTruncated := false
  requestBodyOriginalSize := none
  responseBodyOriginalSize := none
  error := none
  aborted := false
  dbMeta := none

/-- Functions that agree with the real ones on the eight letters of the runs below. -/
def asciiDeps : BodyCaptureDeps where
  scrubBodyBuffer bytes _ := bytes
  scrubKeyValueAssignments text := text
  toString _ bytes := bytes.map fun byte => Char.ofNat byte.toNat
  ofString _ text := text.map fun c => UInt8.ofNat c.toNat
  sha256 _ := (["9c56cc51", "b374c3ba", "189210d5", "b6d4bf57", "790d351c", "96c47c02", "190ecf1e",
    "430635ab"] : List Text).flatten

def letters : List UInt8 := [97, 98, 99, 100, 101, 102, 103, 104]

/-- A spool that keeps the bytes and previews two of them. -/
def storeWhole (input : PayloadSpoolStoreInput) : PayloadSpoolStoreResult where
  ref :=
    { blobId := ("blob_1" : Text), storage := .spool, requestId := input.requestId
      lineageId := input.requestId, mimeType := input.mimeType, size := input.originalSize
      capturedSize := input.bytes.length, sha256 := input.sha256, previewBytes := 2
      previewTruncated := true, reason := none }
  preview := input.bytes.take 2

/-- Four cells, bodies of at most four bytes in a slot, and a spool if its limit is given. -/
def smallCapture (maxCaptureBytes : Option Nat) : CaptureState where
  heap _ := { ambientEvent with seq := 0, estimatedBytes := 0 }
  nextSlot := 0
  clock := { value := 0 }
  buffer := .new 4 100000 false
  config := { maxPayloadSize := 4, captureDigest := false, bodyCaptureContentTypes := []
              maxCaptureBytes }
  states _ := .released
  nextState := 0
  captures _ := { request := none, response := none }
  statePool := []

theorem smallCapture_initial (maxCaptureBytes : Option Nat) :
    Initial (smallCapture maxCaptureBytes) :=
  ⟨4, 100000, false, by decide, rfl⟩

/-- A call is recorded, its request body captured and materialized. -/
def bodyRun : List Action :=
  [.push ambientEvent, .beginCapture 0 .requestBody none, .captureChunk 0 0 .requestBody letters,
    .finalizeCapture 0 1 .requestBody 0 none, .materializeBody 0 .requestBody none storeWhole]

/-- Without a spool the body stays in the slot and the accounts agree. -/
theorem bodyRun_accurate :
    (system asciiDeps fun _ => 0).Always Accurate (smallCapture none) bodyRun ∧
      (system asciiDeps fun _ => 0).Guarded (IgnoresUnstored asciiDeps fun _ => 0)
        (smallCapture none) bodyRun :=
  (always_accurate_iff (smallCapture none) bodyRun (smallCapture_initial none)).mpr
    (by decide +kernel)

/-- With a spool the slot keeps the preview, and the counter still has what was captured. -/
theorem bodyRun_spooled_not_accurate :
    ¬ ∀ deps hrtime s₀ run, Initial s₀ → (system deps hrtime).Always Accurate s₀ run := by
  intro claim
  have always := claim asciiDeps (fun _ => 0) _ bodyRun (smallCapture_initial (some 64))
  have agrees := always.2.2.2.2.2.1
  exact absurd agrees (by decide +kernel)

end ErrorCore.CaptureState
