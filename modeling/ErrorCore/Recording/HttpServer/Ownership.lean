import ErrorCore.Recording.HttpServer

/-!
# Who owns an accumulator

An accumulator is in the free pool or belongs to one direction of one slot. The
slot gives it up when the capture is finalized empty, materialized or released,
but the capture handler of the exchange keeps its reference until `'finish'` or
the end of the request. Nothing else can put an accumulator in two places: the
pool and the owners stay apart exactly as long as no handler releases an
accumulator that its slot gave up, and the bytes stay apart as long as no
handler appends to one that another slot has taken since.
-/

namespace ErrorCore

open ObjectPool

namespace CaptureState

/-- The accumulator of one direction of a slot. -/
def owner (s : CaptureState) (c : Capture) : Option StateId := (s.captures c.1).get c.2

def placement (s : CaptureState) : Placement Capture where
  free := s.statePool
  owner := s.owner
  next := s.nextState

variable {deps : BodyCaptureDeps} {hrtime : Nat → Int} {s t u : CaptureState}
variable {slot : SlotId} {key : BodyKey} {id : StateId} {headers : Option Headers}
variable {requestId : Text}

theorem owner_setCapture (state : Option StateId) :
    (s.setCapture slot key state).owner = Function.update s.owner (slot, key) state := by
  funext ⟨slot', key'⟩
  by_cases hslot : slot' = slot
  · subst hslot
    cases key <;> cases key' <;>
      simp [owner, setCapture, SlotCaptureState.get, SlotCaptureState.set]
  · have hne : (slot', key') ≠ (slot, key) := fun heq => hslot (congrArg Prod.fst heq)
    simp only [owner, setCapture, Function.update_of_ne hslot, Function.update_of_ne hne]

theorem placement_beginCapture :
    (s.beginCapture slot key headers).placement = s.placement.take (slot, key) := by
  rw [beginCapture, createState]
  cases hpool : s.statePool with
  | nil =>
      apply Placement.ext
      · simp [placement, Placement.take, hpool, setCapture, writeState]
      · simp only [placement, owner_setCapture, Placement.take, Placement.taken, hpool]
        rfl
      · simp [placement, Placement.take, hpool, setCapture, writeState]
  | cons state statePool =>
      apply Placement.ext
      · simp [placement, Placement.take, hpool, setCapture, writeState]
      · simp only [placement, owner_setCapture, Placement.take, Placement.taken, hpool]
        rfl
      · simp [placement, Placement.take, hpool, setCapture, writeState]

theorem placement_discardCapture :
    (s.discardCapture slot key id).placement =
      s.placement.give maxStatePoolSize (slot, key) id := by
  have howner : (s.discardCapture slot key id).owner =
      Function.update s.owner (slot, key) none := by
    rw [discardCapture, releaseState, ← owner_setCapture]
    split <;> rfl
  apply Placement.ext
  · simp only [placement, Placement.give, discardCapture, releaseState]
    split
    · rename_i hroom
      exact (if_pos hroom).symm
    · rename_i hroom
      exact (if_neg hroom).symm
  · exact howner
  · simp only [placement, Placement.give, discardCapture, releaseState]
    split <;> rfl

@[simp] theorem discardCapture_nextSlot :
    (s.discardCapture slot key id).nextSlot = s.nextSlot :=
  congrArg BufferState.nextSlot discardCapture_toBufferState

/-- From `s` to `t` captures gave up their accumulators, and none got one. -/
structure Releases (s t : CaptureState) : Prop where
  slots : t.nextSlot = s.nextSlot
  owned : ∀ c id, t.owner c = some id → s.owner c = some id
  exclusive : s.placement.Exclusive → t.placement.Exclusive
  accounted : s.placement.Accounted maxStatePoolSize → t.placement.Accounted maxStatePoolSize

namespace Releases

theorem of_placement (hplacement : t.placement = s.placement) (hslots : t.nextSlot = s.nextSlot) :
    Releases s t where
  slots := hslots
  owned := by
    intro c id hid
    rwa [show s.owner = t.owner from (congrArg Placement.owner hplacement).symm]
  exclusive h := hplacement ▸ h
  accounted h := hplacement ▸ h

theorem refl (s : CaptureState) : Releases s s := of_placement rfl rfl

theorem trans (h : Releases s t) (h' : Releases t u) : Releases s u where
  slots := h'.slots.trans h.slots
  owned c id hid := h.owned c id (h'.owned c id hid)
  exclusive hs := h'.exclusive (h.exclusive hs)
  accounted hs := h'.accounted (h.accounted hs)

/-- What happens to the buffer does not matter. -/
theorem withBuffer {b : BufferState} (h : Releases s t) (hb : b.nextSlot = t.nextSlot) :
    Releases s { t with toBufferState := b } where
  slots := hb.trans h.slots
  owned := h.owned
  exclusive := h.exclusive
  accounted := h.accounted

/-- An owner that has given up an accumulator does not get it back. -/
theorem none (h : Releases s t) {c : Capture} (hc : s.owner c = none) : t.owner c = none := by
  cases ht : t.owner c with
  | none => rfl
  | some id =>
      rw [h.owned c id ht] at hc
      contradiction

theorem discardCapture (hid : s.owner (slot, key) = some id) :
    Releases s (s.discardCapture slot key id) where
  slots := discardCapture_nextSlot
  owned := by
    intro c id' hc
    have hplacement : (s.discardCapture slot key id).owner =
        (s.placement.give maxStatePoolSize (slot, key) id).owner :=
      congrArg Placement.owner placement_discardCapture
    exact (Placement.owner_of_give ((congrFun hplacement c).symm.trans hc)).2
  exclusive h := placement_discardCapture ▸ h.give hid
  accounted h := placement_discardCapture ▸ h.give hid

end Releases

/-- One half of `releaseSlotBodies`. -/
def dropCapture (s : CaptureState) (slot : SlotId) (key : BodyKey) : CaptureState :=
  match s.owner (slot, key) with
  | none => s
  | some id => s.discardCapture slot key id

theorem releases_dropCapture : Releases s (s.dropCapture slot key) := by
  rw [dropCapture]
  cases howner : s.owner (slot, key) with
  | none => exact .refl s
  | some id => exact .discardCapture howner

theorem releaseState_captures : (s.releaseState id).captures = s.captures := by
  rw [releaseState]
  split <;> rfl

theorem releaseState_setCapture (state : Option StateId) :
    (s.setCapture slot key state).releaseState id =
      (s.releaseState id).setCapture slot key state := by
  by_cases hroom : s.statePool.length < maxStatePoolSize
  · simp [releaseState, setCapture, writeState, hroom]
  · simp [releaseState, setCapture, writeState, hroom]

theorem releaseCapture_setCapture (released state : Option StateId) :
    (s.setCapture slot key state).releaseCapture released =
      (s.releaseCapture released).setCapture slot key state := by
  cases released with
  | none => rfl
  | some id => exact releaseState_setCapture state

theorem releaseCapture_captures (released : Option StateId) :
    (s.releaseCapture released).captures = s.captures := by
  cases released with
  | none => rfl
  | some id => exact releaseState_captures

theorem setCapture_self (howner : s.owner (slot, key) = none) : s.setCapture slot key none = s := by
  have hset : (s.captures slot).set key none = s.captures slot := by
    cases key <;> simp only [owner, SlotCaptureState.get] at howner <;>
      simp only [SlotCaptureState.set, ← howner]
  rw [setCapture, hset, Function.update_eq_self]

theorem dropCapture_eq :
    s.dropCapture slot key =
      (s.releaseCapture (s.owner (slot, key))).setCapture slot key none := by
  rw [dropCapture]
  cases howner : s.owner (slot, key) with
  | none => exact (setCapture_self howner).symm
  | some id => exact releaseState_setCapture none

/-- Both halves release first and forget the captures afterwards. -/
theorem releaseSlotBodies_eq :
    s.releaseSlotBodies slot =
      (s.dropCapture slot .requestBody).dropCapture slot .responseBody := by
  have hresponse : (s.dropCapture slot .requestBody).owner (slot, .responseBody) =
      s.owner (slot, .responseBody) := by
    rw [dropCapture_eq, owner_setCapture, Function.update_of_ne (by simp)]
    simp only [owner, releaseCapture_captures]
  rw [dropCapture_eq, hresponse, dropCapture_eq, releaseCapture_setCapture]
  simp only [releaseSlotBodies, setCapture, SlotCaptureState.set, Function.update_self,
    Function.update_idem]
  rfl

theorem releases_releaseSlotBodies : Releases s (s.releaseSlotBodies slot) := by
  rw [releaseSlotBodies_eq]
  exact releases_dropCapture.trans releases_dropCapture

theorem releases_compactFrom (cursors : List Nat) :
    Releases s (s.compactFrom requestId cursors) := by
  induction cursors generalizing s with
  | nil => exact .refl s
  | cons cursor cursors ih =>
      rw [compactFrom]
      cases s.completedAt requestId cursor with
      | none => exact ih
      | some id =>
          apply Releases.trans _ ih
          exact releases_releaseSlotBodies.withBuffer rfl

theorem releases_releaseFrom (cursors : List Nat) :
    Releases s (s.releaseFrom hrtime requestId cursors) := by
  induction cursors generalizing s with
  | nil => exact .refl s
  | cons cursor cursors ih =>
      rw [releaseFrom]
      cases s.completedAt requestId cursor with
      | none => exact ih
      | some id =>
          apply Releases.trans _ ih
          exact releases_releaseSlotBodies.withBuffer rfl

theorem releases_releaseCompletedRequest :
    Releases s (s.releaseCompletedRequest hrtime requestId) := by
  rw [releaseCompletedRequest]
  apply Releases.trans _ (releases_releaseFrom _)
  exact (Releases.refl s).withBuffer rfl

theorem releases_compactDetachedSlot : Releases s (s.compactDetachedSlot slot) := by
  rw [compactDetachedSlot]
  split
  · apply releases_releaseSlotBodies.withBuffer
    rw [BufferState.compactDetachedSlot]
    split <;> rfl
  · exact .refl s

theorem releases_materializeBody (store : PayloadSpoolStoreInput → PayloadSpoolStoreResult) :
    Releases s (s.materializeBody deps slot key headers store) := by
  rw [materializeBody]
  split
  · exact .refl s
  · cases howner : (s.captures slot).get key with
    | none => exact .refl s
    | some id =>
        apply Releases.trans ((Releases.refl s).withBuffer _)
        · exact .discardCapture howner
        · rfl

end CaptureState

namespace ServerState

variable {deps : BodyCaptureDeps} {hrtime : Nat → Int} {s t u : ServerState}
variable {e : ExchangeId} {slot : SlotId} {seq : Nat} {key : BodyKey} {id : StateId}

/-! ## What a handler may do with its accumulator -/

/-- No other capture owns the accumulator. -/
def MayAppend (s : ServerState) (c : Capture) (id : StateId) : Prop :=
  ∀ slot < s.nextSlot, ∀ key ∈ [BodyKey.requestBody, .responseBody],
    s.owner (slot, key) = some id → (slot, key) = c

/-- The capture owns the accumulator, if finalizing it after the chunk finds it empty. -/
def MayFinalize (s : ServerState) (c : Capture) (seq : Nat) (id : StateId)
    (chunk : Option (List UInt8)) : Prop :=
  (s.heap c.1).seq ≠ seq ∨
      ((s.states id).capturedBytes = 0 ∧ ¬ (s.states id).truncated ∧ chunk.all (·.isEmpty)) →
    s.owner c = some id

/-- Whatever is left of the request's capture still belongs to its slot. -/
def ReleasesOwnRequest (s : ServerState) (e : ExchangeId) : Prop :=
  ∀ handler, s.inboundOf e = some handler → ∀ id, handler.state = some id →
    s.owner (handler.slot, .requestBody) = some id

/-- The steps that leave accumulators of others alone. -/
def UsesOwn (s : ServerState) : Action → Prop
  | .requestData e chunk =>
      ∀ handler, s.inboundOf e = some handler → ∀ id, handler.state = some id → chunk.isSome →
        s.MayAppend (handler.slot, .requestBody) id
  | .requestEnd e =>
      ∀ handler, s.inboundOf e = some handler → ∀ id, handler.state = some id →
        s.MayFinalize (handler.slot, .requestBody) handler.seq id none
  | .responseWrite e call =>
      ∀ handler, s.outboundOf e = some handler →
        if s.skips handler call then s.owner (handler.slot, .responseBody) = some handler.state
        else call.chunk.isSome → s.MayAppend (handler.slot, .responseBody) handler.state
  | .responseEnd e call =>
      ∀ handler, s.outboundOf e = some handler →
        if s.skips handler call then s.owner (handler.slot, .responseBody) = some handler.state
        else
          (call.chunk.isSome → s.MayAppend (handler.slot, .responseBody) handler.state) ∧
            s.MayFinalize (handler.slot, .responseBody) handler.seq handler.state call.chunk
  | .responseClose e _ | .handleResponseFinish e _ =>
      ∀ finalizer, s.finalizing e = some finalizer → s.ReleasesOwnRequest finalizer.request
  | _ => True

instance (s : ServerState) (c : Capture) (id : StateId) : Decidable (s.MayAppend c id) := by
  unfold MayAppend
  infer_instance

instance (s : ServerState) (c : Capture) (seq : Nat) (id : StateId)
    (chunk : Option (List UInt8)) : Decidable (s.MayFinalize c seq id chunk) := by
  unfold MayFinalize
  infer_instance

instance (s : ServerState) (e : ExchangeId) : Decidable (s.ReleasesOwnRequest e) := by
  unfold ReleasesOwnRequest
  infer_instance

instance (s : ServerState) : ∀ a, Decidable (s.UsesOwn a)
  | .handleRequestStart _ => .isTrue trivial
  | .requestOnData _ => .isTrue trivial
  | .requestData .. => by unfold UsesOwn; infer_instance
  | .requestEnd _ => by unfold UsesOwn; infer_instance
  | .responseWrite .. => by unfold UsesOwn; infer_instance
  | .responseEnd .. => by unfold UsesOwn; infer_instance
  | .responseFinish _ => .isTrue trivial
  | .responseClose .. => by unfold UsesOwn; infer_instance
  | .handleResponseFinish .. => by unfold UsesOwn; infer_instance
  | .materializeSlotBodies .. => .isTrue trivial
  | .compactCompletedRequest _ => .isTrue trivial
  | .releaseCompletedRequest _ => .isTrue trivial
  | .compactDetachedSlot _ => .isTrue trivial
  | .push _ => .isTrue trivial
  | .clear => .isTrue trivial
  | .applyModeState .. => .isTrue trivial
  | .tick => .isTrue trivial
  | .merge _ => .isTrue trivial

/-! ## Steps that only give accumulators up -/

structure Shrinks (s t : ServerState) : Prop where
  captures : s.Releases t.toCaptureState
  writers : t.writers = s.writers
  inbound : ∀ e handler, t.inboundOf e = some handler → s.inboundOf e = some handler
  filled : t.poolFilled = s.poolFilled

namespace Shrinks

theorem refl (s : ServerState) : Shrinks s s where
  captures := .refl _
  writers := rfl
  inbound _ _ h := h
  filled := rfl

theorem trans (h : Shrinks s t) (h' : Shrinks t u) : Shrinks s u where
  captures := h.captures.trans h'.captures
  writers := h'.writers.trans h.writers
  inbound e handler hu := h.inbound e handler (h'.inbound e handler hu)
  filled := h'.filled.trans h.filled

theorem withCaptures {c : CaptureState} (h : Shrinks s t) (hc : t.Releases c) :
    Shrinks s { t with toCaptureState := c } where
  captures := h.captures.trans hc
  writers := h.writers
  inbound := h.inbound
  filled := h.filled

theorem withBuffer {buffer : IOEventBuffer} {crossed : List ExchangeId} (h : Shrinks s t) :
    Shrinks s { t with buffer, crossed } where
  captures := h.captures.trans (.of_placement rfl rfl)
  writers := h.writers
  inbound := h.inbound
  filled := h.filled

theorem withThrown {thrown : List ExchangeId} (h : Shrinks s t) : Shrinks s { t with thrown } where
  captures := h.captures
  writers := h.writers
  inbound := h.inbound
  filled := h.filled

/-- Any change of an exchange but a new inbound handler. -/
theorem writeExchange {exchange : Exchange} (h : Shrinks s t)
    (hinbound : ∀ handler, exchange.inbound = some handler → t.inboundOf e = some handler) :
    Shrinks s (t.writeExchange e exchange) where
  captures := h.captures
  writers := h.writers
  inbound := by
    intro e' handler hhandler
    apply h.inbound
    by_cases he : e' = e
    · subst he
      apply hinbound
      simpa [inboundOf, ServerState.writeExchange] using hhandler
    · simpa [inboundOf, ServerState.writeExchange, Function.update_of_ne he] using hhandler
  filled := h.filled

end Shrinks

theorem shrinks_dropInbound (exchange : Exchange) : Shrinks s (s.dropInbound e exchange) := by
  apply (Shrinks.refl s).writeExchange
  intro handler hhandler
  contradiction

theorem shrinks_dropOutbound {exchange : Exchange} (hexchange : s.exchanges e = some exchange) :
    Shrinks s (s.dropOutbound e exchange) := by
  apply (Shrinks.refl s).writeExchange
  intro handler hhandler
  simpa [inboundOf, hexchange] using hhandler

theorem shrinks_keepCapture (handler : OutboundResponseCaptureHandler) (call : ResponseCall) :
    Shrinks s (s.keepCapture handler call) := by
  rw [keepCapture]
  split
  · exact .refl s
  · exact (Shrinks.refl s).withCaptures (.of_placement rfl rfl)

/-- A callback that does not throw changes the buffer. -/
theorem onBytesChangedOf_eq_some {finalizer : FinalizerId} {oldBytes newBytes : Nat}
    (h : s.onBytesChangedOf hrtime e finalizer oldBytes newBytes = some t) :
    ∃ buffer crossed, t = { s with buffer, crossed } := by
  simp only [onBytesChangedOf] at h
  cases hfinalizer : s.finalizers finalizer with
  | none =>
      simp only [hfinalizer] at h
      contradiction
  | some finalizer =>
      simp only [hfinalizer, Option.some.injEq] at h
      exact ⟨_, _, h.symm⟩

theorem takeDigest_truncated (state : AccumulatorState) :
    (state.takeDigest deps).truncated = state.truncated := by
  rw [AccumulatorState.takeDigest]
  split <;> rfl

theorem shrinks_finalizeCaptureOf {headers : Option Headers} {finalizer : FinalizerId}
    (hmay : s.MayFinalize (slot, key) seq id none) :
    Shrinks s (s.finalizeCaptureOf deps hrtime e slot seq key id headers finalizer) := by
  rw [finalizeCaptureOf]
  split
  case isTrue hseq =>
    exact (Shrinks.refl s).withCaptures (.discardCapture (hmay (.inl hseq)))
  case isFalse =>
    simp only
    let state : AccumulatorState := { s.states id with finalized := true, headers }.takeDigest deps
    have hwritten : Shrinks s
        { s with
          toCaptureState :=
            (s.writeState id state).writeSlot slot (s.finalizedSlot (s.heap slot) key state) } :=
      (Shrinks.refl s).withCaptures (.of_placement rfl rfl)
    split
    case h_1 => exact hwritten.withThrown
    case h_2 t hchanged =>
      obtain ⟨buffer, crossed, rfl⟩ := onBytesChangedOf_eq_some hchanged
      split
      case isTrue hempty =>
        rw [takeDigest_truncated, CaptureState.takeDigest_capturedBytes] at hempty
        apply hwritten.withBuffer.withCaptures
        apply CaptureState.Releases.discardCapture
        exact hmay (.inr ⟨hempty.1, hempty.2, rfl⟩)
      case isFalse => exact hwritten.withBuffer

/-! ## The invariant -/

structure Invariant (s : ServerState) : Prop where
  exclusive : s.placement.Exclusive
  accounted : s.poolFilled = false → s.placement.Accounted CaptureState.maxStatePoolSize
  captures_pushed : ∀ slot key id, s.owner (slot, key) = some id → slot < s.nextSlot
  handlers_pushed : ∀ e handler, s.inboundOf e = some handler → handler.slot < s.nextSlot
  handlers_apart : ∀ e e' handler handler', s.inboundOf e = some handler →
    s.inboundOf e' = some handler' → handler.slot = handler'.slot → e = e'
  unattached : ∀ e handler, s.inboundOf e = some handler → handler.state = none →
    s.owner (handler.slot, .requestBody) = none
  /-- What an accumulator holds was written by its owner. -/
  own_bytes : ∀ c id, s.owner c = some id → ∀ writer ∈ s.writers id, writer = c

theorem Shrinks.invariant (h : Shrinks s t) (hs : s.Invariant) : t.Invariant where
  exclusive := h.captures.exclusive hs.exclusive
  accounted hfilled := h.captures.accounted (hs.accounted (h.filled ▸ hfilled))
  captures_pushed := by
    intro slot key id hid
    rw [h.captures.slots]
    exact hs.captures_pushed slot key id (h.captures.owned _ id hid)
  handlers_pushed := by
    intro e handler hhandler
    rw [h.captures.slots]
    exact hs.handlers_pushed e handler (h.inbound e handler hhandler)
  handlers_apart := by
    intro e e' handler handler' hhandler hhandler'
    exact hs.handlers_apart e e' handler handler' (h.inbound e handler hhandler)
      (h.inbound e' handler' hhandler')
  unattached := by
    intro e handler hhandler hstate
    exact h.captures.none (hs.unattached e handler (h.inbound e handler hhandler) hstate)
  own_bytes := by
    intro c id hid
    rw [h.writers]
    exact hs.own_bytes c id (h.captures.owned c id hid)

/-- A handler may change its exchange, as long as its slot stays its own. -/
theorem Invariant.writeExchange {exchange : Exchange} (hs : s.Invariant)
    (hpushed : ∀ handler, exchange.inbound = some handler → handler.slot < s.nextSlot)
    (hapart : ∀ handler, exchange.inbound = some handler →
      ∀ e' ≠ e, ∀ handler', s.inboundOf e' = some handler' → handler'.slot ≠ handler.slot)
    (hunattached : ∀ handler, exchange.inbound = some handler → handler.state = none →
      s.owner (handler.slot, .requestBody) = none) :
    (s.writeExchange e exchange).Invariant := by
  have hself : (s.writeExchange e exchange).inboundOf e = exchange.inbound := by
    simp [inboundOf, ServerState.writeExchange]
  have hother (e' : ExchangeId) (hne : e' ≠ e) :
      (s.writeExchange e exchange).inboundOf e' = s.inboundOf e' := by
    simp [inboundOf, ServerState.writeExchange, Function.update_of_ne hne]
  exact {
    exclusive := hs.exclusive
    accounted := hs.accounted
    captures_pushed := hs.captures_pushed
    handlers_pushed := by
      intro e' handler hhandler
      by_cases he : e' = e
      · subst he
        exact hpushed handler (hself ▸ hhandler)
      · exact hs.handlers_pushed e' handler (hother e' he ▸ hhandler)
    handlers_apart := by
      intro e₁ e₂ handler₁ handler₂ h₁ h₂ hslot
      by_cases he₁ : e₁ = e
      · by_cases he₂ : e₂ = e
        · rw [he₁, he₂]
        · subst he₁
          exact absurd hslot.symm
            (hapart handler₁ (hself ▸ h₁) e₂ he₂ handler₂ (hother e₂ he₂ ▸ h₂))
      · by_cases he₂ : e₂ = e
        · subst he₂
          exact absurd hslot (hapart handler₂ (hself ▸ h₂) e₁ he₁ handler₁ (hother e₁ he₁ ▸ h₁))
        · exact hs.handlers_apart e₁ e₂ handler₁ handler₂ (hother e₁ he₁ ▸ h₁)
            (hother e₂ he₂ ▸ h₂) hslot
    unattached := by
      intro e' handler hhandler
      by_cases he : e' = e
      · subst he
        exact hunattached handler (hself ▸ hhandler)
      · exact hs.unattached e' handler (hother e' he ▸ hhandler)
    own_bytes := hs.own_bytes }

/-- Between steps the flag is up to date. -/
def Settled (s : ServerState) : Prop :=
  s.poolFilled = false → s.statePool.length < CaptureState.maxStatePoolSize

/-- A capture that begins gets an accumulator that nobody holds. -/
theorem Invariant.capture {headers : Option Headers} (hs : s.Invariant) (hsettled : s.Settled)
    (hpushed : slot < s.nextSlot) (howner : s.owner (slot, key) = none)
    (hhandlers : key = .requestBody → ∀ e handler, s.inboundOf e = some handler →
      handler.state = none → handler.slot ≠ slot) :
    (s.capture slot key headers).Invariant := by
  have hplacement : (s.capture slot key headers).placement = s.placement.take (slot, key) :=
    CaptureState.placement_beginCapture
  have hslots : (s.capture slot key headers).nextSlot = s.nextSlot :=
    congrArg BufferState.nextSlot CaptureState.beginCapture_toBufferState
  have howned (c : Capture) (id : StateId) (h : (s.capture slot key headers).owner c = some id) :
      c = (slot, key) ∧ id = s.nextCaptured ∨ c ≠ (slot, key) ∧ s.owner c = some id :=
    Placement.owner_of_take ((congrFun (congrArg Placement.owner hplacement) c).symm.trans h)
  exact {
    exclusive := hplacement ▸ hs.exclusive.take
    accounted := by
      intro hfilled
      rw [hplacement]
      rcases hs.accounted hfilled with hcomplete | hfull
      · exact .inl (hcomplete.take howner)
      · exact absurd (hsettled hfilled) (Nat.not_lt.mpr hfull)
    captures_pushed := by
      intro slot' key' id hid
      rw [hslots]
      rcases howned _ id hid with ⟨heq, -⟩ | ⟨-, hid⟩
      · rwa [show slot' = slot from congrArg Prod.fst heq]
      · exact hs.captures_pushed slot' key' id hid
    handlers_pushed := by
      intro e handler hhandler
      rw [hslots]
      exact hs.handlers_pushed e handler hhandler
    handlers_apart := hs.handlers_apart
    unattached := by
      intro e handler hhandler hstate
      cases hid : (s.capture slot key headers).owner (handler.slot, .requestBody) with
      | none => rfl
      | some id =>
          rcases howned _ id hid with ⟨heq, -⟩ | ⟨-, hid⟩
          · exact absurd (congrArg Prod.fst heq)
              (hhandlers (congrArg Prod.snd heq).symm e handler hhandler hstate)
          · rw [hs.unattached e handler hhandler hstate] at hid
            contradiction
    own_bytes := by
      intro c id hid writer hwriter
      simp only [ServerState.capture, Function.update_apply] at hwriter
      rcases howned c id hid with ⟨-, rfl⟩ | ⟨-, hid⟩
      · simp at hwriter
      · split at hwriter
        · contradiction
        · exact hs.own_bytes c id hid writer hwriter }

theorem writeSlot_self {state : AccumulatorState} :
    (s.writeState id state).writeSlot slot (s.heap slot) = s.writeState id state := by
  simp only [CaptureState.writeState, CaptureState.writeSlot, Function.update_eq_self]

/-- A chunk changes the accumulator and the slot's flags; only nothing leaves it empty. -/
theorem captureChunk_spec (s : ServerState) (id : StateId) (slot : SlotId) (key : BodyKey)
    (buffer : List UInt8) :
    ∃ state written, s.captureChunk id slot key buffer =
        (s.writeState id state).writeSlot slot written ∧
      written.seq = (s.heap slot).seq ∧
      (state.capturedBytes = 0 → ¬ state.truncated → ¬ (s.states id).digest.any (·.closed) →
        (s.states id).capturedBytes = 0 ∧ ¬ (s.states id).truncated ∧ buffer = []) := by
  have seq_sized (size : Option Nat) :
      ((s.heap slot).setOriginalSize key size).seq = (s.heap slot).seq := by
    cases key <;> rfl
  have seq_truncated (written : IOEventSlot) :
      (written.setTruncated key true).seq = written.seq := by
    cases key <;> rfl
  rw [CaptureState.captureChunk]
  split
  case isTrue hclosed =>
    refine ⟨s.states id, s.heap slot, ?_, rfl, ?_⟩
    · simp only [CaptureState.writeState, CaptureState.writeSlot, Function.update_eq_self]
    · intro _ _ hopen
      exact absurd hclosed hopen
  case isFalse =>
    simp only
    split
    case isTrue htruncated =>
      refine ⟨_, _, rfl, seq_sized _, ?_⟩
      intro _ hnot
      exact absurd htruncated hnot
    case isFalse htruncated =>
      split
      case isTrue =>
        refine ⟨_, _, rfl, (seq_truncated _).trans (seq_sized _), ?_⟩
        intro _ hnot
        exact absurd rfl hnot
      case isFalse hlimit =>
        split
        case isTrue hfits =>
          refine ⟨_, s.heap slot, writeSlot_self.symm, rfl, ?_⟩
          intro hcaptured _ _
          simp only [List.length_take] at hcaptured
          refine ⟨by omega, htruncated, ?_⟩
          apply List.length_eq_zero_iff.mp
          omega
        case isFalse =>
          refine ⟨_, _, rfl, (seq_truncated _).trans (seq_sized _), ?_⟩
          intro _ hnot
          exact absurd rfl hnot

theorem captureChunk_placement (s : ServerState) (id : StateId) (slot : SlotId) (key : BodyKey)
    (buffer : List UInt8) :
    (s.captureChunk id slot key buffer).placement = s.placement := by
  obtain ⟨state, written, heq, -⟩ := s.captureChunk_spec id slot key buffer
  rw [heq]
  rfl

theorem captureChunk_nextSlot (s : ServerState) (id : StateId) (slot : SlotId) (key : BodyKey)
    (buffer : List UInt8) :
    (s.captureChunk id slot key buffer).nextSlot = s.nextSlot := by
  obtain ⟨state, written, heq, -⟩ := s.captureChunk_spec id slot key buffer
  rw [heq]
  rfl

theorem MayAppend.eq (hs : s.Invariant) {c c' : Capture} (hmay : s.MayAppend c id)
    (howner : s.owner c' = some id) : c' = c := by
  obtain ⟨slot, key⟩ := c'
  apply hmay slot (hs.captures_pushed slot key id howner) key _ howner
  cases key <;> decide

theorem Invariant.captureChunkInto {chunk : Option (List UInt8)} (hs : s.Invariant)
    (hmay : chunk.isSome → s.MayAppend (slot, key) id) :
    (s.captureChunkInto id slot key chunk).Invariant := by
  cases chunk with
  | none => exact hs
  | some buffer =>
      have hplacement := s.captureChunk_placement id slot key buffer
      have howner : (s.captureChunk id slot key buffer).owner = s.owner :=
        congrArg Placement.owner hplacement
      have hslots := s.captureChunk_nextSlot id slot key buffer
      exact {
        exclusive := hplacement ▸ hs.exclusive
        accounted hfilled := hplacement ▸ hs.accounted hfilled
        captures_pushed := by
          intro slot' key' id' hid
          apply Nat.lt_of_lt_of_eq _ hslots.symm
          exact hs.captures_pushed slot' key' id' ((congrFun howner _).symm.trans hid)
        handlers_pushed := by
          intro e handler hhandler
          apply Nat.lt_of_lt_of_eq _ hslots.symm
          exact hs.handlers_pushed e handler hhandler
        handlers_apart := hs.handlers_apart
        unattached := by
          intro e handler hhandler hstate
          exact (congrFun howner _).trans (hs.unattached e handler hhandler hstate)
        own_bytes := by
          intro c id' hid writer hwriter
          have howned : s.owner c = some id' := (congrFun howner c).symm.trans hid
          simp only [ServerState.captureChunkInto, Function.update_apply] at hwriter
          split at hwriter
          case isTrue heq =>
            subst heq
            rcases List.mem_cons.mp hwriter with rfl | hwriter
            · exact ((hmay rfl).eq hs howned).symm
            · exact hs.own_bytes c id' howned writer hwriter
          case isFalse => exact hs.own_bytes c id' howned writer hwriter }

/-- After the chunk the accumulator is finalized as announced before it. -/
theorem MayFinalize.captureChunkInto {chunk : Option (List UInt8)}
    (hmay : s.MayFinalize (slot, key) seq id chunk) (hopen : ¬ s.chunkThrows id chunk) :
    (s.captureChunkInto id slot key chunk).MayFinalize (slot, key) seq id none := by
  cases chunk with
  | none => exact hmay
  | some buffer =>
      obtain ⟨state, written, heq, hseq, hempty⟩ :=
        s.captureChunk_spec id slot key buffer
      have howner : (s.captureChunk id slot key buffer).owner = s.owner :=
        congrArg Placement.owner (s.captureChunk_placement id slot key buffer)
      intro h
      apply (congrFun howner (slot, key)).trans
      apply hmay
      rcases h with hne | ⟨hcaptured, htruncated, -⟩
      · refine .inl ?_
        simpa [ServerState.captureChunkInto, heq, CaptureState.writeSlot, hseq] using hne
      · have hstate : ((s.captureChunkInto id slot key (some buffer)).states id) = state := by
          simp [ServerState.captureChunkInto, heq, CaptureState.writeSlot, CaptureState.writeState]
        rw [hstate] at hcaptured htruncated
        have hnotClosed : ¬ (s.states id).digest.any (·.closed) := by
          simpa [chunkThrows] using hopen
        obtain ⟨hcaptured, htruncated, rfl⟩ := hempty hcaptured htruncated hnotClosed
        exact .inr ⟨hcaptured, htruncated, rfl⟩

theorem MayFinalize.keepCapture {chunk : Option (List UInt8)} {c : Capture}
    {handler : OutboundResponseCaptureHandler} {call : ResponseCall}
    (hmay : s.MayFinalize c seq id chunk) :
    (s.keepCapture handler call).MayFinalize c seq id chunk := by
  have hstate : ((s.keepCapture handler call).states id).capturedBytes =
        (s.states id).capturedBytes ∧
      ((s.keepCapture handler call).states id).truncated = (s.states id).truncated := by
    rw [ServerState.keepCapture]
    split
    · exact ⟨rfl, rfl⟩
    · simp only [CaptureState.checkContentType, CaptureState.writeState, Function.update_apply]
      split
      · rename_i heq
        rw [heq]
        exact ⟨rfl, rfl⟩
      · exact ⟨rfl, rfl⟩
  have hheap : (s.keepCapture handler call).heap = s.heap ∧
      (s.keepCapture handler call).owner = s.owner := by
    rw [ServerState.keepCapture]
    split <;> exact ⟨rfl, rfl⟩
  rw [MayFinalize, hstate.1, hstate.2, hheap.1, hheap.2]
  exact hmay

theorem MayAppend.keepCapture {c : Capture} {handler : OutboundResponseCaptureHandler}
    {call : ResponseCall} (hmay : s.MayAppend c id) :
    (s.keepCapture handler call).MayAppend c id := by
  have heq : (s.keepCapture handler call).owner = s.owner ∧
      (s.keepCapture handler call).nextSlot = s.nextSlot := by
    rw [ServerState.keepCapture]
    split <;> exact ⟨rfl, rfl⟩
  rw [MayAppend, heq.1, heq.2]
  exact hmay

/-! ## Each step keeps the invariant -/

theorem Invariant.releaseInboundRequest (hs : s.Invariant) (hown : s.ReleasesOwnRequest e) :
    (s.releaseInboundRequest e).Invariant := by
  rw [ServerState.releaseInboundRequest]
  cases hexchange : s.exchanges e with
  | none => exact hs
  | some exchange =>
      simp only
      cases hhandler : exchange.inbound with
      | none => exact hs
      | some handler =>
          have hdropped := shrinks_dropInbound (s := s) (e := e) exchange
          simp only
          cases hstate : handler.state with
          | none => exact hdropped.invariant hs
          | some id =>
              apply Shrinks.invariant _ hs
              apply hdropped.withCaptures
              apply CaptureState.Releases.discardCapture
              exact hown handler (by simp [inboundOf, hexchange, hhandler]) id hstate

theorem shrinks_poolFinalizer (finalizer : FinalizerId) :
    Shrinks s (s.poolFinalizer e finalizer) where
  captures := .refl _
  writers := rfl
  inbound := by
    intro e' handler hhandler
    by_cases he : e' = e
    · subst he
      cases hexchange : s.exchanges e' with
      | none => simp [inboundOf, poolFinalizer, hexchange] at hhandler
      | some exchange => simpa [inboundOf, poolFinalizer, hexchange] using hhandler
    · simpa [inboundOf, poolFinalizer, Function.update_of_ne he] using hhandler
  filled := rfl

theorem ReleasesOwnRequest.of_shrinks (hown : s.ReleasesOwnRequest e) (h : Shrinks s t)
    (howner : t.owner = s.owner) : t.ReleasesOwnRequest e := by
  intro handler hhandler id hid
  rw [howner]
  exact hown handler (h.inbound e handler hhandler) id hid

theorem Invariant.finalize {id : FinalizerId} {finalizer : RequestFinalizer} {aborted : Bool}
    {response : ResponseState} (hs : s.Invariant)
    (hown : s.ReleasesOwnRequest finalizer.request) :
    (s.finalize hrtime e id finalizer aborted response).Invariant := by
  let slot := finalizedEvent (s.heap finalizer.slot) aborted response
  have hwritten : Shrinks s { s with toCaptureState := s.writeSlot finalizer.slot slot } :=
    (Shrinks.refl s).withCaptures (.of_placement rfl rfl)
  have hreleased := (hwritten.invariant hs).releaseInboundRequest (hown.of_shrinks hwritten rfl)
  rw [ServerState.finalize]
  apply (shrinks_poolFinalizer id).invariant
  split
  · exact ((Shrinks.refl _).withCaptures
      CaptureState.releases_releaseCompletedRequest).invariant hreleased
  · exact hreleased

theorem Invariant.finalizeOnce {aborted : Bool} {response : ResponseState} (hs : s.Invariant)
    (hown : ∀ finalizer, s.finalizing e = some finalizer →
      s.ReleasesOwnRequest finalizer.request) :
    (s.finalizeOnce hrtime e aborted response).Invariant := by
  apply finalizeOnce_of hs
  intro exchange id finalizer hexchange _ _ _ hfinalizing
  have hmarked : Shrinks s (s.writeExchange e { exchange with finalized := true }) := by
    apply (Shrinks.refl s).writeExchange
    intro handler hhandler
    simpa [inboundOf, hexchange] using hhandler
  apply (hmarked.invariant hs).finalize
  exact (hown finalizer hfinalizing).of_shrinks hmarked rfl

theorem Invariant.handleInboundRequestOn {exchange : Exchange}
    {handler : InboundRequestCaptureHandler} (hs : s.Invariant) (hsettled : s.Settled)
    (hexchange : s.exchanges e = some exchange) (hhandler : exchange.inbound = some handler) :
    (s.handleInboundRequestOn e exchange handler).Invariant := by
  have hinbound : s.inboundOf e = some handler := by simp [inboundOf, hexchange, hhandler]
  -- The handler keeps its slot and has an accumulator afterwards.
  have hwritten (state : StateId) : (s.writeExchange e
      { exchange with
        inbound := some { handler with state := some state, attached := true }
        listening := true }).Invariant := by
    apply hs.writeExchange
    · rintro _ ⟨⟩
      exact hs.handlers_pushed e handler hinbound
    · rintro _ ⟨⟩ e' hne handler' hhandler' hslot
      exact hne (hs.handlers_apart e' e handler' handler hhandler' hinbound hslot)
    · rintro _ ⟨⟩ hstate
      contradiction
  rw [ServerState.handleInboundRequestOn]
  split
  · exact hs
  · cases hstate : handler.state with
    | some state => exact hwritten state
    | none =>
        apply (hwritten s.nextCaptured).capture hsettled
        · exact hs.handlers_pushed e handler hinbound
        · exact hs.unattached e handler hinbound hstate
        · intro _ e' handler' hhandler' hnone hslot
          by_cases he : e' = e
          · subst he
            have heq : some { handler with state := some s.nextCaptured, attached := true } =
                some handler' := by
              simpa [inboundOf, ServerState.writeExchange] using hhandler'
            rw [← Option.some.inj heq] at hnone
            contradiction
          · have hother : s.inboundOf e' = some handler' := by
              simpa [inboundOf, ServerState.writeExchange, Function.update_of_ne he] using hhandler'
            exact he (hs.handlers_apart e' e handler' handler hother hinbound hslot)

theorem Invariant.handleInboundRequestData {exchange : Exchange}
    {handler : InboundRequestCaptureHandler} {chunk : Option (List UInt8)} (hs : s.Invariant)
    (hexchange : s.exchanges e = some exchange)
    (hmay : chunk.isSome → s.MayAppend (handler.slot, .requestBody) id) :
    (s.handleInboundRequestData e exchange handler id chunk).Invariant := by
  have hchunk := hs.captureChunkInto hmay
  rw [ServerState.handleInboundRequestData]
  split
  · exact hs
  · simp only
    split
    · apply Shrinks.invariant _ hchunk
      apply (Shrinks.refl _).writeExchange
      intro other hother
      have hsame : (s.captureChunkInto id handler.slot .requestBody chunk).exchanges =
          s.exchanges := by
        cases chunk <;> rfl
      simpa [inboundOf, hsame, hexchange] using hother
    · exact hchunk

theorem Invariant.handleInboundRequestEnd {exchange : Exchange}
    {handler : InboundRequestCaptureHandler} (hs : s.Invariant)
    (hmay : ∀ id, handler.state = some id →
      s.MayFinalize (handler.slot, .requestBody) handler.seq id none) :
    (s.handleInboundRequestEnd deps hrtime e exchange handler).Invariant := by
  have hdropped := shrinks_dropInbound (s := s) (e := e) exchange
  rw [ServerState.handleInboundRequestEnd]
  cases hstate : handler.state with
  | none => exact hdropped.invariant hs
  | some id =>
      apply Shrinks.invariant _ hs
      apply hdropped.trans
      apply shrinks_finalizeCaptureOf
      exact hmay id hstate

theorem Invariant.skipCapture {exchange : Exchange} {handler : OutboundResponseCaptureHandler}
    (hs : s.Invariant) (hexchange : s.exchanges e = some exchange)
    (hown : s.owner (handler.slot, .responseBody) = some handler.state) :
    (s.skipCapture e exchange handler).Invariant := by
  apply Shrinks.invariant _ hs
  apply (shrinks_dropOutbound hexchange).withCaptures
  exact .discardCapture hown

theorem Invariant.handleOutboundResponseWrite {exchange : Exchange}
    {handler : OutboundResponseCaptureHandler} {call : ResponseCall} (hs : s.Invariant)
    (hexchange : s.exchanges e = some exchange)
    (hmay : if s.skips handler call then s.owner (handler.slot, .responseBody) = some handler.state
      else call.chunk.isSome → s.MayAppend (handler.slot, .responseBody) handler.state) :
    (s.handleOutboundResponseWrite e exchange handler call).Invariant := by
  have hkept := (shrinks_keepCapture handler call).invariant hs
  rw [ServerState.handleOutboundResponseWrite]
  split
  case isTrue hskips =>
    rw [if_pos hskips] at hmay
    exact hs.skipCapture hexchange hmay
  case isFalse hskips =>
    rw [if_neg hskips] at hmay
    simp only
    split
    · exact (Shrinks.refl _).withThrown.invariant hkept
    · exact hkept.captureChunkInto fun hchunk => (hmay hchunk).keepCapture

theorem Invariant.handleOutboundResponseEnd {exchange : Exchange}
    {handler : OutboundResponseCaptureHandler} {call : ResponseCall} (hs : s.Invariant)
    (hexchange : s.exchanges e = some exchange)
    (hmay : if s.skips handler call then s.owner (handler.slot, .responseBody) = some handler.state
      else (call.chunk.isSome → s.MayAppend (handler.slot, .responseBody) handler.state) ∧
        s.MayFinalize (handler.slot, .responseBody) handler.seq handler.state call.chunk) :
    (s.handleOutboundResponseEnd deps hrtime e exchange handler call).Invariant := by
  have hkept := (shrinks_keepCapture handler call).invariant hs
  rw [ServerState.handleOutboundResponseEnd]
  split
  case isTrue hskips =>
    rw [if_pos hskips] at hmay
    exact hs.skipCapture hexchange hmay
  case isFalse hskips =>
    rw [if_neg hskips] at hmay
    simp only
    split
    case isTrue => exact (Shrinks.refl _).withThrown.invariant hkept
    case isFalse hopen =>
      have hchunk := hkept.captureChunkInto fun hchunk => (hmay.1 hchunk).keepCapture
      apply Shrinks.invariant _ hchunk
      apply shrinks_finalizeCaptureOf
      exact hmay.2.keepCapture.captureChunkInto hopen

theorem Invariant.push {b : BufferState} (hs : s.Invariant) (hslots : s.nextSlot ≤ b.nextSlot) :
    ({ s with toBufferState := b } : ServerState).Invariant where
  exclusive := hs.exclusive
  accounted := hs.accounted
  captures_pushed slot key id hid := Nat.lt_of_lt_of_le (hs.captures_pushed slot key id hid) hslots
  handlers_pushed e handler hhandler :=
    Nat.lt_of_lt_of_le (hs.handlers_pushed e handler hhandler) hslots
  handlers_apart := hs.handlers_apart
  unattached := hs.unattached
  own_bytes := hs.own_bytes

theorem shrinks_captureInboundRequest (finalizer : FinalizerId) :
    Shrinks s (s.captureInboundRequest hrtime slot finalizer).2 ∧
      (s.captureInboundRequest hrtime slot finalizer).2.placement = s.placement := by
  rw [captureInboundRequest]
  split
  · exact ⟨.refl s, rfl⟩
  · split
    · exact ⟨(Shrinks.refl s).withCaptures (.of_placement rfl rfl), rfl⟩
    · split <;> exact ⟨.refl s, rfl⟩

theorem captureInboundRequest_handler {finalizer : FinalizerId}
    {handler : InboundRequestCaptureHandler}
    (h : (s.captureInboundRequest hrtime slot finalizer).1 = some handler) :
    handler.slot = slot := by
  rw [captureInboundRequest] at h
  split at h
  · contradiction
  · split at h
    · contradiction
    · split at h
      · contradiction
      · rw [← Option.some.inj h]

theorem captureOutboundResponse_state (s : ServerState) (slot : SlotId) (finalizer : FinalizerId) :
    (s.captureOutboundResponse slot finalizer).2 = s ∨
      (s.captureOutboundResponse slot finalizer).2 = s.capture slot .responseBody none := by
  rw [captureOutboundResponse]
  split
  · exact .inl rfl
  · exact .inr rfl

/-- The new slot is nobody's, so both captures begin with an accumulator of their own. -/
theorem Invariant.handleRequestStart {start : RequestStart} (hs : s.Invariant)
    (hsettled : s.Settled) : (s.handleRequestStart hrtime start).Invariant := by
  let pushed : ServerState := { s with
    toBufferState := s.toBufferState.push hrtime start.event
    nextExchange := s.nextExchange + 1 }
  let begun := pushed.takeFinalizer
    { slot := s.nextSlot, requestId := start.requestId, request := s.nextExchange }
  let inbound := begun.captureInboundRequest hrtime s.nextSlot s.nextFinalizing
  let outbound := inbound.2.captureOutboundResponse s.nextSlot s.nextFinalizing
  have hbegun : begun.Invariant := by
    apply Shrinks.invariant _
      (hs.push (b := s.toBufferState.push hrtime start.event) (Nat.le_succ _))
    exact ⟨.refl _, rfl, fun _ _ h => h, rfl⟩
  have hfree (key : BodyKey) : s.owner (s.nextSlot, key) = none := by
    cases hid : s.owner (s.nextSlot, key) with
    | none => rfl
    | some id => exact absurd (hs.captures_pushed _ key id hid) (Nat.lt_irrefl _)
  have hinbound : Shrinks begun inbound.2 ∧ inbound.2.placement = s.placement :=
    shrinks_captureInboundRequest s.nextFinalizing
  have hinboundSlots : s.nextSlot < inbound.2.nextSlot := by
    rw [hinbound.1.captures.slots]
    exact Nat.lt_succ_self _
  -- Handlers of earlier requests belong to earlier slots.
  have hearlier (e' : ExchangeId) (handler : InboundRequestCaptureHandler)
      (hhandler : inbound.2.inboundOf e' = some handler) : handler.slot ≠ s.nextSlot :=
    Nat.ne_of_lt (hs.handlers_pushed e' handler (hinbound.1.inbound e' handler hhandler))
  have houtbound : outbound.2.Invariant ∧ outbound.2.nextSlot = inbound.2.nextSlot ∧
      outbound.2.inboundOf = inbound.2.inboundOf ∧
      outbound.2.owner (s.nextSlot, .requestBody) = none := by
    have hinvariant := hinbound.1.invariant hbegun
    have howner (key : BodyKey) : inbound.2.owner (s.nextSlot, key) = none :=
      (congrFun (congrArg Placement.owner hinbound.2) _).trans (hfree key)
    have hpool : inbound.2.statePool = s.statePool := congrArg Placement.free hinbound.2
    rcases captureOutboundResponse_state inbound.2 s.nextSlot s.nextFinalizing with heq | heq
    · rw [show outbound.2 = inbound.2 from heq]
      exact ⟨hinvariant, rfl, rfl, howner .requestBody⟩
    · rw [show outbound.2 = inbound.2.capture s.nextSlot .responseBody none from heq]
      refine ⟨hinvariant.capture ?_ hinboundSlots (howner .responseBody) ?_, ?_, rfl, ?_⟩
      · intro hfilled
        rw [hpool]
        exact hsettled (hinbound.1.filled ▸ hfilled)
      · intro hkey
        contradiction
      · exact congrArg BufferState.nextSlot CaptureState.beginCapture_toBufferState
      · have htaken : (inbound.2.capture s.nextSlot .responseBody none).owner =
            (inbound.2.placement.take (s.nextSlot, .responseBody)).owner :=
          congrArg Placement.owner CaptureState.placement_beginCapture
        rw [htaken, Placement.owner_take_of_ne (by simp)]
        exact howner .requestBody
  apply houtbound.1.writeExchange
  · intro handler hhandler
    rw [captureInboundRequest_handler hhandler, houtbound.2.1]
    exact hinboundSlots
  · intro handler hhandler e' _ handler' hhandler'
    rw [captureInboundRequest_handler hhandler]
    exact hearlier e' handler' (congrFun houtbound.2.2.1 e' ▸ hhandler')
  · intro handler hhandler _
    rw [captureInboundRequest_handler hhandler]
    exact houtbound.2.2.2

theorem shrinks_materializeIf {enabled : Bool} {headers : Option Headers}
    (store : PayloadSpoolStoreInput → PayloadSpoolStoreResult) :
    Shrinks s (s.materializeIf deps enabled slot key headers store) := by
  rw [materializeIf]
  split
  · exact (Shrinks.refl s).withCaptures (CaptureState.releases_materializeBody store)
  · exact .refl s

theorem Invariant.act {a : Action} (hs : s.Invariant) (hsettled : s.Settled) (hown : s.UsesOwn a) :
    (s.act deps hrtime a).Invariant := by
  cases a with
  | handleRequestStart start => exact hs.handleRequestStart hsettled
  | requestOnData e =>
      apply onInbound_of hs
      intro exchange handler hexchange hhandler _
      exact hs.handleInboundRequestOn hsettled hexchange hhandler
  | requestData e chunk =>
      apply onInbound_of hs
      intro exchange handler hexchange _ hinbound
      cases hstate : handler.state with
      | none => exact hs
      | some id =>
          simp only
          split
          · exact hs.handleInboundRequestData hexchange (hown handler hinbound id hstate)
          · exact hs
  | requestEnd e =>
      apply onInbound_of hs
      intro exchange handler _ _ hinbound
      split
      · exact hs.handleInboundRequestEnd (hown handler hinbound)
      · exact hs
  | responseWrite e call =>
      apply onOutbound_of hs
      intro exchange handler hexchange _ houtbound
      exact hs.handleOutboundResponseWrite hexchange (hown handler houtbound)
  | responseEnd e call =>
      apply onOutbound_of hs
      intro exchange handler hexchange _ houtbound
      exact hs.handleOutboundResponseEnd hexchange (hown handler houtbound)
  | responseFinish e =>
      apply onOutbound_of hs
      intro exchange handler hexchange _ _
      exact (shrinks_dropOutbound hexchange).invariant hs
  | responseClose e response => exact hs.finalizeOnce hown
  | handleResponseFinish e response => exact hs.finalizeOnce hown
  | materializeSlotBodies slot storeRequest storeResponse =>
      exact ((shrinks_materializeIf storeRequest).trans
        (shrinks_materializeIf storeResponse)).invariant hs
  | compactCompletedRequest requestId =>
      exact ((Shrinks.refl s).withCaptures (CaptureState.releases_compactFrom _)).invariant hs
  | releaseCompletedRequest requestId =>
      exact ((Shrinks.refl s).withCaptures
        CaptureState.releases_releaseCompletedRequest).invariant hs
  | compactDetachedSlot slot =>
      exact ((Shrinks.refl s).withCaptures CaptureState.releases_compactDetachedSlot).invariant hs
  | push event => exact hs.push (Nat.le_succ _)
  | clear => exact hs.push (Nat.le_refl _)
  | applyModeState captureRequestBodies captureResponseBodies captureDigest maxCaptureBytes =>
      apply Shrinks.invariant _ hs
      exact ⟨.of_placement rfl rfl, rfl, fun _ _ h => h, rfl⟩
  | tick => exact hs.push (Nat.le_refl _)
  | merge received => exact hs.push (Nat.le_refl _)

/-! ## The result -/

/-- Each accumulator is in the pool once or owned once, as long as the pool drops none, and holds
the bytes of its owner only. -/
structure AccumulatorsOwned (s : ServerState) : Prop where
  placed : ∀ id < s.nextState,
    (s.statePool.count id = 1 ∧ ∀ c, s.owner c ≠ some id) ∨
    (s.statePool.count id = 0 ∧ ∃ c, s.owner c = some id ∧ ∀ c', s.owner c' = some id → c' = c) ∨
    (s.poolFilled = true ∧ s.statePool.count id = 0 ∧ ∀ c, s.owner c ≠ some id)
  own_bytes : ∀ c id, s.owner c = some id → ∀ writer ∈ s.writers id, writer = c

theorem Invariant.accumulatorsOwned (hs : s.Invariant) (hsettled : s.Settled) :
    s.AccumulatorsOwned where
  placed := by
    intro id hid
    by_cases hfree : id ∈ s.statePool
    · refine .inl ⟨hs.exclusive.count_free hfree, ?_⟩
      intro c hc
      exact hs.exclusive.apart c id hc hfree
    · have hcount : s.statePool.count id = 0 := List.count_eq_zero_of_not_mem hfree
      by_cases howned : ∃ c, s.owner c = some id
      · obtain ⟨c, hc⟩ := howned
        refine .inr (.inl ⟨hcount, c, hc, ?_⟩)
        intro c' hc'
        exact hs.exclusive.eq_of_owner hc hc'
      · refine .inr (.inr ⟨?_, hcount, fun c hc => howned ⟨c, hc⟩⟩)
        by_contra hfilled
        rw [Bool.not_eq_true] at hfilled
        rcases hs.accounted hfilled with hcomplete | hfull
        · rcases hcomplete id hid with hmem | hexists
          · exact hfree hmem
          · exact howned hexists
        · exact absurd (hsettled hfilled) (Nat.not_lt.mpr hfull)
  own_bytes := hs.own_bytes

theorem noteFilled_settled : s.noteFilled.Settled := by
  intro hfilled
  simp only [noteFilled, Bool.or_eq_false_iff, decide_eq_false_iff_not] at hfilled
  exact Nat.not_le.mp hfilled.2

theorem Invariant.noteFilled (hs : s.Invariant) : s.noteFilled.Invariant where
  exclusive := hs.exclusive
  accounted := by
    intro hfilled
    simp only [ServerState.noteFilled, Bool.or_eq_false_iff] at hfilled
    exact hs.accounted hfilled.1
  captures_pushed := hs.captures_pushed
  handlers_pushed := hs.handlers_pushed
  handlers_apart := hs.handlers_apart
  unattached := hs.unattached
  own_bytes := hs.own_bytes

theorem Initial.invariant (h : Initial s) : s.Invariant := by
  obtain ⟨-, hnext, hpool, hcaptures, hexchanges, -, -, -, -⟩ := h
  have howner (c : Capture) : s.owner c = none := by
    rw [CaptureState.owner, hcaptures]
    cases c.2 <;> rfl
  have hinbound (e : ExchangeId) : s.inboundOf e = none := by
    rw [inboundOf, hexchanges, Option.bind_none]
  have howned (c : Capture) (id : StateId) : s.owner c ≠ some id := by simp [howner]
  exact {
    exclusive := {
      nodup := by simp [CaptureState.placement, hpool]
      free_made := by simp [CaptureState.placement, hpool]
      owned_made := fun c id hid => absurd hid (howned c id)
      apart := fun c id hid => absurd hid (howned c id)
      unique := fun c _ id hid => absurd hid (howned c id) }
    accounted := by
      intro _
      refine .inl ?_
      intro id hid
      simp [CaptureState.placement, hnext] at hid
    captures_pushed := fun slot key id hid => absurd hid (howned (slot, key) id)
    handlers_pushed := by simp [hinbound]
    handlers_apart := by simp [hinbound]
    unattached := by simp [hinbound]
    own_bytes := fun c id hid => absurd hid (howned c id) }

theorem Initial.settled (h : Initial s) : s.Settled := by
  intro _
  rw [h.2.2.1]
  decide

theorem invariant_preserved :
    (system deps hrtime).Preserved UsesOwn fun s => s.Invariant ∧ s.Settled where
  init _ h := ⟨h.invariant, h.settled⟩
  step s a t h hown hstep := by
    obtain rfl := Option.some.inj hstep
    exact ⟨(h.1.act h.2 hown).noteFilled, noteFilled_settled⟩

/-- A recorder that captures both directions, over the buffer of the runs above. -/
def smallServer : ServerState where
  toCaptureState := CaptureState.smallCapture none
  captureRequestBodies := true
  captureResponseBodies := true
  exchanges _ := none
  nextExchange := 0
  finalizers _ := none
  nextFinalizer := 0
  finalizerPool := []
  writers _ := []
  poolFilled := false
  thrown := []
  crossed := []

theorem smallServer_initial : Initial smallServer :=
  ⟨CaptureState.smallCapture_initial none, rfl, rfl, fun _ => rfl, fun _ => rfl, fun _ => rfl, rfl,
    rfl, rfl, rfl, rfl⟩

def startOf (requestId : Text) : RequestStart where
  startTime := 0
  requestId := requestId
  target := ("api" : Text)
  requestHeaders := []

/-- A call of a wrapped method while the response is an error. -/
def errorCall (chunk : Option (List UInt8)) : ResponseCall where
  statusCode := 500
  contentType := none
  chunk := chunk

/-- Two requests at a time, each with an upload and an error page, and a third after them. -/
def errorPages : List Action :=
  [.handleRequestStart (startOf "a"), .requestOnData 0, .handleRequestStart (startOf "b"),
    .requestData 0 (some CaptureState.letters), .responseWrite 1 (errorCall (some [97])),
    .requestEnd 0, .responseEnd 0 (errorCall (some [98, 99])), .responseFinish 0,
    .responseEnd 1 (errorCall none), .responseFinish 1,
    .responseClose 0 { statusCode := 500, responseHeaders := [], completed := true },
    .responseClose 1 { statusCode := 500, responseHeaders := [], completed := true },
    .materializeSlotBodies 0 CaptureState.storeWhole CaptureState.storeWhole,
    .handleRequestStart (startOf "c"), .responseEnd 2 (errorCall none)]

/-- The second call of `end` on an empty error response releases the accumulator again, so that
the next two requests share it and the second holds what the first one wrote. -/
def endedTwice : List Action :=
  [.handleRequestStart (startOf "a"), .responseEnd 0 (errorCall none),
    .responseEnd 0 (errorCall none), .handleRequestStart (startOf "b"),
    .handleRequestStart (startOf "c"), .responseWrite 1 (errorCall (some CaptureState.letters))]

end ServerState

end ErrorCore
