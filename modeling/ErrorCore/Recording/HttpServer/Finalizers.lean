import ErrorCore.Recording.HttpServer.Ownership

/-!
# The callbacks of pooled finalizers

The wrapped `write` and `end` stay on the response when its `'close'` finalizes
the request. The finalizer goes back to the pool, and a later `end` runs its
callback all the same: on the reset finalizer that throws, and once another
request took it the callback works on that request's slot. The other way for a
wrapped method to throw is a chunk for a hash whose digest an earlier `end`
took.
-/

namespace ErrorCore.ServerState

open ObjectPool

variable {deps : BodyCaptureDeps} {hrtime : Nat → Int} {s t u : ServerState}
variable {e : ExchangeId} {slot : SlotId} {seq : Nat} {key : BodyKey} {id : FinalizerId}

/-- No wrapped method threw, and none reached the finalizer of another request. -/
def CallbacksOwn (s : ServerState) : Prop := s.thrown = [] ∧ s.crossed = []

instance (s : ServerState) : Decidable s.CallbacksOwn := by
  unfold CallbacksOwn
  infer_instance

/-- `response[RESPONSE_FINALIZER]`. -/
def finalizerOf (s : ServerState) (e : ExchangeId) : Option FinalizerId :=
  (s.exchanges e).bind (·.finalizer)

/-- The request was finalized. -/
def isFinalized (s : ServerState) (e : ExchangeId) : Bool := (s.exchanges e).any (·.finalized)

/-- The steps whose callbacks run on the finalizer of their own request, if they run. -/
def CallsBackInTime (s : ServerState) : Action → Prop
  | .responseWrite e call =>
      ∀ handler, s.outboundOf e = some handler → ¬ s.skips handler call →
        ¬ s.chunkThrows handler.state call.chunk
  | .responseEnd e call =>
      ∀ handler, s.outboundOf e = some handler → ¬ s.skips handler call →
        ¬ s.chunkThrows handler.state call.chunk ∧
          ((s.heap handler.slot).seq = handler.seq → s.isFinalized e = false)
  | _ => True

instance (s : ServerState) : ∀ a, Decidable (s.CallsBackInTime a)
  | .handleRequestStart _ => .isTrue trivial
  | .requestOnData _ => .isTrue trivial
  | .requestData .. => .isTrue trivial
  | .requestEnd _ => .isTrue trivial
  | .responseWrite .. => by unfold CallsBackInTime; infer_instance
  | .responseEnd .. => by unfold CallsBackInTime; infer_instance
  | .responseFinish _ => .isTrue trivial
  | .responseClose .. => .isTrue trivial
  | .handleResponseFinish .. => .isTrue trivial
  | .materializeSlotBodies .. => .isTrue trivial
  | .compactCompletedRequest _ => .isTrue trivial
  | .releaseCompletedRequest _ => .isTrue trivial
  | .compactDetachedSlot _ => .isTrue trivial
  | .push _ => .isTrue trivial
  | .clear => .isTrue trivial
  | .applyModeState .. => .isTrue trivial
  | .tick => .isTrue trivial
  | .merge _ => .isTrue trivial

def finalizerPlacement (s : ServerState) : Placement ExchangeId where
  free := s.finalizerPool
  owner := s.finalizerOf
  next := s.nextFinalizer

structure FinalizersOwned (s : ServerState) : Prop where
  exclusive : s.finalizerPlacement.Exclusive
  /-- An initialized finalizer hangs on the response of its request. -/
  installed : ∀ id finalizer, s.finalizers id = some finalizer →
    s.finalizerOf finalizer.request = some id
  initialized : ∀ e id, s.finalizerOf e = some id →
    ∃ finalizer, s.finalizers id = some finalizer ∧ finalizer.request = e
  pending : ∀ e, s.isFinalized e = true → s.finalizerOf e = none
  inbound_callback : ∀ e handler, s.inboundOf e = some handler →
    s.finalizerOf e = some handler.onBytesChanged
  outbound_callback : ∀ e handler, s.outboundOf e = some handler → s.isFinalized e = false →
    s.finalizerOf e = some handler.onBytesChanged
  unused : ∀ e, s.nextExchange ≤ e → s.exchanges e = none
  callbacks : s.CallbacksOwn

/-- From `s` to `t` handlers may be dropped or attached, and finalizers are where they were. -/
structure KeepsFinalizers (s t : ServerState) : Prop where
  finalizers : t.finalizers = s.finalizers
  pool : t.finalizerPool = s.finalizerPool
  next : t.nextFinalizer = s.nextFinalizer
  nextExchange : t.nextExchange = s.nextExchange
  finalizer : t.finalizerOf = s.finalizerOf
  finalized : t.isFinalized = s.isFinalized
  known : ∀ e, s.exchanges e = none → t.exchanges e = none
  inbound : ∀ e handler, t.inboundOf e = some handler →
    ∃ handler', s.inboundOf e = some handler' ∧ handler'.onBytesChanged = handler.onBytesChanged
  outbound : ∀ e handler, t.outboundOf e = some handler → s.outboundOf e = some handler
  callbacks : s.CallbacksOwn → t.CallbacksOwn

namespace KeepsFinalizers

theorem refl (s : ServerState) : KeepsFinalizers s s where
  finalizers := rfl
  pool := rfl
  next := rfl
  nextExchange := rfl
  finalizer := rfl
  finalized := rfl
  known _ h := h
  inbound _ handler h := ⟨handler, h, rfl⟩
  outbound _ _ h := h
  callbacks h := h

theorem trans (h : KeepsFinalizers s t) (h' : KeepsFinalizers t u) : KeepsFinalizers s u where
  finalizers := h'.finalizers.trans h.finalizers
  pool := h'.pool.trans h.pool
  next := h'.next.trans h.next
  nextExchange := h'.nextExchange.trans h.nextExchange
  finalizer := h'.finalizer.trans h.finalizer
  finalized := h'.finalized.trans h.finalized
  known e he := h'.known e (h.known e he)
  inbound := by
    intro e handler hu
    obtain ⟨handler', ht, heq'⟩ := h'.inbound e handler hu
    obtain ⟨handler'', hs, heq⟩ := h.inbound e handler' ht
    exact ⟨handler'', hs, heq.trans heq'⟩
  outbound e handler hu := h.outbound e handler (h'.outbound e handler hu)
  callbacks hs := h'.callbacks (h.callbacks hs)

/-- The captures do not know the finalizers. -/
theorem withCaptures {c : CaptureState} (h : KeepsFinalizers s t) :
    KeepsFinalizers s { t with toCaptureState := c } :=
  h.trans {
    finalizers := rfl
    pool := rfl
    next := rfl
    nextExchange := rfl
    finalizer := rfl
    finalized := rfl
    known _ h := h
    inbound _ handler h := ⟨handler, h, rfl⟩
    outbound _ _ h := h
    callbacks h := h }

/-- An exchange whose finalizer stays where it is. -/
theorem writeExchange {before after : Exchange} (hbefore : s.exchanges e = some before)
    (hfinalizer : after.finalizer = before.finalizer)
    (hfinalized : after.finalized = before.finalized)
    (hinbound : ∀ handler, after.inbound = some handler → ∃ handler',
      before.inbound = some handler' ∧ handler'.onBytesChanged = handler.onBytesChanged)
    (houtbound : ∀ handler, after.outbound = some handler → before.outbound = some handler) :
    KeepsFinalizers s (s.writeExchange e after) where
  finalizers := rfl
  pool := rfl
  next := rfl
  nextExchange := rfl
  finalizer := by
    funext e'
    by_cases he : e' = e
    · subst he
      simp [finalizerOf, ServerState.writeExchange, hbefore, hfinalizer]
    · simp [finalizerOf, ServerState.writeExchange, Function.update_of_ne he]
  finalized := by
    funext e'
    by_cases he : e' = e
    · subst he
      simp [isFinalized, ServerState.writeExchange, hbefore, hfinalized]
    · simp [isFinalized, ServerState.writeExchange, Function.update_of_ne he]
  known := by
    intro e' he'
    have hne : e' ≠ e := by
      rintro rfl
      rw [hbefore] at he'
      contradiction
    simpa [ServerState.writeExchange, Function.update_of_ne hne] using he'
  inbound := by
    intro e' handler hhandler
    by_cases he : e' = e
    · subst he
      have hafter : after.inbound = some handler := by
        simpa [inboundOf, ServerState.writeExchange] using hhandler
      obtain ⟨handler', hhandler', heq⟩ := hinbound handler hafter
      exact ⟨handler', by simp [inboundOf, hbefore, hhandler'], heq⟩
    · refine ⟨handler, ?_, rfl⟩
      simpa [inboundOf, ServerState.writeExchange, Function.update_of_ne he] using hhandler
  outbound := by
    intro e' handler hhandler
    by_cases he : e' = e
    · subst he
      have hafter : after.outbound = some handler := by
        simpa [outboundOf, ServerState.writeExchange] using hhandler
      simp [outboundOf, hbefore, houtbound handler hafter]
    · simpa [outboundOf, ServerState.writeExchange, Function.update_of_ne he] using hhandler
  callbacks h := h

theorem owned (h : KeepsFinalizers s t) (hs : s.FinalizersOwned) : t.FinalizersOwned where
  exclusive := by
    have hplacement : t.finalizerPlacement = s.finalizerPlacement := by
      simp only [finalizerPlacement, h.pool, h.finalizer, h.next]
    exact hplacement ▸ hs.exclusive
  installed := by
    rw [h.finalizers, h.finalizer]
    exact hs.installed
  initialized := by
    rw [h.finalizers, h.finalizer]
    exact hs.initialized
  pending := by
    rw [h.finalized, h.finalizer]
    exact hs.pending
  inbound_callback := by
    intro e handler hhandler
    obtain ⟨handler', hhandler', heq⟩ := h.inbound e handler hhandler
    rw [h.finalizer, ← heq]
    exact hs.inbound_callback e handler' hhandler'
  outbound_callback := by
    intro e handler hhandler
    rw [h.finalized, h.finalizer]
    exact hs.outbound_callback e handler (h.outbound e handler hhandler)
  unused := by
    intro e he
    rw [h.nextExchange] at he
    exact h.known e (hs.unused e he)
  callbacks := h.callbacks hs.callbacks

end KeepsFinalizers

/-! ## Callbacks -/

theorem keeps_keepCapture (handler : OutboundResponseCaptureHandler) (call : ResponseCall) :
    KeepsFinalizers s (s.keepCapture handler call) := by
  rw [keepCapture]
  split
  · exact .refl s
  · exact (KeepsFinalizers.refl s).withCaptures

theorem keeps_capture {headers : Option Headers} :
    KeepsFinalizers s (s.capture slot key headers) where
  finalizers := rfl
  pool := rfl
  next := rfl
  nextExchange := rfl
  finalizer := rfl
  finalized := rfl
  known _ h := h
  inbound _ handler h := ⟨handler, h, rfl⟩
  outbound _ _ h := h
  callbacks h := h

theorem keeps_captureChunkInto (state : StateId) (chunk : Option (List UInt8)) :
    KeepsFinalizers s (s.captureChunkInto state slot key chunk) := by
  cases chunk with
  | none => exact .refl s
  | some buffer =>
      exact {
        finalizers := rfl
        pool := rfl
        next := rfl
        nextExchange := rfl
        finalizer := rfl
        finalized := rfl
        known _ h := h
        inbound _ handler h := ⟨handler, h, rfl⟩
        outbound _ _ h := h
        callbacks h := h }

/-- A callback on the finalizer of the exchange goes through. -/
theorem keeps_finalizeCaptureOf {state : StateId} {headers : Option Headers}
    (hown : (s.heap slot).seq = seq →
      ∃ finalizer, s.finalizers id = some finalizer ∧ finalizer.request = e) :
    KeepsFinalizers s (s.finalizeCaptureOf deps hrtime e slot seq key state headers id) := by
  rw [finalizeCaptureOf]
  split
  case isTrue => exact (KeepsFinalizers.refl s).withCaptures
  case isFalse hseq =>
    obtain ⟨finalizer, hfinalizer, rfl⟩ := hown (not_not.mp hseq)
    simp only [onBytesChangedOf, hfinalizer, if_true]
    split
    · exact (KeepsFinalizers.refl s).withCaptures
    · exact (KeepsFinalizers.refl s).withCaptures

/-- A callback on any other finalizer throws or changes the slot of another request. -/
theorem not_callbacksOwn_finalizeCaptureOf {state : StateId} {headers : Option Headers}
    (hseq : (s.heap slot).seq = seq)
    (hother : ∀ finalizer, s.finalizers id = some finalizer → finalizer.request ≠ e) :
    ¬ (s.finalizeCaptureOf deps hrtime e slot seq key state headers id).CallbacksOwn := by
  rintro ⟨hthrown, hcrossed⟩
  rw [finalizeCaptureOf, if_neg (not_not_intro hseq)] at hthrown hcrossed
  simp only [onBytesChangedOf] at hthrown hcrossed
  cases hfinalizer : s.finalizers id with
  | none =>
      simp only [hfinalizer] at hthrown
      exact absurd hthrown (List.cons_ne_nil _ _)
  | some finalizer =>
      simp only [hfinalizer, if_neg (hother finalizer hfinalizer)] at hcrossed
      split at hcrossed
      · exact absurd hcrossed (List.cons_ne_nil _ _)
      · exact absurd hcrossed (List.cons_ne_nil _ _)

theorem chunkThrows_keepCapture {state : StateId} {chunk : Option (List UInt8)}
    (handler : OutboundResponseCaptureHandler) (call : ResponseCall) :
    (s.keepCapture handler call).chunkThrows state chunk = s.chunkThrows state chunk := by
  have hdigest : ((s.keepCapture handler call).states state).digest =
      (s.states state).digest := by
    rw [keepCapture]
    split
    · rfl
    · simp only [CaptureState.checkContentType, CaptureState.writeState, Function.update_apply]
      split
      · rename_i heq
        rw [heq]
      · rfl
  rw [chunkThrows, chunkThrows, hdigest]

theorem seq_captureChunkInto {state : StateId} {chunk : Option (List UInt8)} :
    ((s.captureChunkInto state slot key chunk).heap slot).seq = (s.heap slot).seq := by
  cases chunk with
  | none => rfl
  | some buffer =>
      obtain ⟨state', written, heq, hseq, -⟩ := s.captureChunk_spec state slot key buffer
      simp only [captureChunkInto, heq, CaptureState.writeSlot, Function.update_self]
      exact hseq

theorem heap_keepCapture (handler : OutboundResponseCaptureHandler) (call : ResponseCall) :
    (s.keepCapture handler call).heap = s.heap := by
  rw [keepCapture]
  split <;> rfl

/-- The state in which a wrapped `end` finalizes its capture. -/
theorem ended_spec (s : ServerState) (handler : OutboundResponseCaptureHandler)
    (call : ResponseCall) (chunk : Option (List UInt8)) :
    KeepsFinalizers s ((s.keepCapture handler call).captureChunkInto handler.state handler.slot
        .responseBody chunk) ∧
      (((s.keepCapture handler call).captureChunkInto handler.state handler.slot .responseBody
        chunk).heap handler.slot).seq = (s.heap handler.slot).seq := by
  refine ⟨(keeps_keepCapture handler call).trans (keeps_captureChunkInto _ _), ?_⟩
  rw [seq_captureChunkInto, heap_keepCapture]

/-! ## The life of a finalizer -/

theorem releaseInboundRequest_eq {exchange : Exchange} (h : s.exchanges e = some exchange) :
    ∃ c, s.releaseInboundRequest e =
      { s with
        toCaptureState := c
        exchanges := Function.update s.exchanges e (some { exchange with inbound := none }) } := by
  rw [releaseInboundRequest, h]
  simp only
  cases hhandler : exchange.inbound with
  | none =>
      refine ⟨s.toCaptureState, ?_⟩
      have hsame : ({ exchange with inbound := none } : Exchange) = exchange := by
        rw [← hhandler]
      rw [hsame, ← h, Function.update_eq_self]
  | some handler =>
      simp only
      cases handler.state with
      | none => exact ⟨_, rfl⟩
      | some state => exact ⟨_, rfl⟩

theorem finalize_eq {exchange : Exchange} (finalizer : RequestFinalizer) (aborted : Bool)
    (response : ResponseState) (h : s.exchanges e = some exchange)
    (hrequest : finalizer.request = e) :
    ∃ c, s.finalize hrtime e id finalizer aborted response =
      { s with
        toCaptureState := c
        exchanges :=
          Function.update s.exchanges e (some { exchange with inbound := none, finalizer := none })
        finalizers := Function.update s.finalizers id none
        finalizerPool := id :: s.finalizerPool } := by
  subst hrequest
  let written : ServerState := { s with
    toCaptureState := s.writeSlot finalizer.slot
      (finalizedEvent (s.heap finalizer.slot) aborted response) }
  have hwritten : written.exchanges finalizer.request = some exchange := h
  obtain ⟨c, hc⟩ := releaseInboundRequest_eq hwritten
  rw [finalize, hc]
  simp only [poolFinalizer]
  split
  · refine ⟨c.releaseCompletedRequest hrtime finalizer.requestId, ?_⟩
    simp only [Function.update_self, Option.map_some, Function.update_idem]
    rfl
  · refine ⟨c, ?_⟩
    simp only [Function.update_self, Option.map_some, Function.update_idem]
    rfl

/-- From `s` to `t` the exchange, with its finalizer, was finalized. -/
structure Finalized (s t : ServerState) (e : ExchangeId) (id : FinalizerId) : Prop where
  finalizers : t.finalizers = Function.update s.finalizers id none
  pool : t.finalizerPool = id :: s.finalizerPool
  next : t.nextFinalizer = s.nextFinalizer
  nextExchange : t.nextExchange = s.nextExchange
  exchange : ∃ exchange, t.exchanges = Function.update s.exchanges e (some exchange) ∧
    exchange.inbound = none ∧ exchange.finalizer = none ∧ exchange.finalized = true
  known : (s.exchanges e).isSome
  callbacks : s.CallbacksOwn → t.CallbacksOwn

theorem finalized_finalize {exchange : Exchange} {finalizer : RequestFinalizer} {aborted : Bool}
    {response : ResponseState} (hexchange : s.exchanges e = some exchange)
    (hrequest : finalizer.request = e) :
    Finalized s ((s.writeExchange e { exchange with finalized := true }).finalize hrtime e id
      finalizer aborted response) e id := by
  let marked := s.writeExchange e { exchange with finalized := true }
  have hmarked : marked.exchanges e = some { exchange with finalized := true } :=
    Function.update_self ..
  obtain ⟨c, hc⟩ : ∃ c, marked.finalize hrtime e id finalizer aborted response = { marked with
      toCaptureState := c
      exchanges := Function.update marked.exchanges e
        (some { exchange with inbound := none, finalizer := none, finalized := true })
      finalizers := Function.update marked.finalizers id none
      finalizerPool := id :: marked.finalizerPool } :=
    finalize_eq finalizer aborted response hmarked hrequest
  rw [show s.writeExchange e { exchange with finalized := true } = marked from rfl, hc]
  exact {
    finalizers := rfl
    pool := rfl
    next := rfl
    nextExchange := rfl
    exchange := ⟨_, Function.update_idem .., rfl, rfl, rfl⟩
    known := Option.isSome_of_mem hexchange
    callbacks h := h }

/-- The request of a completed response gives its finalizer back. -/
theorem Finalized.owned (h : Finalized s t e id) (hs : s.FinalizersOwned)
    (hof : s.finalizerOf e = some id) : t.FinalizersOwned := by
  obtain ⟨exchange, hexchanges, hinbound, hfinalizer, hfinalized⟩ := h.exchange
  have hself : t.exchanges e = some exchange := by rw [hexchanges, Function.update_self]
  have hother (e' : ExchangeId) (hne : e' ≠ e) : t.exchanges e' = s.exchanges e' := by
    rw [hexchanges, Function.update_of_ne hne]
  have hfinalizerOf : t.finalizerOf = Function.update s.finalizerOf e none := by
    funext e'
    by_cases he : e' = e
    · subst he
      simp [finalizerOf, hself, hfinalizer]
    · simp [finalizerOf, hother e' he, Function.update_of_ne he]
  exact {
    exclusive := by
      have hgiven : t.finalizerPlacement =
          s.finalizerPlacement.give (s.finalizerPool.length + 1) e id := by
        apply Placement.ext
        · simp [finalizerPlacement, Placement.give, h.pool]
        · exact hfinalizerOf
        · exact h.next
      exact hgiven ▸ hs.exclusive.give hof
    installed := by
      intro id' finalizer hid'
      rw [h.finalizers, Function.update_apply] at hid'
      split at hid'
      · contradiction
      · rename_i hne
        have howner := hs.installed id' finalizer hid'
        have hrequest : finalizer.request ≠ e := by
          intro heq
          rw [heq, hof, Option.some.injEq] at howner
          exact hne howner.symm
        rwa [hfinalizerOf, Function.update_of_ne hrequest]
    initialized := by
      intro e' id' hid'
      rw [hfinalizerOf, Function.update_apply] at hid'
      split at hid'
      · contradiction
      · rename_i he
        have hne : id' ≠ id := by
          rintro rfl
          exact he (hs.exclusive.unique e' e id' hid' hof)
        rw [h.finalizers, Function.update_of_ne hne]
        exact hs.initialized e' id' hid'
    pending := by
      intro e' he'
      rw [hfinalizerOf, Function.update_apply]
      split
      · rfl
      · rename_i he
        apply hs.pending
        simpa [isFinalized, hother e' he] using he'
    inbound_callback := by
      intro e' handler hhandler
      by_cases he : e' = e
      · subst he
        simp [inboundOf, hself, hinbound] at hhandler
      · rw [hfinalizerOf, Function.update_of_ne he]
        apply hs.inbound_callback
        simpa [inboundOf, hother e' he] using hhandler
    outbound_callback := by
      intro e' handler hhandler hopen
      by_cases he : e' = e
      · subst he
        simp [isFinalized, hself, hfinalized] at hopen
      · rw [hfinalizerOf, Function.update_of_ne he]
        apply hs.outbound_callback
        · simpa [outboundOf, hother e' he] using hhandler
        · simpa [isFinalized, hother e' he] using hopen
    unused := by
      intro e' he'
      rw [h.nextExchange] at he'
      have hnone := hs.unused e' he'
      have hne : e' ≠ e := by
        rintro rfl
        have hknown := h.known
        rw [hnone] at hknown
        contradiction
      rw [hother e' hne, hnone]
    callbacks := h.callbacks hs.callbacks }

/-- From `s` to `t` a request began with the given finalizer. -/
structure Begun (s t : ServerState) (id : FinalizerId) : Prop where
  finalizers : ∃ finalizer, t.finalizers = Function.update s.finalizers id (some finalizer) ∧
    finalizer.request = s.nextExchange
  pool : t.finalizerPool = s.finalizerPool.tail
  next : t.nextFinalizer =
    if s.finalizerPool = [] then s.nextFinalizer + 1 else s.nextFinalizer
  nextExchange : t.nextExchange = s.nextExchange + 1
  exchange : ∃ exchange, t.exchanges = Function.update s.exchanges s.nextExchange (some exchange) ∧
    (∀ handler, exchange.inbound = some handler → handler.onBytesChanged = id) ∧
    (∀ handler, exchange.outbound = some handler → handler.onBytesChanged = id) ∧
    exchange.finalizer = some id ∧ exchange.finalized = false
  callbacks : s.CallbacksOwn → t.CallbacksOwn

theorem Begun.owned (h : Begun s t s.nextFinalizing) (hs : s.FinalizersOwned) :
    t.FinalizersOwned := by
  obtain ⟨finalizer, hfinalizers, hrequest⟩ := h.finalizers
  obtain ⟨exchange, hexchanges, hinbound, houtbound, hfinalizer, hfinalized⟩ := h.exchange
  have hself : t.exchanges s.nextExchange = some exchange := by
    rw [hexchanges, Function.update_self]
  have hother (e' : ExchangeId) (hne : e' ≠ s.nextExchange) : t.exchanges e' = s.exchanges e' := by
    rw [hexchanges, Function.update_of_ne hne]
  have hfinalizerOf : t.finalizerOf =
      Function.update s.finalizerOf s.nextExchange (some s.nextFinalizing) := by
    funext e'
    by_cases he : e' = s.nextExchange
    · subst he
      simp [finalizerOf, hself, hfinalizer]
    · simp [finalizerOf, hother e' he, Function.update_of_ne he]
  have hunused : s.finalizerOf s.nextExchange = none := by
    rw [finalizerOf, hs.unused _ (Nat.le_refl _), Option.bind_none]
  have htaken (e' : ExchangeId) : s.finalizerOf e' ≠ some s.nextFinalizing :=
    hs.exclusive.taken_not_owned e'
  exact {
    exclusive := by
      have htake : t.finalizerPlacement = s.finalizerPlacement.take s.nextExchange := by
        apply Placement.ext
        · exact h.pool
        · exact hfinalizerOf
        · exact h.next
      exact htake ▸ hs.exclusive.take
    installed := by
      intro id' finalizer' hid'
      rw [hfinalizers, Function.update_apply] at hid'
      split at hid'
      · rename_i heq
        rw [← Option.some.inj hid', hrequest, hfinalizerOf, Function.update_self, heq]
      · have howner := hs.installed id' finalizer' hid'
        have hne : finalizer'.request ≠ s.nextExchange := by
          intro heq
          rw [heq, hunused] at howner
          contradiction
        rwa [hfinalizerOf, Function.update_of_ne hne]
    initialized := by
      intro e' id' hid'
      rw [hfinalizerOf, Function.update_apply] at hid'
      split at hid'
      · rename_i he
        rw [← Option.some.inj hid', hfinalizers, Function.update_self]
        exact ⟨finalizer, rfl, hrequest.trans he.symm⟩
      · have hne : id' ≠ s.nextFinalizing := by
          rintro rfl
          exact htaken e' hid'
        rw [hfinalizers, Function.update_of_ne hne]
        exact hs.initialized e' id' hid'
    pending := by
      intro e' he'
      by_cases he : e' = s.nextExchange
      · subst he
        simp [isFinalized, hself, hfinalized] at he'
      · rw [hfinalizerOf, Function.update_of_ne he]
        apply hs.pending
        simpa [isFinalized, hother e' he] using he'
    inbound_callback := by
      intro e' handler hhandler
      by_cases he : e' = s.nextExchange
      · subst he
        have hnew : exchange.inbound = some handler := by
          simpa [inboundOf, hself] using hhandler
        rw [hfinalizerOf, Function.update_self, hinbound handler hnew]
      · rw [hfinalizerOf, Function.update_of_ne he]
        apply hs.inbound_callback
        simpa [inboundOf, hother e' he] using hhandler
    outbound_callback := by
      intro e' handler hhandler hopen
      by_cases he : e' = s.nextExchange
      · subst he
        have hnew : exchange.outbound = some handler := by
          simpa [outboundOf, hself] using hhandler
        rw [hfinalizerOf, Function.update_self, houtbound handler hnew]
      · rw [hfinalizerOf, Function.update_of_ne he]
        apply hs.outbound_callback
        · simpa [outboundOf, hother e' he] using hhandler
        · simpa [isFinalized, hother e' he] using hopen
    unused := by
      intro e' he'
      rw [h.nextExchange] at he'
      rw [hother e' (Nat.ne_of_gt he')]
      exact hs.unused e' (Nat.le_of_succ_le he')
    callbacks := h.callbacks hs.callbacks }

theorem captureInboundRequest_spec :
    (∃ c, (s.captureInboundRequest hrtime slot id).2 = { s with toCaptureState := c }) ∧
      ∀ handler, (s.captureInboundRequest hrtime slot id).1 = some handler →
        handler.onBytesChanged = id := by
  rw [captureInboundRequest]
  split
  · exact ⟨⟨_, rfl⟩, fun _ h => by contradiction⟩
  · split
    · exact ⟨⟨_, rfl⟩, fun _ h => by contradiction⟩
    · split
      · exact ⟨⟨_, rfl⟩, fun _ h => by contradiction⟩
      · refine ⟨⟨_, rfl⟩, ?_⟩
        rintro handler ⟨⟩
        rfl

theorem captureOutboundResponse_spec :
    (∃ c writers, (s.captureOutboundResponse slot id).2 = { s with toCaptureState := c, writers }) ∧
      ∀ handler, (s.captureOutboundResponse slot id).1 = some handler →
        handler.onBytesChanged = id := by
  rw [captureOutboundResponse]
  split
  · exact ⟨⟨_, _, rfl⟩, fun _ h => by contradiction⟩
  · refine ⟨⟨_, _, rfl⟩, ?_⟩
    rintro handler ⟨⟩
    rfl

theorem begun_handleRequestStart (start : RequestStart) :
    Begun s (s.handleRequestStart hrtime start) s.nextFinalizing := by
  let begun := { s with
    toBufferState := s.toBufferState.push hrtime start.event
    nextExchange := s.nextExchange + 1 }.takeFinalizer
      { slot := s.nextSlot, requestId := start.requestId, request := s.nextExchange }
  let inbound := begun.captureInboundRequest hrtime s.nextSlot s.nextFinalizing
  let outbound := inbound.2.captureOutboundResponse s.nextSlot s.nextFinalizing
  obtain ⟨⟨c, hinbound⟩, hinboundCallback⟩ :
      (∃ c, inbound.2 = { begun with toCaptureState := c }) ∧ ∀ handler, inbound.1 = some handler →
        handler.onBytesChanged = s.nextFinalizing := captureInboundRequest_spec
  obtain ⟨⟨c', writers, houtbound⟩, houtboundCallback⟩ :
      (∃ c writers, outbound.2 = { inbound.2 with toCaptureState := c, writers }) ∧
        ∀ handler, outbound.1 = some handler → handler.onBytesChanged = s.nextFinalizing :=
    captureOutboundResponse_spec
  have hstate : outbound.2 = { begun with toCaptureState := c', writers } := by
    rw [houtbound, hinbound]
  have heq : s.handleRequestStart hrtime start = outbound.2.writeExchange s.nextExchange
      { inbound := inbound.1, listening := false, outbound := outbound.1
        finalizer := some s.nextFinalizing, finalized := false } := rfl
  rw [heq, hstate]
  exact {
    finalizers := ⟨_, rfl, rfl⟩
    pool := rfl
    next := rfl
    nextExchange := rfl
    exchange := ⟨_, rfl, hinboundCallback, houtboundCallback, rfl, rfl⟩
    callbacks h := h }

/-! ## Each step -/

theorem keeps_dropInbound {exchange : Exchange} (h : s.exchanges e = some exchange) :
    KeepsFinalizers s (s.dropInbound e exchange) := by
  apply KeepsFinalizers.writeExchange h
  · rfl
  · rfl
  · intro handler hhandler
    contradiction
  · exact fun _ h => h

theorem keeps_dropOutbound {exchange : Exchange} (h : s.exchanges e = some exchange) :
    KeepsFinalizers s (s.dropOutbound e exchange) := by
  apply KeepsFinalizers.writeExchange h
  · rfl
  · rfl
  · exact fun handler h => ⟨handler, h, rfl⟩
  · intro handler hhandler
    contradiction

/-- Attaching gives the handler an accumulator and leaves its callback. -/
theorem keeps_attach {exchange : Exchange} {handler : InboundRequestCaptureHandler}
    (state : Option StateId) (h : s.exchanges e = some exchange)
    (hhandler : exchange.inbound = some handler) :
    KeepsFinalizers s (s.writeExchange e
      { exchange with
        inbound := some { handler with state, attached := true }, listening := true }) := by
  apply KeepsFinalizers.writeExchange h
  · rfl
  · rfl
  · rintro _ ⟨⟩
    exact ⟨handler, hhandler, rfl⟩
  · exact fun _ h => h

theorem keeps_handleInboundRequestOn {exchange : Exchange} {handler : InboundRequestCaptureHandler}
    (h : s.exchanges e = some exchange) (hhandler : exchange.inbound = some handler) :
    KeepsFinalizers s (s.handleInboundRequestOn e exchange handler) := by
  rw [handleInboundRequestOn]
  split
  · exact .refl s
  · cases handler.state with
    | some state => exact keeps_attach (some state) h hhandler
    | none =>
        apply (keeps_attach (some s.nextCaptured) h hhandler).trans
        exact keeps_capture

theorem keeps_handleInboundRequestData {exchange : Exchange}
    {handler : InboundRequestCaptureHandler} {state : StateId} {chunk : Option (List UInt8)}
    (h : s.exchanges e = some exchange) :
    KeepsFinalizers s (s.handleInboundRequestData e exchange handler state chunk) := by
  have hchunk : KeepsFinalizers s (s.captureChunkInto state handler.slot .requestBody chunk) :=
    keeps_captureChunkInto state chunk
  have hsame : (s.captureChunkInto state handler.slot .requestBody chunk).exchanges e =
      some exchange := by
    cases chunk <;> exact h
  rw [handleInboundRequestData]
  split
  · exact .refl s
  · simp only
    split
    · apply hchunk.trans
      apply KeepsFinalizers.writeExchange hsame
      · rfl
      · rfl
      · exact fun handler h => ⟨handler, h, rfl⟩
      · exact fun _ h => h
    · exact hchunk

theorem keeps_skipCapture {exchange : Exchange} {handler : OutboundResponseCaptureHandler}
    (h : s.exchanges e = some exchange) : KeepsFinalizers s (s.skipCapture e exchange handler) :=
  (keeps_dropOutbound h).withCaptures

theorem keeps_materializeIf {enabled : Bool} {headers : Option Headers}
    {store : PayloadSpoolStoreInput → PayloadSpoolStoreResult} :
    KeepsFinalizers s (s.materializeIf deps enabled slot key headers store) := by
  rw [materializeIf]
  split
  · exact (KeepsFinalizers.refl s).withCaptures
  · exact .refl s

theorem FinalizersOwned.act {a : Action} (hs : s.FinalizersOwned) (hin : s.CallsBackInTime a) :
    (s.act deps hrtime a).FinalizersOwned := by
  have hcaptures (c : CaptureState) :
      ({ s with toCaptureState := c } : ServerState).FinalizersOwned :=
    (KeepsFinalizers.refl s).withCaptures.owned hs
  have honce (e : ExchangeId) (aborted : Bool) (response : ResponseState) :
      (s.finalizeOnce hrtime e aborted response).FinalizersOwned := by
    apply finalizeOnce_of hs
    intro exchange id finalizer hexchange hid hfinalizer _ _
    have hof : s.finalizerOf e = some id := by simp [finalizerOf, hexchange, hid]
    obtain ⟨other, hother, hrequest⟩ := hs.initialized e id hof
    rw [hfinalizer, Option.some.injEq] at hother
    exact (finalized_finalize hexchange (hother ▸ hrequest)).owned hs hof
  cases a with
  | handleRequestStart start => exact (begun_handleRequestStart start).owned hs
  | requestOnData e =>
      apply onInbound_of hs
      intro exchange handler hexchange hhandler _
      exact (keeps_handleInboundRequestOn hexchange hhandler).owned hs
  | requestData e chunk =>
      apply onInbound_of hs
      intro exchange handler hexchange _ _
      cases handler.state with
      | none => exact hs
      | some state =>
          simp only
          split
          · exact (keeps_handleInboundRequestData hexchange).owned hs
          · exact hs
  | requestEnd e =>
      apply onInbound_of hs
      intro exchange handler hexchange _ hinbound
      have hdropped := keeps_dropInbound hexchange
      split
      · rw [handleInboundRequestEnd]
        cases handler.state with
        | none => exact hdropped.owned hs
        | some state =>
            apply (hdropped.trans (keeps_finalizeCaptureOf _)).owned hs
            intro _
            exact hs.initialized e handler.onBytesChanged (hs.inbound_callback e handler hinbound)
      · exact hs
  | responseWrite e call =>
      apply onOutbound_of hs
      intro exchange handler hexchange _ houtbound
      rw [handleOutboundResponseWrite]
      split
      case isTrue => exact (keeps_skipCapture hexchange).owned hs
      case isFalse hskips =>
        have hopen := hin handler houtbound hskips
        simp only [chunkThrows_keepCapture, if_neg hopen]
        exact (ended_spec s handler call call.chunk).1.owned hs
  | responseEnd e call =>
      apply onOutbound_of hs
      intro exchange handler hexchange _ houtbound
      rw [handleOutboundResponseEnd]
      split
      case isTrue => exact (keeps_skipCapture hexchange).owned hs
      case isFalse hskips =>
        obtain ⟨hopen, hpending⟩ := hin handler houtbound hskips
        obtain ⟨hended, hseq⟩ := ended_spec s handler call call.chunk
        simp only [chunkThrows_keepCapture, if_neg hopen]
        apply (hended.trans (keeps_finalizeCaptureOf _)).owned hs
        intro hsame
        have hof := hs.outbound_callback e handler houtbound (hpending (hseq ▸ hsame))
        rw [hended.finalizers]
        exact hs.initialized e handler.onBytesChanged hof
  | responseFinish e =>
      apply onOutbound_of hs
      intro exchange handler hexchange _ _
      exact (keeps_dropOutbound hexchange).owned hs
  | responseClose e response => exact honce e _ response
  | handleResponseFinish e response => exact honce e _ response
  | materializeSlotBodies slot storeRequest storeResponse =>
      exact (keeps_materializeIf.trans keeps_materializeIf).owned hs
  | compactCompletedRequest requestId => exact hcaptures _
  | releaseCompletedRequest requestId => exact hcaptures _
  | compactDetachedSlot slot => exact hcaptures _
  | push event => exact hcaptures { s.toCaptureState with toBufferState := _ }
  | clear => exact hcaptures { s.toCaptureState with buffer := _ }
  | applyModeState captureRequestBodies captureResponseBodies captureDigest maxCaptureBytes =>
      apply KeepsFinalizers.owned _ hs
      exact ⟨rfl, rfl, rfl, rfl, rfl, rfl, fun _ h => h, fun _ handler h => ⟨handler, h, rfl⟩,
        fun _ _ h => h, fun h => h⟩
  | tick => exact hcaptures { s.toCaptureState with clock := _ }
  | merge received => exact hcaptures { s.toCaptureState with clock := _ }

theorem onOutbound_eq {handler : OutboundResponseCaptureHandler}
    (h : s.outboundOf e = some handler) :
    ∃ exchange, s.exchanges e = some exchange ∧
      ∀ call : Exchange → OutboundResponseCaptureHandler → ServerState,
        s.onOutbound e call = call exchange handler := by
  cases hexchange : s.exchanges e with
  | none => simp [outboundOf, hexchange] at h
  | some exchange =>
      have hhandler : exchange.outbound = some handler := by simpa [outboundOf, hexchange] using h
      exact ⟨exchange, rfl, fun call => by simp only [onOutbound, hexchange, hhandler]⟩

/-- Any other step throws, or runs a callback on a finalizer that is not the exchange's. -/
theorem FinalizersOwned.callsBackInTime {a : Action} (hs : s.FinalizersOwned)
    (hown : (s.act deps hrtime a).CallbacksOwn) : s.CallsBackInTime a := by
  cases a with
  | responseWrite e call =>
      intro handler houtbound hskips hthrows
      obtain ⟨exchange, -, heq⟩ := onOutbound_eq houtbound
      have hthrown := hown.1
      rw [ServerState.act, heq, handleOutboundResponseWrite, if_neg hskips] at hthrown
      simp only [chunkThrows_keepCapture, if_pos hthrows] at hthrown
      exact absurd hthrown (List.cons_ne_nil _ _)
  | responseEnd e call =>
      intro handler houtbound hskips
      obtain ⟨exchange, -, heq⟩ := onOutbound_eq houtbound
      rw [ServerState.act, heq, handleOutboundResponseEnd, if_neg hskips] at hown
      simp only [chunkThrows_keepCapture] at hown
      split at hown
      case isTrue => exact absurd hown.1 (List.cons_ne_nil _ _)
      case isFalse hopen =>
        refine ⟨hopen, ?_⟩
        intro hsame
        by_contra hfinalized
        rw [Bool.not_eq_false] at hfinalized
        obtain ⟨hended, hseq⟩ := ended_spec s handler call call.chunk
        apply not_callbacksOwn_finalizeCaptureOf _ _ hown
        · exact hseq.trans hsame
        · intro finalizer hfinalizer hrequest
          rw [hended.finalizers] at hfinalizer
          have hinstalled := hs.installed _ finalizer hfinalizer
          rw [hrequest, hs.pending e hfinalized] at hinstalled
          contradiction
  | _ => trivial

theorem Initial.finalizersOwned (h : Initial s) : s.FinalizersOwned := by
  obtain ⟨-, -, -, -, hexchanges, hfinalizers, hnext, hpool, -, hthrown, hcrossed⟩ := h
  have hof (e : ExchangeId) : s.finalizerOf e = none := by simp [finalizerOf, hexchanges]
  have hinbound (e : ExchangeId) : s.inboundOf e = none := by simp [inboundOf, hexchanges]
  have houtbound (e : ExchangeId) : s.outboundOf e = none := by simp [outboundOf, hexchanges]
  exact {
    exclusive := {
      nodup := by simp [finalizerPlacement, hpool]
      free_made := by simp [finalizerPlacement, hpool]
      owned_made := by simp [finalizerPlacement, hof]
      apart := by simp [finalizerPlacement, hof]
      unique := by simp [finalizerPlacement, hof] }
    installed := by simp [hfinalizers]
    initialized := by simp [hof]
    pending := fun e _ => hof e
    inbound_callback := by simp [hinbound]
    outbound_callback := by simp [houtbound]
    unused := fun e _ => hexchanges e
    callbacks := ⟨hthrown, hcrossed⟩ }

theorem keeps_noteFilled : KeepsFinalizers s s.noteFilled :=
  ⟨rfl, rfl, rfl, rfl, rfl, rfl, fun _ h => h, fun _ handler h => ⟨handler, h, rfl⟩,
    fun _ _ h => h, fun h => h⟩

theorem finalizersOwned_preserved :
    (system deps hrtime).Preserved CallsBackInTime FinalizersOwned where
  init _ h := h.finalizersOwned
  step s a t hs hin hstep := by
    obtain rfl := Option.some.inj hstep
    exact keeps_noteFilled.owned (hs.act hin)

/-- The client goes away before the application answers with an error page. -/
def endedAfterClose : List Action :=
  [.handleRequestStart (startOf "a"),
    .responseClose 0 { statusCode := 200, responseHeaders := [], completed := false },
    .responseEnd 0 (errorCall (some CaptureState.letters))]

end ErrorCore.ServerState
