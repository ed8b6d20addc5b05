import ErrorCore.Foundation.Indexed
import ErrorCore.Recording.FetchWrapper

/-!
# Calls and slots are paired by position

A call writes to a slot that was pushed for it as long as each create event finds the queue
of resolvers empty or with the call that dispatched in front, and as long as a call without
a slot finds no slot of another call in its context. A call that never dispatches stays in
front of the queue until it settles or its timer fires, and takes the slot of the next
request that is dispatched meanwhile, whoever made it.
-/

namespace ErrorCore.FetchWrapper

/-! ## What is to hold -/

def ownerOf (s : State) (id : SlotId) : Option Owner := (s.slots[id]?).map Slot.owner

/-- The slot was pushed for a request of the call or as its fallback slot. -/
def PushedFor (s : State) (id : SlotId) (i : InvocationId) : Prop :=
  (ownerOf s id).bind Owner.invocation = some i

instance (s : State) (id : SlotId) (i : InvocationId) : Decidable (PushedFor s id i) :=
  inferInstanceAs (Decidable (_ = _))

/-- The writes so far are to slots of the calls that made them, and no slot has two writers. -/
structure WritesOwn (s : State) : Prop where
  own : ∀ w ∈ s.writes, PushedFor s w.slot w.invocation
  exclusive : ∀ w ∈ s.writes, ∀ w' ∈ s.writes, w.slot = w'.slot → w.invocation = w'.invocation

instance (s : State) : Decidable (WritesOwn s) :=
  decidable_of_iff
    ((∀ w ∈ s.writes, PushedFor s w.slot w.invocation) ∧
      ∀ w ∈ s.writes, ∀ w' ∈ s.writes, w.slot = w'.slot → w.invocation = w'.invocation)
    ⟨fun h => ⟨h.1, h.2⟩, fun h => ⟨h.own, h.exclusive⟩⟩

/-- The slots that calls hold for a later write were pushed for them. -/
structure HoldsOwn (s : State) : Prop where
  bound : ∀ i call id, s.invocations[i]? = some call → call.boundSlot = .slot id → PushedFor s id i
  capturing : ∀ i call id, s.invocations[i]? = some call → call.stage = .capturing id →
    PushedFor s id i

/-- The resolver that the create event takes is that of the call that dispatched. -/
def NextIs (s : State) (emitter : Option InvocationId) : Prop :=
  ∀ resolver ∈ s.pendingFetchResolvers.head?, emitter = some resolver

def guard (env : Environment) (s : State) : Action → Prop
  | .fetch _ _ _ (.emits request) =>
      request.recording = .complete → NextIs s (some s.invocations.length)
  | .redispatch i request => request.recording = .complete → NextIs s (some i)
  | .request _ request => request.recording = .complete → NextIs s none
  | .settle i _ =>
      ∀ call ∈ s.invocations[i]?, (∀ id, call.boundSlot ≠ .slot id) →
        ∀ id ∈ findMatchingContextSlot env s call.context call.prepared, PushedFor s id i
  | _ => True

/-! ## Slots keep their owners -/

/-- What was pushed stays, and stays the same party's. -/
def Keeps (s t : State) : Prop := ∀ id owner, ownerOf s id = some owner → ownerOf t id = some owner

theorem PushedFor.keeps {s t : State} {id : SlotId} {i : InvocationId} (h : PushedFor s id i)
    (keeps : Keeps s t) : PushedFor t id i := by
  obtain ⟨owner, howner, hi⟩ := Option.bind_eq_some_iff.mp h
  exact Option.bind_eq_some_iff.mpr ⟨owner, keeps id owner howner, hi⟩

theorem Keeps.trans {s t u : State} (first : Keeps s t) (second : Keeps t u) : Keeps s u :=
  fun id owner h => second id owner (first id owner h)

theorem keeps_of_slots {s t : State} (h : t.slots = s.slots) : Keeps s t := by
  intro id owner howner
  rwa [ownerOf, h]

theorem ownerOf_pushSlot_new (s : State) (slot : Slot) :
    ownerOf (s.pushSlot slot) s.slots.length = some slot.owner := by
  simp [ownerOf, State.pushSlot]

theorem keeps_pushSlot (s : State) (slot : Slot) : Keeps s (s.pushSlot slot) := by
  intro id owner howner
  obtain ⟨old, hold, howns⟩ := Option.map_eq_some_iff.mp howner
  have hlt : id < s.slots.length := (List.getElem?_eq_some_iff.mp hold).1
  rw [ownerOf, State.pushSlot, List.getElem?_append_left hlt, hold, Option.map_some, howns]

theorem ownerOf_updateSlot (s : State) (id id' : SlotId) (f : Slot → Slot)
    (hf : ∀ slot, (f slot).owner = slot.owner) :
    ownerOf (s.updateSlot id f) id' = ownerOf s id' := by
  rw [ownerOf, ownerOf, State.updateSlot, List.getElem?_modify]
  by_cases heq : id = id'
  · cases s.slots[id']? with
    | none => rfl
    | some slot => simp [heq, hf slot]
  · cases s.slots[id']? with
    | none => rfl
    | some slot => simp [heq]

theorem keeps_updateSlot (s : State) (id : SlotId) (f : Slot → Slot)
    (hf : ∀ slot, (f slot).owner = slot.owner) : Keeps s (s.updateSlot id f) := by
  intro id' owner howner
  rwa [ownerOf_updateSlot s id id' f hf]

/-! ## What the operations leave -/

variable (env : Environment)

/-- Two states that differ in slots and contexts only. -/
structure SameCalls (s t : State) : Prop where
  keeps : Keeps s t
  invocations : t.invocations = s.invocations
  pending : t.pendingFetchResolvers = s.pendingFetchResolvers
  writes : t.writes = s.writes

theorem SameCalls.refl (s : State) : SameCalls s s := ⟨keeps_of_slots rfl, rfl, rfl, rfl⟩

theorem SameCalls.trans {s t u : State} (first : SameCalls s t) (second : SameCalls t u) :
    SameCalls s u where
  keeps := first.keeps.trans second.keeps
  invocations := second.invocations.trans first.invocations
  pending := second.pending.trans first.pending
  writes := second.writes.trans first.writes

theorem pushIOEvent_sameCalls (s : State) (context : Option ContextId) (id : SlotId) :
    SameCalls s (pushIOEvent env s context id) := by
  cases context with
  | none => exact .refl s
  | some c =>
      rw [pushIOEvent]
      split
      · exact .refl s
      · exact ⟨keeps_of_slots rfl, rfl, rfl, rfl⟩

theorem pushIOEvent_slots (s : State) (context : Option ContextId) (id : SlotId) :
    (pushIOEvent env s context id).slots = s.slots := by
  cases context with
  | none => rfl
  | some c =>
      rw [pushIOEvent]
      split <;> rfl

theorem pushSlot_sameCalls (s : State) (slot : Slot) : SameCalls s (s.pushSlot slot) :=
  ⟨keeps_pushSlot s slot, rfl, rfl, rfl⟩

/-- A new slot in the buffer and in its context. -/
theorem record_sameCalls (s : State) (slot : Slot) (context : Option ContextId) (id : SlotId) :
    SameCalls s (pushIOEvent env (s.pushSlot slot) context id) :=
  (pushSlot_sameCalls s slot).trans (pushIOEvent_sameCalls env _ context id)

theorem record_ownerOf (s : State) (slot : Slot) (context : Option ContextId) :
    ownerOf (pushIOEvent env (s.pushSlot slot) context s.slots.length) s.slots.length =
      some slot.owner := by
  rw [ownerOf, pushIOEvent_slots]
  exact ownerOf_pushSlot_new s slot

theorem attachContextToSlot_sameCalls (s : State) (id : SlotId) (context : Option ContextId) :
    SameCalls s (attachContextToSlot env s id context) := by
  rw [attachContextToSlot.eq_def]
  dsimp only
  split
  · split
    · exact .refl s
    · refine SameCalls.trans ?_ (pushIOEvent_sameCalls env _ _ id)
      exact ⟨keeps_updateSlot s id _ fun _ => rfl, rfl, rfl, rfl⟩
  · exact .refl s

theorem findMatchingContextSlot_stopWaiting (s : State) (i : InvocationId)
    (context : Option ContextId) (prepared : PreparedFetchArgs) :
    findMatchingContextSlot env (stopWaiting s i) context prepared =
      findMatchingContextSlot env s context prepared := by
  cases context <;> rfl

/-- A slot that was found exists. -/
theorem findMatchingContextSlot_exists {s : State} {context : Option ContextId}
    {prepared : PreparedFetchArgs} {id : SlotId}
    (h : findMatchingContextSlot env s context prepared = some id) :
    ∃ owner, ownerOf s id = some owner := by
  cases context with
  | none => exact absurd h.symm (Option.some_ne_none id)
  | some c =>
      have hmatch := List.find?_some h
      cases hslot : s.slots[id]? with
      | none => rw [hslot] at hmatch; exact absurd hmatch Bool.false_ne_true
      | some slot => exact ⟨slot.owner, by rw [ownerOf, hslot, Option.map_some]⟩

section Resolve

variable {s t : State} {i : InvocationId} {call : Invocation} {id : SlotId}

/-- Where the slot comes from that a call writes to. -/
theorem resolveRecordedFetchSlot_cases
    (h : resolveRecordedFetchSlot env s i call = some (t, id)) :
    SameCalls s t ∧
      (call.boundSlot = .slot id ∨
        (∀ id', call.boundSlot ≠ .slot id') ∧
          findMatchingContextSlot env s call.context call.prepared = some id ∨
        ownerOf t id = some (.fallback i)) := by
  rw [resolveRecordedFetchSlot.eq_def] at h
  dsimp only at h
  split at h
  case h_1 id' hbound =>
    obtain ⟨rfl, rfl⟩ := Prod.mk.inj (Option.some.inj h)
    exact ⟨.refl s, .inl hbound⟩
  case h_2 hunbound =>
    split at h
    case h_1 id' hfound =>
      obtain ⟨rfl, rfl⟩ := Prod.mk.inj (Option.some.inj h)
      exact ⟨.refl s, .inr (.inl ⟨hunbound, hfound⟩)⟩
    case h_2 =>
      split at h
      · obtain ⟨rfl, rfl⟩ := Prod.mk.inj (Option.some.inj h)
        exact ⟨record_sameCalls env s _ _ _, .inr (.inr (record_ownerOf env s _ _))⟩
      · exact absurd h.symm (Option.some_ne_none _)

/-- A call without a slot takes the one it finds. -/
theorem resolveRecordedFetchSlot_found (hunbound : ∀ id', call.boundSlot ≠ .slot id')
    (hfound : findMatchingContextSlot env s call.context call.prepared = some id) :
    resolveRecordedFetchSlot env s i call = some (s, id) := by
  rw [resolveRecordedFetchSlot.eq_def]
  dsimp only
  cases hbound : call.boundSlot with
  | slot id' => exact absurd hbound (hunbound id')
  | undefined => simp only [hfound]
  | null => simp only [hfound]

theorem mergePreparedRequestHeaders_owner (requestHeaders : Option Headers) (slot : Slot) :
    (mergePreparedRequestHeaders env requestHeaders slot).owner = slot.owner := by
  cases requestHeaders <;> rfl

theorem writeOutcome_owner (call : Invocation) (outcome : Outcome) (slot : Slot) :
    (writeOutcome env call outcome slot).owner = slot.owner := by
  cases outcome <;> exact mergePreparedRequestHeaders_owner env _ slot

/-- A body is read into the slot that the rest was written to. -/
theorem stageAfter_capturing {outcome : Outcome} {id' : SlotId}
    (h : stageAfter call outcome id = .capturing id') : id' = id := by
  cases outcome with
  | error => exact Stage.noConfusion h
  | response response =>
      rw [stageAfter] at h
      split at h
      · exact (Stage.capturing.inj h).symm
      · exact Stage.noConfusion h

end Resolve

/-! ## What every step keeps -/

def ResolversValid (s : State) : Prop := ∀ i ∈ s.pendingFetchResolvers, i < s.invocations.length

theorem ResolversValid.startInvocation {s : State} (valid : ResolversValid s)
    (context : Option ContextId) (prepared : PreparedFetchArgs) (captureBodies : Bool)
    (stage : Stage) :
    ResolversValid (startInvocation s context prepared captureBodies stage) := by
  intro j hj
  rw [FetchWrapper.startInvocation, List.length_append, List.length_singleton]
  rcases List.mem_append.mp hj with hold | hnew
  · exact Nat.lt_succ_of_lt (valid j hold)
  · rw [List.mem_singleton.mp hnew]
    exact Nat.lt_succ_self _

/-- What is true of every state, and what the guard keeps true. -/
structure Paired (s : State) : Prop where
  valid : ResolversValid s
  written : ∀ w ∈ s.writes, PushedFor s w.slot w.invocation
  holds : HoldsOwn s

theorem Paired.writesOwn {s : State} (h : Paired s) : WritesOwn s where
  own := h.written
  exclusive w hw w' hw' hslot := by
    have first : PushedFor s w.slot w.invocation := h.written w hw
    have second : PushedFor s w'.slot w'.invocation := h.written w' hw'
    rw [PushedFor, ← hslot] at second
    exact Option.some.inj (first.symm.trans second)

namespace Paired

variable {s t : State} {i : InvocationId} {id : SlotId}

theorem sameCalls (h : Paired s) (same : SameCalls s t) : Paired t where
  valid := by
    rw [ResolversValid, same.pending, same.invocations]
    exact h.valid
  written w hw := (h.written w (same.writes ▸ hw)).keeps same.keeps
  holds :=
    { bound := fun i call id hcall hbound =>
        (h.holds.bound i call id (same.invocations ▸ hcall) hbound).keeps same.keeps
      capturing := fun i call id hcall hstage =>
        (h.holds.capturing i call id (same.invocations ▸ hcall) hstage).keeps same.keeps }

/-- A call changes, and holds no other slots than its own. -/
theorem updateInvocation (h : Paired s) (f : Invocation → Invocation)
    (bound : ∀ call, s.invocations[i]? = some call → ∀ id, (f call).boundSlot = .slot id →
      PushedFor s id i)
    (capturing : ∀ call, s.invocations[i]? = some call → ∀ id, (f call).stage = .capturing id →
      PushedFor s id i) : Paired (s.updateInvocation i f) where
  valid j hj := by
    rw [State.updateInvocation, List.length_modify]
    exact h.valid j hj
  written := h.written
  holds :=
    { bound := by
        intro j call id hcall hbound
        obtain ⟨rfl, old, hold, rfl⟩ | ⟨-, hcall⟩ := Indexed.modify_cases hcall
        · exact bound old hold id hbound
        · exact h.holds.bound j call id hcall hbound
      capturing := by
        intro j call id hcall hstage
        obtain ⟨rfl, old, hold, rfl⟩ | ⟨-, hcall⟩ := Indexed.modify_cases hcall
        · exact capturing old hold id hstage
        · exact h.holds.capturing j call id hcall hstage }

theorem setStage (h : Paired s) (stage : Stage)
    (own : ∀ id, stage = .capturing id → PushedFor s id i) : Paired (s.setStage i stage) :=
  h.updateInvocation _ (fun call hcall id => h.holds.bound i call id hcall) fun _ _ => own

theorem bindFetchSlot (h : Paired s) (own : PushedFor s id i) :
    Paired (bindFetchSlot s i (.slot id)) := by
  refine h.updateInvocation _ ?_ fun call hcall id => h.holds.capturing i call id hcall
  intro call _ id' hbound
  exact BoundSlot.slot.inj hbound ▸ own

/-- Resolvers leave the queue. -/
theorem dequeue (h : Paired s) (pending : List InvocationId)
    (sub : ∀ j ∈ pending, j ∈ s.pendingFetchResolvers) :
    Paired { s with pendingFetchResolvers := pending } where
  valid j hj := h.valid j (sub j hj)
  written := h.written
  holds := ⟨h.holds.bound, h.holds.capturing⟩

theorem stopWaiting (h : Paired s) (i : InvocationId) : Paired (stopWaiting s i) := by
  refine dequeue ?_ _ fun j hj => List.mem_of_mem_erase hj
  refine h.updateInvocation _ ?_ fun call hcall id => h.holds.capturing i call id hcall
  intro call hcall id hbound
  dsimp only at hbound
  split at hbound
  · exact BoundSlot.noConfusion hbound
  · exact h.holds.bound i call id hcall hbound

theorem write (h : Paired s) (own : PushedFor s id i) (f : Slot → Slot)
    (hf : ∀ slot, (f slot).owner = slot.owner) : Paired (s.write i id f) where
  valid := h.valid
  written := by
    intro w hw
    have keeps : Keeps s (s.updateSlot id f) := keeps_updateSlot s id f hf
    rcases List.mem_append.mp hw with hold | hnew
    · exact (h.written w hold).keeps keeps
    · rw [List.mem_singleton.mp hnew]
      exact own.keeps keeps
  holds :=
    { bound := fun i call id' hcall hbound =>
        (h.holds.bound i call id' hcall hbound).keeps (keeps_updateSlot s id f hf)
      capturing := fun i call id' hcall hstage =>
        (h.holds.capturing i call id' hcall hstage).keeps (keeps_updateSlot s id f hf) }

/-- A call begins with no slot, and its resolver is the last one. -/
theorem startInvocation (h : Paired s) (context : Option ContextId)
    (prepared : PreparedFetchArgs) (captureBodies : Bool) {stage : Stage}
    (hstage : ∀ id, stage ≠ .capturing id) :
    Paired (startInvocation s context prepared captureBodies stage) where
  valid := h.valid.startInvocation context prepared captureBodies stage
  written := h.written
  holds :=
    { bound := by
        intro j call id hcall hbound
        obtain hold | ⟨-, hnew⟩ := Indexed.concat_cases hcall
        · exact h.holds.bound j call id hold hbound
        · rw [hnew] at hbound
          exact BoundSlot.noConfusion hbound
      capturing := by
        intro j call id hcall hcapturing
        obtain hold | ⟨-, hnew⟩ := Indexed.concat_cases hcall
        · exact h.holds.capturing j call id hold hcapturing
        · rw [hnew] at hcapturing
          exact absurd hcapturing (hstage id) }

/-- The create event hands its slot to the call that dispatched. -/
theorem handleRequestCreate (h : Paired s) (context : Option ContextId) (owner : Owner)
    (request : UndiciRequest) (next : request.recording = .complete → NextIs s owner.invocation) :
    Paired (handleRequestCreate env s context owner request) := by
  have recorded := h.sameCalls
    (record_sameCalls env s (createdSlot env context owner request) context s.slots.length)
  rw [FetchWrapper.handleRequestCreate]
  cases hrecording : request.recording with
  | ignored => exact h
  | interrupted => exact recorded
  | complete =>
      dsimp only
      rw [notifyPendingFetch.eq_def]
      split
      case h_1 => exact recorded
      case h_2 resolver rest hpending =>
        have hqueue : s.pendingFetchResolvers = resolver :: rest :=
          (record_sameCalls env s _ context s.slots.length).pending ▸ hpending
        have hown : owner.invocation = some resolver :=
          next hrecording resolver (by rw [hqueue]; rfl)
        refine (recorded.dequeue rest fun j hj => ?_).bindFetchSlot ?_
        · rw [hpending]
          exact List.mem_cons_of_mem _ hj
        · rw [PushedFor, ownerOf]
          exact Option.bind_eq_some_iff.mpr ⟨owner, record_ownerOf env s _ context, hown⟩

/-- A call that settles writes to a slot of its own. -/
theorem settle (h : Paired s) {call : Invocation} (hcall : s.invocations[i]? = some call)
    (outcome : Outcome)
    (own : (∀ id, call.boundSlot ≠ .slot id) →
      ∀ id ∈ findMatchingContextSlot env s call.context call.prepared, PushedFor s id i) :
    Paired (settle env s i call outcome) := by
  rw [FetchWrapper.settle.eq_def]
  split
  case h_1 => exact (h.stopWaiting i).setStage .over fun id hover => Stage.noConfusion hover
  case h_2 resolved id hresolved =>
    obtain ⟨same, hsource⟩ := resolveRecordedFetchSlot_cases env hresolved
    have hslot : PushedFor resolved id i := by
      obtain hbound | ⟨hunbound, hfound⟩ | hfallback := hsource
      · exact (h.holds.bound i call id hcall hbound).keeps same.keeps
      · rw [findMatchingContextSlot_stopWaiting] at hfound
        exact (own hunbound id hfound).keeps same.keeps
      · exact Option.bind_eq_some_iff.mpr ⟨_, hfallback, rfl⟩
    have attach := attachContextToSlot_sameCalls env resolved id call.context
    have written := (((h.stopWaiting i).sameCalls same).sameCalls attach).write
      (hslot.keeps attach.keeps) _ (writeOutcome_owner env call outcome)
    refine written.setStage _ fun id' hstage => ?_
    rw [stageAfter_capturing hstage]
    exact (hslot.keeps attach.keeps).keeps
      (keeps_updateSlot _ id _ (writeOutcome_owner env call outcome))

end Paired

/-! ## Steps -/

section Steps

variable {s t : State}

/-- A new call is next when it finds the queue empty. -/
theorem nextIs_startInvocation {context : Option ContextId}
    {prepared : PreparedFetchArgs} {captureBodies : Bool} {stage : Stage} :
    NextIs s (some s.invocations.length) ↔
      NextIs (startInvocation s context prepared captureBodies stage)
        (some s.invocations.length) := by
  have hqueue : (startInvocation s context prepared captureBodies stage).pendingFetchResolvers =
    s.pendingFetchResolvers ++ [s.invocations.length] := rfl
  rw [NextIs, NextIs, hqueue]
  cases hpending : s.pendingFetchResolvers with
  | nil =>
      simp only [List.head?_nil, List.nil_append, List.head?_cons]
      exact ⟨fun _ resolver hr => hr, fun _ resolver hr => absurd hr (Option.not_mem_none _)⟩
  | cons resolver rest => rfl

theorem settle_step {i : InvocationId} {outcome : Outcome}
    (hstep : step env s (.settle i outcome) = some t) :
    ∃ call, s.invocations[i]? = some call ∧ call.stage = .awaiting ∧
      t = settle env s i call outcome := by
  rw [step.eq_def] at hstep
  dsimp only at hstep
  split at hstep
  · exact absurd hstep.symm (Option.some_ne_none t)
  · next call hcall =>
    split at hstep
    · next hstage => exact ⟨call, hcall, hstage, (Option.some.inj hstep).symm⟩
    · exact absurd hstep.symm (Option.some_ne_none t)

theorem Paired.step (h : Paired s) {action : Action} (hguard : guard env s action)
    (hstep : step env s action = some t) : Paired t := by
  cases action with
  | fetch context prepared captureBodies dispatch =>
      cases dispatch with
      | throws =>
          obtain rfl := Option.some.inj hstep
          exact h.startInvocation context prepared captureBodies fun _ hs => Stage.noConfusion hs
      | never =>
          obtain rfl := Option.some.inj hstep
          exact h.startInvocation context prepared captureBodies fun _ hs => Stage.noConfusion hs
      | emits request =>
          obtain rfl := Option.some.inj hstep
          refine (h.startInvocation context prepared captureBodies
            fun _ hs => Stage.noConfusion hs).handleRequestCreate env context _ request ?_
          intro hcomplete resolver hresolver
          exact nextIs_startInvocation.mp (hguard hcomplete) resolver hresolver
  | redispatch i request =>
      rw [FetchWrapper.step.eq_def] at hstep
      dsimp only at hstep
      split at hstep
      · exact absurd hstep.symm (Option.some_ne_none t)
      · obtain rfl := Option.some.inj hstep
        exact h.handleRequestCreate env _ (.dispatch i) request hguard
  | request context request =>
      obtain rfl := Option.some.inj hstep
      exact h.handleRequestCreate env context .other request hguard
  | bindTimeout i =>
      rw [FetchWrapper.step] at hstep
      split at hstep
      · obtain rfl := Option.some.inj hstep
        exact h.stopWaiting i
      · exact absurd hstep.symm (Option.some_ne_none t)
  | settle i outcome =>
      obtain ⟨call, hcall, -, rfl⟩ := settle_step env hstep
      exact h.settle env hcall outcome (hguard call hcall)
  | captureBody i body truncated =>
      rw [FetchWrapper.step.eq_def] at hstep
      dsimp only at hstep
      split at hstep
      · exact absurd hstep.symm (Option.some_ne_none t)
      · next call hcall =>
        split at hstep
        · next id hstage =>
          obtain rfl := Option.some.inj hstep
          exact h.write (h.holds.capturing i call id hcall hstage) _ fun _ => rfl
        · exact absurd hstep.symm (Option.some_ne_none t)
  | otherEvent context slot =>
      obtain rfl := Option.some.inj hstep
      exact h.sameCalls (record_sameCalls env s _ context _)
  | clearContext c =>
      obtain rfl := Option.some.inj hstep
      exact h.sameCalls ⟨keeps_of_slots rfl, rfl, rfl, rfl⟩

/-! ## The guard is necessary -/

theorem PushedFor.back {id : SlotId} {i : InvocationId} {owner : Owner}
    (h : PushedFor t id i) (keeps : Keeps s t) (hid : ownerOf s id = some owner) :
    PushedFor s id i := by
  rw [PushedFor, keeps id owner hid] at h
  rwa [PushedFor, hid]

/-- The call whose resolver is taken holds the new slot. -/
theorem handleRequestCreate_next (valid : ResolversValid s) {context : Option ContextId}
    {owner : Owner} {request : UndiciRequest} (hcomplete : request.recording = .complete)
    (holds : HoldsOwn (handleRequestCreate env s context owner request)) :
    NextIs s owner.invocation := by
  intro resolver hresolver
  have same := record_sameCalls env s (createdSlot env context owner request) context s.slots.length
  have hnew := record_ownerOf env s (createdSlot env context owner request) context
  rw [handleRequestCreate, hcomplete] at holds
  dsimp only at holds
  generalize hrecorded :
    pushIOEvent env (s.pushSlot (createdSlot env context owner request)) context
      s.slots.length = recorded at *
  cases hpending : s.pendingFetchResolvers with
  | nil => rw [hpending] at hresolver; exact absurd hresolver (Option.not_mem_none _)
  | cons first rest =>
      rw [hpending] at hresolver
      obtain rfl : first = resolver := Option.some.inj hresolver
      have hlt : first < recorded.invocations.length := by
        rw [same.invocations]
        exact valid first (hpending ▸ List.mem_cons_self)
      rw [notifyPendingFetch, same.pending, hpending] at holds
      dsimp only at holds
      have hcall := List.getElem?_eq_getElem hlt
      have own : PushedFor recorded s.slots.length first := by
        refine holds.bound first { recorded.invocations[first] with boundSlot := _ } _ ?_ rfl
        rw [bindFetchSlot, State.updateInvocation, List.getElem?_modify, hcall]
        simp only [Option.map_eq_map, Option.map_some, if_true]
      rwa [PushedFor, hnew] at own

theorem settle_own {i : InvocationId} {call : Invocation} {outcome : Outcome}
    (writes : WritesOwn (settle env s i call outcome))
    (hunbound : ∀ id, call.boundSlot ≠ .slot id) {id : SlotId}
    (hfound : findMatchingContextSlot env s call.context call.prepared = some id) :
    PushedFor s id i := by
  have hresolved : resolveRecordedFetchSlot env (stopWaiting s i) i call =
      some (stopWaiting s i, id) :=
    resolveRecordedFetchSlot_found env hunbound
      (by rw [findMatchingContextSlot_stopWaiting, hfound])
  obtain ⟨owner, howner⟩ := findMatchingContextSlot_exists env hfound
  have keeps : Keeps s (settle env s i call outcome) := by
    rw [settle.eq_def, hresolved]
    exact (attachContextToSlot_sameCalls env (stopWaiting s i) id call.context).keeps.trans
      (keeps_updateSlot _ id _ (writeOutcome_owner env call outcome))
  have written : ({ slot := id, invocation := i } : Write) ∈
      (settle env s i call outcome).writes := by
    rw [settle.eq_def, hresolved]
    exact List.mem_append_right _ (List.mem_singleton.mpr rfl)
  exact (writes.own _ written).back keeps howner

/-- A step after which calls write and hold slots of their own met the guard. -/
theorem guard_of_own (valid : ResolversValid s) {action : Action}
    (hstep : step env s action = some t) (writes : WritesOwn t) (holds : HoldsOwn t) :
    guard env s action := by
  cases action with
  | fetch context prepared captureBodies dispatch =>
      cases dispatch with
      | throws => trivial
      | never => trivial
      | emits request =>
          obtain rfl := Option.some.inj hstep
          intro hcomplete
          exact nextIs_startInvocation.mpr
            (handleRequestCreate_next env (valid.startInvocation _ _ _ _) hcomplete holds)
  | redispatch i request =>
      rw [step.eq_def] at hstep
      dsimp only at hstep
      split at hstep
      · exact absurd hstep.symm (Option.some_ne_none t)
      · obtain rfl := Option.some.inj hstep
        exact fun hcomplete => handleRequestCreate_next env valid hcomplete holds
  | request context request =>
      obtain rfl := Option.some.inj hstep
      exact fun hcomplete => handleRequestCreate_next env valid hcomplete holds
  | settle i outcome =>
      obtain ⟨call, hcall, -, rfl⟩ := settle_step env hstep
      intro call' hcall' hunbound id hfound
      obtain rfl : call = call' := Option.some.inj (hcall.symm.trans hcall')
      exact settle_own env writes hunbound hfound
  | bindTimeout => trivial
  | captureBody => trivial
  | otherEvent => trivial
  | clearContext => trivial

end Steps

/-! ## Runs -/

theorem paired_initial : Paired initial where
  valid _ h := absurd h List.not_mem_nil
  written _ h := absurd h List.not_mem_nil
  holds :=
    { bound := fun _ _ _ h => absurd h.symm (Option.some_ne_none _)
      capturing := fun _ _ _ h => absurd h.symm (Option.some_ne_none _) }

theorem paired_preserved : (system env).Preserved (guard env) Paired where
  init := by rintro s rfl; exact paired_initial
  step s a t h hguard hstep := h.step env hguard hstep

/-- In every run calls write, and hold for a later write, slots that were pushed for them exactly
if each create event finds the resolver of its own call first in the queue, or none, and each call
that settles without a slot finds no other call's slot in its context. -/
theorem always_own_iff (actions : List Action) :
    (system env).Always (fun s => WritesOwn s ∧ HoldsOwn s) initial actions ↔
      (system env).Guarded (guard env) initial actions :=
  Transition.System.always_iff_guarded (paired_preserved env)
    (fun _ h => ⟨h.writesOwn, h.holds⟩)
    (fun _ _ _ h hstep own => guard_of_own env h.valid hstep own.1 own.2) paired_initial

/-! ## A call that does not dispatch -/

def plainEnvironment : Environment where
  requestId c := if c = 0 then "alice" else "bob"
  maxIOEvents := 500
  filterAndNormalizeHeaders headers := headers
  scrubUrl url := url
  urlOrigin _ := none
  toUpperCase text := text
  bufferPushes := true

def dataFetch : Action :=
  .fetch (some 0)
    { input := .string "data:,alice", initMethod := none, requestHeaders := none } true .never

def bobsRequest : Action :=
  .request (some 1)
    { method := some "GET", origin := some "https://bob.example", path := some "/", url := none,
      headers := [], recording := .complete }

def dataResponse : Action :=
  .settle 0 (.response { status := 200, headers := [("x", "alice")], clones := true })

/-- While a `data:` URL is read for one request, another request dispatches, and its slot gets the
response of the first. -/
theorem dataFetch_misattributed :
    ¬ (system plainEnvironment).Always WritesOwn initial [dataFetch, bobsRequest, dataResponse] := by
  decide

end ErrorCore.FetchWrapper
