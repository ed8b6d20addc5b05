import ErrorCore.Context.RequestTracker

/-!
# Where tracked requests go

Requests come and go through the tracker in any order: they are added, removed
by their cleanups or directly, swept when they are too old, and dropped at the
shutdown. Every context that was accepted is still tracked, or was handed to
`onRemove` once, or was replaced by a context with its id, or was dropped by the
shutdown; and a cleanup calls each of its callbacks at most once.
-/

namespace ErrorCore

namespace RequestTracker

/-- The tracker with its cleanups, and the contexts in the order in which they were accepted, handed
to `onRemove`, replaced and dropped. -/
structure State where
  tracker : RequestTracker
  cleanups : List Cleanup
  accepted : List TrackedContext
  handed : List TrackedContext
  replaced : List TrackedContext
  dropped : List TrackedContext
  deriving DecidableEq, Repr

def State.initial : State where
  tracker := empty
  cleanups := []
  accepted := []
  handed := []
  replaced := []
  dropped := []

inductive Action
  | add (context : TrackedContext)
  | register (requestId : Text) (listeners : List (CleanupEvent × Bool))
  | event (i : Nat) (event : CleanupEvent) (throws : Bool)
  | remove (requestId : Text)
  | sweep (now : Int)
  | shutdown
  deriving DecidableEq, Repr

section Step

variable (config : RequestTrackerConfig)

def State.add (s : State) (context : TrackedContext) : State :=
  let tracker := s.tracker.add config context
  if s.tracker.isFull config then { s with tracker }
  else
    { s with
      tracker
      accepted := s.accepted ++ [context]
      replaced :=
        s.replaced ++ (InsertionMap.get? s.tracker.contexts context.requestId).toList }

def State.event (s : State) (i : Nat) (event : CleanupEvent) (throws : Bool) : Option State := do
  let cleanup ← s.cleanups[i]?
  let fired ← cleanup.fire event
  let result := fired.handle config throws event s.tracker
  return { s with
    tracker := result.2.1
    cleanups := s.cleanups.set i result.1
    handed := s.handed ++ result.2.2.toList }

def step (s : State) : Action → Option State
  | .add context => some (s.add config context)
  | .register requestId listeners =>
      some { s with cleanups := s.cleanups ++ [registerRequestCleanup requestId listeners] }
  | .event i event throws => s.event config i event throws
  | .remove requestId =>
      let removed := s.tracker.remove config requestId
      some { s with tracker := removed.1, handed := s.handed ++ removed.2.toList }
  | .sweep now =>
      let swept := s.tracker.sweepExpired config now
      some { s with tracker := swept.1, handed := s.handed ++ swept.2 }
  | .shutdown =>
      some { s with
        tracker := shutdown, dropped := s.dropped ++ s.tracker.contexts.map (·.2) }

def system : Transition.System State Action where
  init s := s = .initial
  step := step config

end Step

/-! ## The map -/

variable {config : RequestTrackerConfig} {tracker : RequestTracker} {context : TrackedContext}
variable {requestId : Text}

/-- Contexts are kept under their own ids, and no more than the configuration allows. -/
structure WellFormed (config : RequestTrackerConfig) (tracker : RequestTracker) : Prop where
  nodup : (tracker.contexts.map (·.1)).Nodup
  keyed : ∀ pair ∈ tracker.contexts, pair.1 = pair.2.requestId
  bounded : tracker.contexts.length ≤ config.maxConcurrent

/-- The contexts in the map. -/
def tracked (tracker : RequestTracker) : List TrackedContext := tracker.contexts.map (·.2)

@[simp] theorem contexts_reset :
    (tracker.resetCapacityWarningIfAvailable config).contexts = tracker.contexts := by
  rw [resetCapacityWarningIfAvailable]
  split
  · rfl
  · rfl

theorem remove_contexts : (tracker.remove config requestId).1.contexts =
    InsertionMap.delete tracker.contexts requestId := by
  rw [remove]
  split
  · rfl
  · exact contexts_reset

theorem remove_handed : (tracker.remove config requestId).2 =
    InsertionMap.get? tracker.contexts requestId := by
  rw [remove]
  split
  · rfl
  · rfl

/-- A map that has lost pairs is still well formed. -/
theorem WellFormed.of_sublist {after : RequestTracker} (h : WellFormed config tracker)
    (hsub : after.contexts.Sublist tracker.contexts) : WellFormed config after where
  nodup := h.nodup.sublist (hsub.map _)
  keyed pair hmem := h.keyed pair (hsub.subset hmem)
  bounded := Nat.le_trans hsub.length_le h.bounded

theorem WellFormed.perm_remove (h : WellFormed config tracker) :
    tracker.tracked.Perm ((tracker.remove config requestId).1.tracked ++
      (tracker.remove config requestId).2.toList) := by
  rw [tracked, tracked, remove_contexts, remove_handed]
  exact InsertionMap.perm_delete h.nodup

theorem WellFormed.remove (h : WellFormed config tracker) :
    WellFormed config (tracker.remove config requestId).1 := by
  apply h.of_sublist
  rw [remove_contexts]
  exact List.filter_sublist

/-! ## The sweep -/

/-- The sweep hands over what it takes out, in the order of the map. -/
theorem sweepLoop_spec (config : RequestTrackerConfig) (now : Int)
    (pairs : List (Text × TrackedContext)) :
    (sweepLoop config now pairs).1.Sublist pairs ∧
      (pairs.map (·.2)).Perm
        ((sweepLoop config now pairs).1.map (·.2) ++ (sweepLoop config now pairs).2.1) ∧
      ∀ context ∈ (sweepLoop config now pairs).2.1, isExpired config now context = true := by
  induction pairs with
  | nil => exact ⟨.refl _, .refl _, List.forall_mem_nil _⟩
  | cons pair rest ih =>
      obtain ⟨hsub, hperm, hold⟩ := ih
      rw [sweepLoop]
      split
      · next hexpired =>
          split
          · exact ⟨List.sublist_cons_self _ _, (List.perm_append_singleton _ _).symm,
              List.forall_mem_singleton.mpr hexpired⟩
          · refine ⟨hsub.cons _, ?_, List.forall_mem_cons.mpr ⟨hexpired, hold⟩⟩
            exact (hperm.cons _).trans List.perm_middle.symm
      · exact ⟨hsub.cons_cons _, hperm.cons _, hold⟩

/-- A sweep that no callback ends leaves nothing that is too old. -/
theorem sweepLoop_complete {now : Int} {pairs : List (Text × TrackedContext)}
    (h : (sweepLoop config now pairs).2.2 = false) :
    ∀ pair ∈ (sweepLoop config now pairs).1, isExpired config now pair.2 = false := by
  induction pairs with
  | nil => exact List.forall_mem_nil _
  | cons pair rest ih =>
      rw [sweepLoop] at h ⊢
      split at h
      · next hexpired =>
          split at h
          · exact nomatch h
          · next hquiet =>
              rw [if_pos hexpired, if_neg hquiet]
              exact ih h
      · next hfresh =>
          rw [if_neg hfresh]
          exact List.forall_mem_cons.mpr ⟨Bool.eq_false_iff.mpr hfresh, ih h⟩

theorem sweepExpired_contexts {now : Int} : (tracker.sweepExpired config now).1.contexts =
    (sweepLoop config now tracker.contexts).1 := by
  rw [sweepExpired]
  dsimp only
  split
  · rfl
  · exact contexts_reset

theorem sweepExpired_handed {now : Int} : (tracker.sweepExpired config now).2 =
    (sweepLoop config now tracker.contexts).2.1 := by
  rw [sweepExpired]
  dsimp only
  split
  · rfl
  · rfl

/-! ## Adding -/

theorem WellFormed.add (h : WellFormed config tracker) (hroom : tracker.isFull config = false) :
    WellFormed config (tracker.add config context) := by
  have hlength : tracker.contexts.length < config.maxConcurrent :=
    Nat.lt_of_not_le (of_decide_eq_false hroom)
  rw [RequestTracker.add, hroom, if_neg Bool.false_ne_true]
  refine ⟨InsertionMap.nodup_keys_set h.nodup, ?_, ?_⟩
  · intro pair hmem
    cases InsertionMap.mem_set hmem with
    | inl hnew => rw [hnew]
    | inr hold => exact h.keyed pair hold.1
  · by_cases hmem : context.requestId ∈ tracker.contexts.map (·.1)
    · rw [InsertionMap.length_set_of_mem hmem]
      exact h.bounded
    · rw [InsertionMap.length_set hmem]
      exact hlength

theorem WellFormed.perm_add (context : TrackedContext) (h : WellFormed config tracker)
    (hroom : tracker.isFull config = false) :
    (tracker.tracked ++ [context]).Perm ((tracker.add config context).tracked ++
      (InsertionMap.get? tracker.contexts context.requestId).toList) := by
  rw [RequestTracker.add, hroom, if_neg Bool.false_ne_true]
  exact InsertionMap.perm_set h.nodup

theorem add_of_isFull (h : tracker.isFull config = true) :
    (tracker.add config context).contexts = tracker.contexts := by
  rw [RequestTracker.add, if_pos h]

end RequestTracker

/-! ## Cleanups -/

namespace Cleanup

variable {config : RequestTrackerConfig} {tracker : RequestTracker} {cleanup : Cleanup}
variable {throws : Bool} {event : CleanupEvent}

/-- The flags count the calls. -/
structure Once (cleanup : Cleanup) : Prop where
  completions : cleanup.completions = if cleanup.responseCompleted then 1 else 0
  removals : cleanup.removals = if cleanup.cleaned then 1 else 0
  cleanups : cleanup.cleanups ≤ cleanup.removals

theorem once_register {requestId : Text} {listeners : List (CleanupEvent × Bool)} :
    (registerRequestCleanup requestId listeners).Once where
  completions := rfl
  removals := rfl
  cleanups := Nat.le_refl _

/-- What running a cleanup does to the tracker: nothing, or one removal. -/
def Removes (config : RequestTrackerConfig) (cleanup : Cleanup) (tracker : RequestTracker)
    (result : Cleanup × RequestTracker × Option TrackedContext) : Prop :=
  result.2 = (tracker, none) ∧ result.1.removals = cleanup.removals ∨
    result.2 = tracker.remove config cleanup.requestId ∧ cleanup.cleaned = false

theorem run_removes : Removes config cleanup tracker (cleanup.run config tracker) := by
  rw [run]
  split
  · exact .inl ⟨rfl, rfl⟩
  · next hfirst => exact .inr ⟨rfl, Bool.eq_false_iff.mpr hfirst⟩

theorem handle_removes :
    Removes config cleanup tracker (cleanup.handle config throws event tracker) := by
  rw [handle]
  split
  · rw [runResponse]
    split
    · exact run_removes
    · dsimp only
      split
      · exact .inl ⟨rfl, rfl⟩
      · exact run_removes
  · exact run_removes

theorem Once.run (h : cleanup.Once) : (cleanup.run config tracker).1.Once := by
  rw [Cleanup.run]
  split
  · exact h
  · next hfirst =>
      have hremovals := h.removals
      have hcleanups := h.cleanups
      rw [if_neg hfirst] at hremovals
      refine ⟨h.completions, ?_, ?_⟩
      · rw [if_pos rfl, hremovals]
      · dsimp only
        split
        · exact Nat.le_succ_of_le hcleanups
        · exact Nat.succ_le_succ hcleanups

theorem Once.handle (h : cleanup.Once) : (cleanup.handle config throws event tracker).1.Once := by
  rw [Cleanup.handle]
  split
  · rw [runResponse]
    split
    · exact h.run
    · next hfirst =>
        have hcompletions := h.completions
        rw [if_neg hfirst] at hcompletions
        have hcompleted : Once { cleanup with
            responseCompleted := true, completions := cleanup.completions + 1 } :=
          ⟨by rw [if_pos rfl, hcompletions], h.removals, h.cleanups⟩
        dsimp only
        split
        · exact hcompleted
        · exact hcompleted.run
  · exact h.run

theorem once_fire {fired : Cleanup} (h : cleanup.Once) (hfire : cleanup.fire event = some fired) :
    fired.Once := by
  rw [fire] at hfire
  split at hfire
  · rw [← Option.some.inj hfire]
    exact ⟨h.completions, h.removals, h.cleanups⟩
  · split at hfire
    · exact Option.some.inj hfire ▸ h
    · exact nomatch hfire

end Cleanup

namespace RequestTracker

/-! ## Runs -/

variable {config : RequestTrackerConfig} {s t : State} {a : Action}

/-- Every accepted context is in one place, and no callback of a cleanup is called twice. -/
structure Accounted (config : RequestTrackerConfig) (s : State) : Prop where
  wellFormed : WellFormed config s.tracker
  perm : s.accepted.Perm (s.tracker.tracked ++ (s.handed ++ (s.replaced ++ s.dropped)))
  once : ∀ cleanup ∈ s.cleanups, cleanup.Once

theorem accounted_initial : Accounted config .initial where
  wellFormed := ⟨List.nodup_nil, List.forall_mem_nil _, Nat.zero_le _⟩
  perm := .refl _
  once := List.forall_mem_nil _

/-- What leaves the map goes to `onRemove`. -/
theorem Accounted.hand {tracker : RequestTracker} {out : List TrackedContext}
    {cleanups : List Cleanup} (h : Accounted config s) (hwell : WellFormed config tracker)
    (hperm : s.tracker.tracked.Perm (tracker.tracked ++ out))
    (honce : ∀ cleanup ∈ cleanups, cleanup.Once) :
    Accounted config { s with tracker, cleanups, handed := s.handed ++ out } := by
  refine ⟨hwell, ?_, honce⟩
  have hall := h.perm
  rw [List.perm_iff_count] at hall hperm ⊢
  intro context
  have hbefore := hall context
  have hmoved := hperm context
  simp only [List.count_append] at hbefore hmoved ⊢
  omega

theorem Accounted.add (h : Accounted config s) (context : TrackedContext) :
    Accounted config (s.add config context) := by
  rw [State.add]
  split
  · next hfull =>
      have hsame : (s.tracker.add config context).contexts = s.tracker.contexts :=
        add_of_isFull hfull
      refine ⟨h.wellFormed.of_sublist ?_, ?_, h.once⟩
      · exact hsame ▸ .refl _
      · have htracked : (s.tracker.add config context).tracked = s.tracker.tracked := by
          rw [tracked, hsame, tracked]
        rw [htracked]
        exact h.perm
  · next hfull =>
      have hroom : s.tracker.isFull config = false := Bool.eq_false_iff.mpr hfull
      refine ⟨h.wellFormed.add hroom, ?_, h.once⟩
      have hall := h.perm
      have hset := h.wellFormed.perm_add context hroom
      rw [List.perm_iff_count] at hall hset ⊢
      intro other
      have hbefore := hall other
      have hmoved := hset other
      simp only [List.count_append] at hbefore hmoved ⊢
      omega

theorem Accounted.event {i : Nat} {event : CleanupEvent} {throws : Bool}
    (h : Accounted config s) (hstep : s.event config i event throws = some t) :
    Accounted config t := by
  rw [State.event] at hstep
  obtain ⟨cleanup, hat, hstep⟩ := Option.bind_eq_some_iff.mp hstep
  obtain ⟨fired, hfired, hstep⟩ := Option.bind_eq_some_iff.mp hstep
  have honce := Cleanup.once_fire (h.once cleanup (List.mem_of_getElem? hat)) hfired
  have hresult : (fired.handle config throws event s.tracker).1.Once := honce.handle
  have hremoves : Cleanup.Removes config fired s.tracker
      (fired.handle config throws event s.tracker) := Cleanup.handle_removes
  generalize fired.handle config throws event s.tracker = result at hstep hresult hremoves
  obtain rfl := Option.some.inj hstep
  have hcleanups : ∀ other ∈ s.cleanups.set i result.1, other.Once := by
    intro other hmem
    cases List.mem_or_eq_of_mem_set hmem with
    | inl hold => exact h.once other hold
    | inr hnew => exact hnew ▸ hresult
  cases hremoves with
  | inl hnothing =>
      rw [hnothing.1]
      apply h.hand h.wellFormed _ hcleanups
      rw [Option.toList_none, List.append_nil]
  | inr hremoves =>
      rw [hremoves.1]
      exact h.hand h.wellFormed.remove h.wellFormed.perm_remove hcleanups

/-- Each step keeps the account. -/
theorem Accounted.step (h : Accounted config s) (hstep : step config s a = some t) :
    Accounted config t := by
  cases a with
  | add context => exact Option.some.inj hstep ▸ h.add context
  | register requestId listeners =>
      obtain rfl := Option.some.inj hstep
      exact ⟨h.wellFormed, h.perm, List.forall_mem_append.mpr
        ⟨h.once, List.forall_mem_singleton.mpr Cleanup.once_register⟩⟩
  | event i event throws => exact h.event hstep
  | remove requestId =>
      obtain rfl := Option.some.inj hstep
      exact h.hand h.wellFormed.remove h.wellFormed.perm_remove h.once
  | sweep now =>
      obtain rfl := Option.some.inj hstep
      obtain ⟨hsub, hperm, -⟩ := sweepLoop_spec config now s.tracker.contexts
      apply h.hand _ _ h.once
      · apply h.wellFormed.of_sublist
        rw [sweepExpired_contexts]
        exact hsub
      · rw [tracked, tracked, sweepExpired_contexts, sweepExpired_handed]
        exact hperm
  | shutdown =>
      obtain rfl := Option.some.inj hstep
      refine ⟨⟨List.nodup_nil, List.forall_mem_nil _, Nat.zero_le _⟩, ?_, h.once⟩
      have hall := h.perm
      rw [List.perm_iff_count] at hall ⊢
      intro context
      have hbefore := hall context
      simp only [tracked, shutdown, empty, List.count_append, List.map_nil, List.count_nil]
        at hbefore ⊢
      omega

theorem accounted_preserved :
    (system config).Preserved (fun _ _ => True) (Accounted config) where
  init s hs := hs ▸ accounted_initial
  step _ _ _ hI _ hstep := hI.step hstep

/-- In every run each accepted context is still tracked, or was handed to `onRemove`, or replaced, or
dropped by the shutdown, and is so in one place only; the map stays within its capacity; and each
cleanup calls its callbacks at most once. -/
theorem contexts_accounted (config : RequestTrackerConfig) (run : List Action) :
    (system config).Always (Accounted config) .initial run :=
  accounted_preserved.always accounted_initial Transition.System.guarded_true

end RequestTracker

end ErrorCore
