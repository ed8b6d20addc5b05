import ErrorCore.Foundation.Transition
import Mathlib.Data.List.Range
import Mathlib.Data.List.Perm.Basic

/-!
# Who owns the assembly dispatcher

`src/capture/package-assembly-controller.ts`: the controller creates the
dispatcher that assembles packages in a worker, lends it to the error capturer,
and tears it down when it has been idle, when its configuration cannot be
updated, and at the shutdown. Mode changes overlap: several may wait for the
update of their dispatcher at a time, and one that fails tears down the
dispatcher of the moment, which may be a later one, or none.

Dispatchers are numbered as they come. A label is a synchronous stretch, with
the outcome of what it waited for.
-/

namespace ErrorCore.PackageAssemblyController

structure State where
  workerAllowed : Bool
  dispatcher : Option Nat
  /-- What the error capturer assembles with. -/
  capturer : Option Nat
  idleTimer : Bool
  /-- The number of the next dispatcher. -/
  created : Nat
  /-- The mode changes that wait for the update of a dispatcher. -/
  updates : List Nat
  /-- The dispatchers that have been told to shut down, in this order. -/
  toldToShutDown : List Nat
  /-- `teardowns`: those of them that have not settled. -/
  teardowns : List Nat
  /-- The calls of `shutdown` in progress: the dispatchers there had been, and the teardowns that the
  call waits for. -/
  shutdowns : List (Nat × List Nat)
  deriving DecidableEq, Repr

/-- The controller as the constructor makes it, with the dispatcher that the capturer has, if any. -/
def State.start (workerAllowed withDispatcher : Bool) : State where
  workerAllowed := workerAllowed
  dispatcher := if withDispatcher then some 0 else none
  capturer := if withDispatcher then some 0 else none
  idleTimer := false
  created := if withDispatcher then 1 else 0
  updates := []
  toldToShutDown := []
  teardowns := []
  shutdowns := []

namespace State

variable (s : State)

/-- `trackTeardown`, which fails when there is no dispatcher. -/
def trackTeardown : Option Nat → State
  | none => s
  | some dispatcher =>
      { s with
        toldToShutDown := s.toldToShutDown ++ [dispatcher]
        teardowns := s.teardowns ++ [dispatcher] }

/-- The controller and the capturer give the dispatcher up, and it is torn down. -/
def giveUp : State :=
  { s with dispatcher := none, capturer := none }.trackTeardown s.dispatcher

def scheduleIdleShutdown : State :=
  if s.dispatcher = none ∨ s.idleTimer then s else { s with idleTimer := true }

def clearIdleTimer : State := { s with idleTimer := false }

/-- The capturer gets the dispatcher, whose configuration is updated. -/
def lend (dispatcher : Nat) : State :=
  { s with capturer := some dispatcher, updates := s.updates ++ [dispatcher] }

/-- `applyModeState` to its await. -/
def applyModeState (useWorkerAssembly createThrows : Bool) : State :=
  if useWorkerAssembly then
    let s := s.clearIdleTimer
    if s.workerAllowed then
      match s.dispatcher with
      | some dispatcher => s.lend dispatcher
      | none =>
          if createThrows then s
          else { s with dispatcher := some s.created, created := s.created + 1 }.lend s.created
    else { s with capturer := none }
  else s.scheduleIdleShutdown

/-- The end of an update; a failure tears down the dispatcher of the moment. -/
def settleUpdate (k : Nat) (fails : Bool) : Option State := do
  let _ ← s.updates[k]?
  let s := { s with updates := s.updates.eraseIdx k }
  return if fails then s.giveUp else s

def fireIdleTimer : Option State :=
  if s.idleTimer then some { s with idleTimer := false }.giveUp else none

/-- `shutdown` to its await. -/
def shutdown : State :=
  let s := s.clearIdleTimer.giveUp
  { s with shutdowns := s.shutdowns ++ [(s.created, s.teardowns)] }

def settleTeardown (k : Nat) : Option State := do
  let _ ← s.teardowns[k]?
  return { s with teardowns := s.teardowns.eraseIdx k }

/-- The promise of a `shutdown` resolves. -/
def resolveShutdown (k : Nat) : Option State := do
  let (_, waited) ← s.shutdowns[k]?
  if waited.all fun dispatcher => dispatcher ∉ s.teardowns then
    return { s with shutdowns := s.shutdowns.eraseIdx k }
  else none

end State

inductive Action
  | applyModeState (useWorkerAssembly createThrows : Bool)
  | settleUpdate (k : Nat) (fails : Bool)
  | fireIdleTimer
  | shutdown
  | settleTeardown (k : Nat)
  | resolveShutdown (k : Nat)
  deriving DecidableEq, Repr

def step (s : State) : Action → Option State
  | .applyModeState useWorkerAssembly createThrows =>
      some (s.applyModeState useWorkerAssembly createThrows)
  | .settleUpdate k fails => s.settleUpdate k fails
  | .fireIdleTimer => s.fireIdleTimer
  | .shutdown => some s.shutdown
  | .settleTeardown k => s.settleTeardown k
  | .resolveShutdown k => s.resolveShutdown k

def system : Transition.System State Action where
  init s := ∃ workerAllowed withDispatcher, s = .start workerAllowed withDispatcher
  step := step

/-! ## Ownership -/

/-- Each dispatcher ever created is the current one or has been told to shut down, once; the capturer
has the current one or none. -/
structure Owned (s : State) : Prop where
  accounted : (List.range s.created).Perm (s.dispatcher.toList ++ s.toldToShutDown)
  lent : s.capturer = none ∨ s.capturer = s.dispatcher
  told : s.teardowns.Sublist s.toldToShutDown
  /-- A shutdown has told all dispatchers there had been, and waits for those that have not settled. -/
  awaited : ∀ call ∈ s.shutdowns, ∀ dispatcher < call.1,
    dispatcher ∈ s.toldToShutDown ∧ (dispatcher ∈ s.teardowns → dispatcher ∈ call.2)

variable {s t : State}

theorem owned_start (workerAllowed withDispatcher : Bool) :
    Owned (.start workerAllowed withDispatcher) := by
  refine ⟨?_, .inr rfl, .refl _, List.forall_mem_nil _⟩
  cases withDispatcher with
  | false => exact .refl _
  | true => exact .refl _

/-- What the controller does to its timer and to the calls in flight is no matter of ownership. -/
theorem Owned.congr (h : Owned s) (hcreated : t.created = s.created)
    (hdispatcher : t.dispatcher = s.dispatcher) (hcapturer : t.capturer = s.capturer)
    (htold : t.toldToShutDown = s.toldToShutDown) (hteardowns : t.teardowns.Sublist s.teardowns)
    (hshutdowns : t.shutdowns ⊆ s.shutdowns) : Owned t where
  accounted := by rw [hcreated, hdispatcher, htold]; exact h.accounted
  lent := by rw [hcapturer, hdispatcher]; exact h.lent
  told := by rw [htold]; exact hteardowns.trans h.told
  awaited call hcall dispatcher hlt := by
    obtain ⟨hold, hwaits⟩ := h.awaited call (hshutdowns hcall) dispatcher hlt
    rw [htold]
    exact ⟨hold, fun hmem => hwaits (hteardowns.subset hmem)⟩

/-- The current dispatcher has not been told. -/
theorem Owned.not_told {dispatcher : Nat} (h : Owned s) (hown : s.dispatcher = some dispatcher) :
    dispatcher ∉ s.toldToShutDown := by
  have hnodup := h.accounted.nodup_iff.mp List.nodup_range
  rw [hown] at hnodup
  exact (List.nodup_cons.mp hnodup).1

/-- Without a current dispatcher all have been told. -/
theorem Owned.all_told (h : Owned s) (hnone : s.dispatcher = none) :
    ∀ dispatcher < s.created, dispatcher ∈ s.toldToShutDown := by
  intro dispatcher hlt
  have hmem := h.accounted.subset (List.mem_range.mpr hlt)
  rwa [hnone] at hmem

theorem Owned.clearIdleTimer (h : Owned s) : Owned s.clearIdleTimer :=
  h.congr rfl rfl rfl rfl (.refl _) (List.Subset.refl _)

theorem Owned.giveUp (h : Owned s) : Owned s.giveUp := by
  have haccounted := h.accounted
  rw [State.giveUp]
  cases hdispatcher : s.dispatcher with
  | none =>
      rw [hdispatcher] at haccounted
      exact ⟨haccounted, .inl rfl, h.told, h.awaited⟩
  | some dispatcher =>
      rw [hdispatcher] at haccounted
      refine ⟨?_, .inl rfl, h.told.append (.refl _), fun call hcall other hlt => ?_⟩
      · exact haccounted.trans (List.perm_append_singleton _ _).symm
      · obtain ⟨hold, hwaits⟩ := h.awaited call hcall other hlt
        refine ⟨List.mem_append_left _ hold, fun hmem => ?_⟩
        cases List.mem_append.mp hmem with
        | inl hpending => exact hwaits hpending
        | inr hnew =>
            obtain rfl := List.mem_singleton.mp hnew
            exact absurd hold (h.not_told hdispatcher)

theorem giveUp_dispatcher : s.giveUp.dispatcher = none := by
  rw [State.giveUp]
  cases s.dispatcher with
  | none => rfl
  | some dispatcher => rfl

/-- A dispatcher is lent that is the controller's own. -/
theorem Owned.lend {dispatcher : Nat} (h : Owned s) (hown : s.dispatcher = some dispatcher) :
    Owned (s.lend dispatcher) :=
  ⟨h.accounted, .inr hown.symm, h.told, h.awaited⟩

theorem Owned.create (h : Owned s) (hnone : s.dispatcher = none) :
    Owned { s with dispatcher := some s.created, created := s.created + 1, capturer := none } := by
  refine ⟨?_, .inl rfl, h.told, h.awaited⟩
  have haccounted := h.accounted
  rw [hnone] at haccounted
  rw [List.range_succ]
  exact (List.perm_append_singleton _ _).trans (haccounted.cons s.created)

theorem Owned.applyModeState {useWorkerAssembly createThrows : Bool} (h : Owned s) :
    Owned (s.applyModeState useWorkerAssembly createThrows) := by
  have hcleared := h.clearIdleTimer
  rw [State.applyModeState]
  split
  · dsimp only
    split
    · split
      · next dispatcher hown => exact hcleared.lend hown
      · next hnone =>
          split
          · exact hcleared
          · have hcreated := hcleared.create hnone
            exact ⟨hcreated.accounted, .inr rfl, hcreated.told, hcreated.awaited⟩
    · exact ⟨hcleared.accounted, .inl rfl, hcleared.told, hcleared.awaited⟩
  · rw [State.scheduleIdleShutdown]
    split
    · exact h
    · exact h.congr rfl rfl rfl rfl (.refl _) (List.Subset.refl _)

theorem Owned.step {a : Action} (h : Owned s) (hstep : step s a = some t) : Owned t := by
  cases a with
  | applyModeState useWorkerAssembly createThrows =>
      exact Option.some.inj hstep ▸ h.applyModeState
  | settleUpdate k fails =>
      obtain ⟨updated, -, hstep⟩ := Option.bind_eq_some_iff.mp hstep
      have hleft : Owned { s with updates := s.updates.eraseIdx k } :=
        h.congr rfl rfl rfl rfl (.refl _) (List.Subset.refl _)
      rw [← Option.some.inj hstep]
      split
      · exact hleft.giveUp
      · exact hleft
  | fireIdleTimer =>
      rw [PackageAssemblyController.step, State.fireIdleTimer] at hstep
      split at hstep
      · exact Option.some.inj hstep ▸ h.clearIdleTimer.giveUp
      · cases hstep
  | shutdown =>
      have hgiven := h.clearIdleTimer.giveUp
      rw [← Option.some.inj hstep]
      refine ⟨hgiven.accounted, hgiven.lent, hgiven.told, List.forall_mem_append.mpr
        ⟨hgiven.awaited, List.forall_mem_singleton.mpr fun dispatcher hlt => ?_⟩⟩
      exact ⟨hgiven.all_told giveUp_dispatcher dispatcher hlt, id⟩
  | settleTeardown k =>
      obtain ⟨settled, -, hstep⟩ := Option.bind_eq_some_iff.mp hstep
      rw [← Option.some.inj hstep]
      exact h.congr rfl rfl rfl rfl (List.eraseIdx_sublist _ _) (List.Subset.refl _)
  | resolveShutdown k =>
      obtain ⟨⟨n, waited⟩, -, hstep⟩ := Option.bind_eq_some_iff.mp hstep
      dsimp only at hstep
      split at hstep
      · rw [← Option.some.inj hstep]
        exact h.congr rfl rfl rfl rfl (.refl _) (List.eraseIdx_subset)
      · cases hstep

theorem owned_preserved : system.Preserved (fun _ _ => True) Owned where
  init _ hs := by
    obtain ⟨workerAllowed, withDispatcher, rfl⟩ := hs
    exact owned_start workerAllowed withDispatcher
  step _ _ _ hI _ hstep := hI.step hstep

/-- However mode changes, failing updates, the idle timer and shutdowns interleave, every dispatcher
but the current one has been told to shut down, once; the capturer never holds one that has been
told; and when a shutdown resolves, all dispatchers from before its call have shut down. -/
theorem dispatchers_accounted (workerAllowed withDispatcher : Bool) (run : List Action) :
    system.Always
      (fun s => (List.range s.created).Perm (s.dispatcher.toList ++ s.toldToShutDown) ∧
        (∀ dispatcher, s.capturer = some dispatcher →
          s.dispatcher = some dispatcher ∧ dispatcher ∉ s.toldToShutDown) ∧
        ∀ k n waited t, s.shutdowns[k]? = some (n, waited) → s.resolveShutdown k = some t →
          ∀ dispatcher < n, dispatcher ∈ s.toldToShutDown ∧ dispatcher ∉ s.teardowns)
      (.start workerAllowed withDispatcher) run := by
  have howned : system.Always Owned (.start workerAllowed withDispatcher) run :=
    owned_preserved.always (owned_start workerAllowed withDispatcher)
      Transition.System.guarded_true
  apply howned.mono
  intro s h
  refine ⟨h.accounted, fun dispatcher hcapturer => ?_, ?_⟩
  · have hown : s.dispatcher = some dispatcher := by
      cases h.lent with
      | inl hnone => cases hnone.symm.trans hcapturer
      | inr hsame => exact hsame ▸ hcapturer
    exact ⟨hown, h.not_told hown⟩
  · intro k n waited t hcall hstep dispatcher hlt
    obtain ⟨htold, hwaits⟩ := h.awaited _ (List.mem_of_getElem? hcall) dispatcher hlt
    refine ⟨htold, fun hpending => ?_⟩
    rw [State.resolveShutdown, hcall] at hstep
    obtain ⟨hsettled, -⟩ := Option.ite_none_right_eq_some.mp hstep
    have := List.all_eq_true.mp hsettled dispatcher (hwaits hpending)
    exact of_decide_eq_true this hpending

end ErrorCore.PackageAssemblyController
