import ErrorCore.Foundation.Indexed
import ErrorCore.Sdk

/-!
# One live instance

Whatever order the host initializes, shuts down, reloads and captures in, and
whatever fails on the way, at most one instance of `init` is active, and it is
the global one; a shutdown is performed once and nothing is captured behind its
final drain. The cached lookups of the middleware copies never differ from the
global, so that a request finds the active instance.
-/

namespace ErrorCore.Sdk

open CaptureModeController (SDKLifecycleState)

def rank : SDKLifecycleState → Nat
  | .created => 0
  | .active => 1
  | .shutting_down => 2
  | .shutdown => 3

namespace Instance

variable {x y : Instance} {throws transport : Bool}

def Pending : ShutdownStage → Prop
  | .settled _ => False
  | .modeController | .watchdog | .packageAssembly | .errorCapturer | .transportFlush
  | .transportShutdown => True

/-- The final drain has begun. -/
def Drains : ShutdownStage → Prop
  | .errorCapturer | .transportFlush | .transportShutdown => True
  | .modeController | .watchdog | .packageAssembly | .settled _ => False

/-- What the fields of an instance say about each other. -/
structure Staged (x : Instance) : Prop where
  performed : x.performed = if x.shutdownPromise = none then 0 else 1
  running : x.shutdownPromise = none ↔ x.state = .created ∨ x.state = .active
  settled : x.state = .shutdown ↔ ∃ rejected, x.shutdownPromise = some (.settled rejected)
  draining : ∀ stage, x.shutdownPromise = some stage → Drains stage →
    x.capturedBeforeDrain = some x.captured
  drained : ∀ n, x.capturedBeforeDrain = some n →
    x.captured = n ∧ x.captureAdmissionOpen = false ∧ x.shutdownPromise ≠ none

/-- The same instance, no earlier in its life. -/
structure Later (x y : Instance) : Prop where
  ofInit : y.ofInit = x.ofInit
  rank : rank x.state ≤ rank y.state

theorem Later.refl : x.Later x := ⟨rfl, Nat.le_refl _⟩

theorem Later.trans {z : Instance} (h : x.Later y) (h' : y.Later z) : x.Later z :=
  ⟨h'.ofInit.trans h.ofInit, Nat.le_trans h.rank h'.rank⟩

theorem Later.created (h : x.Later y) (hy : y.state = .created) : x.state = .created := by
  have hrank := h.rank
  rw [hy] at hrank
  cases hx : x.state with
  | created => rfl
  | active => rw [hx] at hrank; cases hrank
  | shutting_down => rw [hx] at hrank; cases hrank
  | shutdown => rw [hx] at hrank; cases hrank

theorem Later.active (h : x.Later y) (hy : y.state = .active) :
    x.state = .created ∨ x.state = .active := by
  have hrank := h.rank
  rw [hy] at hrank
  cases hx : x.state with
  | created => exact .inl rfl
  | active => exact .inr rfl
  | shutting_down => rw [hx] at hrank; exact absurd hrank (by decide)
  | shutdown => rw [hx] at hrank; exact absurd hrank (by decide)

theorem Later.shutdown (h : x.Later y) (hx : x.state = .shutdown) : y.state = .shutdown := by
  have hrank := h.rank
  rw [hx] at hrank
  cases hy : y.state with
  | created => rw [hy] at hrank; exact absurd hrank (by decide)
  | active => rw [hy] at hrank; exact absurd hrank (by decide)
  | shutting_down => rw [hy] at hrank; exact absurd hrank (by decide)
  | shutdown => rfl

theorem staged_create (ofInit : Bool) : (create ofInit).Staged where
  performed := rfl
  running := iff_of_true rfl (.inl rfl)
  settled := by
    constructor
    · intro hstate
      cases hstate
    · rintro ⟨rejected, hsettled⟩
      cases hsettled
  draining stage hstage := by cases hstage
  drained n hn := by cases hn

theorem later_activate : x.Later x.activate := by
  rw [activate]
  split
  · exact .refl
  · next hcreated =>
      rw [not_not] at hcreated
      exact ⟨rfl, by rw [hcreated]; exact Nat.zero_le _⟩

theorem Staged.activate (h : x.Staged) : x.activate.Staged := by
  rw [Instance.activate]
  split
  · exact h
  · next hcreated =>
      rw [not_not] at hcreated
      have hnone : x.shutdownPromise = none := h.running.mpr (.inl hcreated)
      refine ⟨h.performed, iff_of_true hnone (.inr rfl), ?_, h.draining, h.drained⟩
      constructor
      · intro hstate
        cases hstate
      · rintro ⟨rejected, hsettled⟩
        cases hnone.symm.trans hsettled

theorem later_shutdown : x.Later x.shutdown := by
  rw [shutdown]
  split
  · exact .refl
  · next hstate =>
      split
      · exact .refl
      · refine ⟨rfl, ?_⟩
        cases hx : x.state with
        | created => exact Nat.zero_le _
        | active => exact Nat.le_succ _
        | shutting_down => exact Nat.le_refl _
        | shutdown => exact absurd hx hstate

/-- After a shutdown has been asked for, the instance is neither new nor active. -/
theorem Staged.shutdown_state (h : x.Staged) :
    x.shutdown.state = .shutting_down ∨ x.shutdown.state = .shutdown := by
  rw [Instance.shutdown]
  split
  · next hstate => exact .inr hstate
  · split
    · next hpromise =>
        cases hx : x.state with
        | created => exact absurd (h.running.mpr (.inl hx)) hpromise
        | active => exact absurd (h.running.mpr (.inr hx)) hpromise
        | shutting_down => exact .inl rfl
        | shutdown => exact .inr rfl
    · exact .inl rfl

theorem Staged.shutdown (h : x.Staged) : x.shutdown.Staged := by
  rw [Instance.shutdown]
  split
  · exact h
  · split
    · exact h
    · next hpromise =>
        rw [not_not] at hpromise
        have hfirst : x.performed = 0 := by rw [h.performed, if_pos hpromise]
        refine ⟨?_, ?_, ?_, ?_, ?_⟩
        · rw [hfirst]
          rfl
        · constructor
          · intro hnone
            cases hnone
          · rintro (hstate | hstate)
            · cases hstate
            · cases hstate
        · constructor
          · intro hstate
            cases hstate
          · rintro ⟨rejected, hsettled⟩
            cases hsettled
        · intro stage hstage hdrains
          cases hstage
          exact hdrains.elim
        · intro n hn
          exact absurd hpromise (h.drained n hn).2.2

theorem later_captureError : x.Later x.captureError := by
  rw [captureError]
  split
  · exact ⟨rfl, Nat.le_refl _⟩
  · exact .refl

theorem Staged.captureError (h : x.Staged) : x.captureError.Staged := by
  rw [Instance.captureError]
  split
  · next hadmits =>
      have hbefore : x.capturedBeforeDrain = none := by
        cases hdrain : x.capturedBeforeDrain with
        | none => rfl
        | some n =>
            obtain ⟨-, hclosed, hpromise⟩ := h.drained n hdrain
            have hactive : x.state ≠ .active := fun hstate =>
              hpromise (h.running.mpr (.inr hstate))
            rw [admitsCapture, hclosed, Bool.and_false, Bool.or_false, decide_eq_true_iff] at hadmits
            exact absurd hadmits hactive
      refine ⟨h.performed, h.running, h.settled, ?_, ?_⟩
      · intro stage hstage hdrains
        have := h.draining stage hstage hdrains
        rw [hbefore] at this
        cases this
      · intro n hn
        exact absurd (hbefore.symm.trans hn) (Option.some_ne_none n).symm
  · exact h

/-- An instance that waits in `performShutdown`. -/
theorem Staged.waiting {stage : ShutdownStage} (h : x.Staged)
    (hstage : x.shutdownPromise = some stage) (hopen : Pending stage) :
    x.state = .shutting_down ∧ x.performed = 1 := by
  have hpromise : x.shutdownPromise ≠ none := by
    rw [hstage]
    exact Option.some_ne_none stage
  refine ⟨?_, by rw [h.performed, if_neg hpromise]⟩
  cases hx : x.state with
  | created => exact absurd (h.running.mpr (.inl hx)) hpromise
  | active => exact absurd (h.running.mpr (.inr hx)) hpromise
  | shutting_down => rfl
  | shutdown =>
      obtain ⟨rejected, hsettled⟩ := h.settled.mp hx
      obtain rfl := Option.some.inj (hstage.symm.trans hsettled)
      exact hopen.elim

theorem Staged.finish {stage : ShutdownStage} (h : x.Staged)
    (hstage : x.shutdownPromise = some stage) (hopen : Pending stage)
    (rejected : Bool) : (x.finish rejected).Staged where
  performed := (h.waiting hstage hopen).2
  running := by
    constructor
    · intro hnone
      cases hnone
    · rintro (hstate | hstate)
      · cases hstate
      · cases hstate
  settled := iff_of_true rfl ⟨rejected, rfl⟩
  draining later hlater hdrains := by
    cases hlater
    exact hdrains.elim
  drained n hn := ⟨(h.drained n hn).1, (h.drained n hn).2.1, Option.some_ne_none _⟩

theorem Staged.await {stage next : ShutdownStage} (h : x.Staged)
    (hstage : x.shutdownPromise = some stage) (hopen : Pending stage)
    (hnext : Pending next) (hdrain : Drains next → Drains stage) :
    (x.await next).Staged := by
  obtain ⟨hstate, hperformed⟩ := h.waiting hstage hopen
  refine ⟨hperformed, ?_, ?_, ?_, ?_⟩
  · constructor
    · intro hnone
      cases hnone
    · rintro (hother | hother)
      · cases hstate.symm.trans hother
      · cases hstate.symm.trans hother
  · constructor
    · intro hother
      cases hstate.symm.trans hother
    · rintro ⟨rejected, hsettled⟩
      obtain rfl := Option.some.inj hsettled
      exact hnext.elim
  · intro later hlater hdrains
    cases hlater
    exact h.draining stage hstage (hdrain hdrains)
  · intro n hn
    exact ⟨(h.drained n hn).1, (h.drained n hn).2.1, Option.some_ne_none _⟩

/-- The stretch of `performShutdown` that closes the admission and begins the final drain. -/
theorem Staged.beginDrain (h : x.Staged) (hstage : x.shutdownPromise = some .packageAssembly) :
    Staged { x.await .errorCapturer with
      captureAdmissionOpen := false, capturedBeforeDrain := some x.captured } := by
  obtain ⟨hstate, hperformed⟩ := h.waiting hstage trivial
  refine ⟨hperformed, ?_, ?_, fun _ _ _ => rfl, ?_⟩
  · constructor
    · intro hnone
      cases hnone
    · rintro (hother | hother)
      · cases hstate.symm.trans hother
      · cases hstate.symm.trans hother
  · constructor
    · intro hother
      cases hstate.symm.trans hother
    · rintro ⟨rejected, hsettled⟩
      cases hsettled
  · intro n hn
    exact ⟨Option.some.inj hn, rfl, Option.some_ne_none _⟩

/-- A stretch of `performShutdown` ends it, begins the final drain, or waits again. -/
inductive Stretch (x : Instance) : ShutdownStage → Instance → Prop
  | finish (stage : ShutdownStage) (rejected : Bool) : Stretch x stage (x.finish rejected)
  | beginDrain : Stretch x .packageAssembly
      { x.await .errorCapturer with
        captureAdmissionOpen := false, capturedBeforeDrain := some x.captured }
  | await (stage next : ShutdownStage) (hnext : Pending next)
      (hdrain : Drains next → Drains stage) : Stretch x stage (x.await next)

theorem Stretch.ite {stage : ShutdownStage} {z : Instance} (hfirst : Stretch x stage y)
    (hsecond : Stretch x stage z) : Stretch x stage (if throws then y else z) := by
  split
  · exact hfirst
  · exact hsecond

theorem advance_stretch (h : x.advance throws transport = some y) :
    ∃ stage, x.shutdownPromise = some stage ∧ Pending stage ∧ Stretch x stage y := by
  rw [advance] at h
  cases hpromise : x.shutdownPromise with
  | none => rw [hpromise] at h; cases h
  | some stage =>
      rw [hpromise] at h
      cases stage with
      | settled rejected => cases h
      | modeController =>
          obtain rfl := Option.some.inj h
          exact ⟨_, rfl, trivial, (Stretch.finish _ true).ite (.await _ _ trivial id)⟩
      | watchdog =>
          obtain rfl := Option.some.inj h
          exact ⟨_, rfl, trivial, (Stretch.finish _ true).ite (.await _ _ trivial id)⟩
      | packageAssembly =>
          obtain rfl := Option.some.inj h
          exact ⟨_, rfl, trivial, (Stretch.finish _ true).ite .beginDrain⟩
      | errorCapturer =>
          obtain rfl := Option.some.inj h
          have hdrained : Stretch x .errorCapturer
              (if transport then x.await .transportFlush else x.finish false) :=
            Stretch.ite (.await _ .transportFlush trivial id) (.finish _ false)
          exact ⟨_, rfl, trivial, (Stretch.finish _ true).ite hdrained⟩
      | transportFlush =>
          obtain rfl := Option.some.inj h
          exact ⟨_, rfl, trivial, (Stretch.finish _ true).ite (.await _ _ trivial id)⟩
      | transportShutdown =>
          obtain rfl := Option.some.inj h
          exact ⟨_, rfl, trivial, .finish _ throws⟩

theorem Staged.later_advance (h : x.Staged) (hstep : x.advance throws transport = some y) :
    x.Later y := by
  obtain ⟨stage, hstage, hopen, hstretch⟩ := advance_stretch hstep
  have hstate := (h.waiting hstage hopen).1
  cases hstretch with
  | finish stage rejected =>
      refine ⟨rfl, ?_⟩
      rw [hstate]
      exact Nat.le_succ _
  | beginDrain => exact ⟨rfl, Nat.le_refl _⟩
  | await stage next hnext hdrain => exact ⟨rfl, Nat.le_refl _⟩

theorem Staged.advance (h : x.Staged) (hstep : x.advance throws transport = some y) :
    y.Staged := by
  obtain ⟨stage, hstage, hopen, hstretch⟩ := advance_stretch hstep
  cases hstretch with
  | finish stage rejected => exact h.finish hstage hopen rejected
  | beginDrain => exact h.beginDrain hstage
  | await stage next hnext hdrain => exact h.await hstage hopen hnext hdrain

end Instance

/-! ## The tables -/

/-- A cache that holds the current generation holds the current instance. -/
structure ModuleCache.Fresh (cache : ModuleCache) (globals : Globals) : Prop where
  past : ∀ g, cache.cachedModuleGeneration = some g → g ≤ globals.generation
  current : cache.cachedModuleGeneration = some globals.generation →
    cache.cachedModuleInstance = globals.instance_

/-- What holds between the instances, the singleton and its readers. -/
structure Sound (s : State) : Prop where
  staged : ∀ x ∈ s.instances, x.Staged
  activated : ∀ x ∈ s.instances, x.ofInit = true → x.state ≠ .created
  /-- The active instance of `init` is the global one. -/
  owner : ∀ i x, s.instances[i]? = some x → x.ofInit = true → x.state = .active →
    s.globals.instance_ = some i
  fresh : ∀ cache ∈ s.caches, cache.Fresh s.globals
  /-- A shutdown of the module that has nothing to wait for is of an instance that is shut down. -/
  immediate : ∀ waiting ∈ s.pending, waiting.immediate = true →
    ∃ x, s.instances[waiting.instance_]? = some x ∧ x.state = .shutdown

theorem sound_initial : Sound .initial where
  staged := List.forall_mem_nil _
  activated := List.forall_mem_nil _
  owner i x hx := by cases hx
  fresh := List.forall_mem_nil _
  immediate := List.forall_mem_nil _

variable {s t : State} {i j : Nat} {x y : Instance} {f : Instance → Instance}
variable {globals : Globals} {cache : ModuleCache}

theorem ModuleCache.Fresh.setGlobalInstance (h : cache.Fresh globals) (new : Option Nat) :
    cache.Fresh (globals.setGlobalInstance new) where
  past g hg := Nat.le_succ_of_le (h.past g hg)
  current hg := absurd (h.past _ hg) (Nat.not_succ_le_self _)

/-- The lookup of a fresh cache is the lookup of the global. -/
theorem ModuleCache.Fresh.getModuleInstance (h : cache.Fresh globals) :
    (cache.getModuleInstance globals).1 = globals.instance_ ∧
      (cache.getModuleInstance globals).2.Fresh globals := by
  rw [ModuleCache.getModuleInstance]
  split
  · dsimp only
    split
    · next hstale =>
        have hnow : ModuleCache.Fresh
            { cache with
              cachedModuleGeneration := some globals.generation
              cachedModuleInstance := globals.instance_ } globals :=
          ⟨fun g hg => Nat.le_of_eq (Option.some.inj hg).symm, fun _ => rfl⟩
        split
        · exact ⟨rfl, hnow⟩
        · exact ⟨rfl, hnow⟩
    · next hcurrent =>
        rw [not_not] at hcurrent
        split
        · exact ⟨h.current hcurrent, h⟩
        · exact ⟨rfl, h⟩
  · exact ⟨rfl, h⟩

/-- A change of one instance that only moves it on. -/
theorem Sound.modifyInstance (h : Sound s)
    (hf : ∀ x, s.instances[i]? = some x → x.Later (f x) ∧ (f x).Staged) :
    Sound (s.modifyInstance i f) := by
  have hmem : ∀ y ∈ (s.modifyInstance i f).instances,
      ∃ x ∈ s.instances, x.Later y ∧ y.Staged := by
    intro y hy
    obtain ⟨j, hj⟩ := List.getElem?_of_mem hy
    cases Indexed.modify_cases hj with
    | inl hchanged =>
        obtain ⟨-, x, hx, rfl⟩ := hchanged
        exact ⟨x, List.mem_of_getElem? hx, hf x hx⟩
    | inr hsame =>
        have hold := List.mem_of_getElem? hsame.2
        exact ⟨y, hold, .refl, h.staged y hold⟩
  refine ⟨fun y hy => ?_, fun y hy hinit hcreated => ?_, ?_, h.fresh, ?_⟩
  · obtain ⟨x, -, -, hstaged⟩ := hmem y hy
    exact hstaged
  · obtain ⟨x, hx, hlater, -⟩ := hmem y hy
    exact h.activated x hx (hlater.ofInit ▸ hinit) (hlater.created hcreated)
  · intro j y hy hinit hactive
    cases Indexed.modify_cases hy with
    | inl hchanged =>
        obtain ⟨rfl, x, hx, rfl⟩ := hchanged
        have hlater := (hf x hx).1
        have hinit' : x.ofInit = true := hlater.ofInit ▸ hinit
        cases hlater.active hactive with
        | inl hcreated => exact absurd hcreated (h.activated x (List.mem_of_getElem? hx) hinit')
        | inr hbefore => exact h.owner j x hx hinit' hbefore
    | inr hsame => exact h.owner j y hsame.2 hinit hactive
  · intro waiting hwaiting himmediate
    obtain ⟨x, hx, hshut⟩ := h.immediate waiting hwaiting himmediate
    by_cases heq : i = waiting.instance_
    · subst heq
      refine ⟨f x, ?_, (hf x hx).1.shutdown hshut⟩
      show (s.instances.modify _ f)[_]? = _
      rw [List.getElem?_modify_eq, hx]
      rfl
    · refine ⟨x, ?_, hshut⟩
      show (s.instances.modify i f)[_]? = _
      rw [List.getElem?_modify_ne f _ heq, hx]

/-- The global is changed while the instance it names, if any, is not active. -/
theorem Sound.setGlobalInstance (h : Sound s) (new : Option Nat)
    (hquiet : ∀ i x, s.globals.instance_ = some i → s.instances[i]? = some x →
      x.state ≠ .active) : Sound (s.setGlobalInstance new) where
  staged := h.staged
  activated := h.activated
  owner i x hx hinit hactive :=
    absurd hactive (hquiet i x (h.owner i x hx hinit hactive) hx)
  fresh cache hcache := (h.fresh cache hcache).setGlobalInstance new
  immediate := h.immediate

theorem Sound.concat (h : Sound s) (hx : x.Staged)
    (hactivated : x.ofInit = true → x.state ≠ .created)
    (howner : x.ofInit = true → x.state = .active →
      s.globals.instance_ = some s.instances.length) :
    Sound { s with instances := s.instances ++ [x] } := by
  refine ⟨?_, ?_, ?_, h.fresh, ?_⟩
  · exact List.forall_mem_append.mpr ⟨h.staged, List.forall_mem_singleton.mpr hx⟩
  · exact List.forall_mem_append.mpr ⟨h.activated, List.forall_mem_singleton.mpr hactivated⟩
  · intro i y hy hinit hactive
    cases Indexed.concat_cases hy with
    | inl hold => exact h.owner i y hold hinit hactive
    | inr hnew =>
        obtain ⟨rfl, rfl⟩ := hnew
        exact howner hinit hactive
  · intro waiting hwaiting himmediate
    obtain ⟨z, hz, hshut⟩ := h.immediate waiting hwaiting himmediate
    exact ⟨z, Indexed.getElem?_concat_of_some hz, hshut⟩

/-! ## Steps -/

theorem Sound.activate (h : Sound s) : Sound (s.modifyInstance i Instance.activate) :=
  h.modifyInstance fun x hx =>
    ⟨Instance.later_activate, (h.staged x (List.mem_of_getElem? hx)).activate⟩

theorem Sound.shutdownInstance (h : Sound s) : Sound (s.modifyInstance i Instance.shutdown) :=
  h.modifyInstance fun x hx =>
    ⟨Instance.later_shutdown, (h.staged x (List.mem_of_getElem? hx)).shutdown⟩

theorem Sound.captureInstance (h : Sound s) :
    Sound (s.modifyInstance i Instance.captureError) :=
  h.modifyInstance fun x hx =>
    ⟨Instance.later_captureError, (h.staged x (List.mem_of_getElem? hx)).captureError⟩

/-- `init` makes an instance when the global names none. -/
theorem Sound.createAndActivate (h : Sound s) (hnone : s.globals.instance_ = none)
    (outcome : InitOutcome) : Sound (s.createAndActivate outcome) := by
  have hnew : Sound (s.setGlobalInstance (some s.instances.length)) :=
    h.setGlobalInstance _ fun i x hi => by cases hnone.symm.trans hi
  cases outcome with
  | createThrows => exact h
  | activateThrows =>
      have hx : (Instance.create true).shutdown.Staged := (Instance.staged_create true).shutdown
      have hgone : Sound ((s.setGlobalInstance (some s.instances.length)).setGlobalInstance none) :=
        hnew.setGlobalInstance none fun i x hi hx => by
          obtain rfl := Option.some.inj hi
          cases hx.symm.trans (List.getElem?_eq_none (Nat.le_refl _))
      have hadded := hgone.concat hx (fun _ hstate => by cases hstate)
        (fun _ hstate => by cases hstate)
      rw [State.createAndActivate]
      dsimp only [State.modifyInstance, State.setGlobalInstance] at hadded ⊢
      rw [Indexed.modify_concat]
      exact hadded
  | activates hot =>
      have hx : Instance.Staged { (Instance.create true).activate with hmrCleanup := hot } :=
        have hactive := (Instance.staged_create true).activate
        ⟨hactive.performed, hactive.running, hactive.settled, hactive.draining, hactive.drained⟩
      have hadded := hnew.concat hx (fun _ hstate => by cases hstate) (fun _ _ => rfl)
      rw [State.createAndActivate]
      dsimp only [State.modifyInstance, State.setGlobalInstance] at hadded ⊢
      rw [Indexed.modify_concat, Indexed.modify_concat]
      exact hadded

theorem Sound.setInitializing (h : Sound s) (value : Bool) : Sound (s.setInitializing value) :=
  ⟨h.staged, h.activated, h.owner, fun cache hcache =>
    ⟨(h.fresh cache hcache).past, (h.fresh cache hcache).current⟩, h.immediate⟩

theorem Sound.init {outcome : InitOutcome} (h : Sound s) (hstep : s.init outcome = some t) :
    Sound t := by
  rw [State.init] at hstep
  split at hstep
  · cases hstep
  · split at hstep
    · exact Option.some.inj hstep ▸ h
    · next hidle =>
        have hquiet : ∀ i x, s.globals.instance_ = some i → s.instances[i]? = some x →
            x.state ≠ .active := by
          intro i x hi hx hactive
          apply hidle
          refine ⟨by rw [hi]; exact Option.some_ne_none i, ?_⟩
          rw [State.globalActive, hi, Option.any_some, State.isActive, hx, Option.any_some]
          exact decide_eq_true hactive
        rw [← Option.some.inj hstep]
        apply Sound.setInitializing
        split
        · exact ((h.setGlobalInstance none hquiet).setInitializing true).createAndActivate rfl _
        · next hnone =>
            rw [not_not] at hnone
            exact (h.setInitializing true).createAndActivate hnone _

theorem Sound.wait {waiting : PendingShutdown} (h : Sound s)
    (himmediate : waiting.immediate = true →
      ∃ x, s.instances[waiting.instance_]? = some x ∧ x.state = .shutdown) :
    Sound { s with pending := s.pending ++ [waiting] } :=
  ⟨h.staged, h.activated, h.owner, h.fresh,
    List.forall_mem_append.mpr ⟨h.immediate, List.forall_mem_singleton.mpr himmediate⟩⟩

theorem Sound.shutdown (h : Sound s) : Sound s.shutdown := by
  rw [State.shutdown]
  split
  · exact h
  · next i hi =>
      apply h.shutdownInstance.wait
      intro himmediate
      obtain ⟨x, hx, hstate⟩ := (Option.any_eq_true _ _).mp himmediate
      refine ⟨x.shutdown, ?_, Instance.later_shutdown.shutdown (of_decide_eq_true hstate)⟩
      show (s.instances.modify i Instance.shutdown)[i]? = _
      rw [List.getElem?_modify_eq, hx]
      rfl

theorem Sound.dispose (h : Sound s) (hstep : s.dispose i = some t) : Sound t := by
  rw [State.dispose] at hstep
  obtain ⟨x, hx, hstep⟩ := Option.bind_eq_some_iff.mp hstep
  split at hstep
  · have hshut := h.shutdownInstance (i := i)
    rw [← Option.some.inj hstep]
    split
    · next hglobal =>
        apply hshut.setGlobalInstance none
        intro j y hj hy hactive
        obtain rfl : i = j := Option.some.inj (hglobal.symm.trans hj)
        cases Indexed.modify_cases hy with
        | inl hchanged =>
            obtain ⟨-, old, hold, rfl⟩ := hchanged
            cases (h.staged old (List.mem_of_getElem? hold)).shutdown_state with
            | inl hstate => cases hactive.symm.trans hstate
            | inr hstate => cases hactive.symm.trans hstate
        | inr hsame => exact hsame.1 rfl
    · exact hshut
  · cases hstep

/-- The end of the module's `shutdown`, once its instance has been shut down. -/
theorem Sound.reset {x : Instance} (h : Sound s) (hx : s.instances[i]? = some x)
    (hstate : x.state = .shutdown) (captureWarningEmitted initializing : Bool) :
    Sound (if s.globals.instance_ = some i then
      let s := s.setGlobalInstance none
      { s with globals := { s.globals with captureWarningEmitted, initializing } }
    else s) := by
  split
  · next hglobal =>
      have hclear : Sound (s.setGlobalInstance none) := by
        apply h.setGlobalInstance none
        intro j y hj hy hactive
        obtain rfl : i = j := Option.some.inj (hglobal.symm.trans hj)
        obtain rfl : x = y := Option.some.inj (hx.symm.trans hy)
        cases hactive.symm.trans hstate
      exact ⟨hclear.staged, hclear.activated, hclear.owner, fun cache hcache =>
        ⟨(hclear.fresh cache hcache).past, (hclear.fresh cache hcache).current⟩, hclear.immediate⟩
  · exact h

theorem Sound.resume {k : Nat} (h : Sound s) (hstep : s.resume k = some t) : Sound t := by
  rw [State.resume] at hstep
  obtain ⟨waiting, hwaiting, hstep⟩ := Option.bind_eq_some_iff.mp hstep
  obtain ⟨x, hx, hstep⟩ := Option.bind_eq_some_iff.mp hstep
  have hleft : Sound { s with pending := s.pending.eraseIdx k } :=
    ⟨h.staged, h.activated, h.owner, h.fresh, fun other hother =>
      h.immediate other (List.mem_of_mem_eraseIdx hother)⟩
  split at hstep
  · next himmediate =>
      obtain ⟨y, hy, hstate⟩ := h.immediate waiting (List.mem_of_getElem? hwaiting) himmediate
      exact Option.some.inj hstep ▸ hleft.reset hy hstate false false
  · split at hstep
    · exact Option.some.inj hstep ▸ hleft
    · next hsettled =>
        have hstate := (h.staged x (List.mem_of_getElem? hx)).settled.mpr ⟨false, hsettled⟩
        exact Option.some.inj hstep ▸ hleft.reset hx hstate false false
    · cases hstep

theorem Sound.getModuleInstance {c : Nat} {found : Option Nat} (h : Sound s)
    (hstep : s.getModuleInstance c = some (found, t)) :
    found = s.globals.instance_ ∧ Sound t := by
  rw [State.getModuleInstance] at hstep
  obtain ⟨cache, hcache, hstep⟩ := Option.bind_eq_some_iff.mp hstep
  obtain ⟨hfound, hfresh⟩ := (h.fresh cache (List.mem_of_getElem? hcache)).getModuleInstance
  obtain ⟨rfl, rfl⟩ := Prod.mk.inj (Option.some.inj hstep)
  refine ⟨hfound, h.staged, h.activated, h.owner, ?_, h.immediate⟩
  intro other hother
  cases List.mem_or_eq_of_mem_set hother with
  | inl hold => exact h.fresh other hold
  | inr hnew => exact hnew ▸ hfresh

theorem Sound.captureError (h : Sound s) : Sound s.captureError := by
  rw [State.captureError]
  split
  · exact ⟨h.staged, h.activated, h.owner, fun cache hcache =>
      ⟨(h.fresh cache hcache).past, (h.fresh cache hcache).current⟩, h.immediate⟩
  · exact h.captureInstance

/-- Every step keeps what holds between the instances, the singleton and its readers. -/
theorem Sound.step {a : Action} (h : Sound s) (hstep : step s a = some t) : Sound t := by
  cases a with
  | init outcome => exact h.init hstep
  | createSDK =>
      have hadded := h.concat (Instance.staged_create false)
        (fun hinit => by cases hinit) (fun hinit => by cases hinit)
      exact Option.some.inj hstep ▸ hadded
  | activate i => exact Option.some.inj hstep ▸ h.activate
  | shutdown => exact Option.some.inj hstep ▸ h.shutdown
  | shutdownInstance i => exact Option.some.inj hstep ▸ h.shutdownInstance
  | advance i throws transport =>
      obtain ⟨x, hx, hstep⟩ := Option.bind_eq_some_iff.mp hstep
      obtain ⟨y, hy, hstep⟩ := Option.bind_eq_some_iff.mp hstep
      have hstaged := h.staged x (List.mem_of_getElem? hx)
      have hmoved : Sound (s.modifyInstance i fun _ => y) := by
        apply h.modifyInstance
        intro other hother
        obtain rfl := Option.some.inj (hx.symm.trans hother)
        exact ⟨hstaged.later_advance hy, hstaged.advance hy⟩
      exact Option.some.inj hstep ▸ hmoved
  | resume k => exact h.resume hstep
  | dispose i => exact h.dispose hstep
  | captureError => exact Option.some.inj hstep ▸ h.captureError
  | captureInstance i => exact Option.some.inj hstep ▸ h.captureInstance
  | loadMiddleware moduleApi =>
      have hfresh : ModuleCache.Fresh ⟨moduleApi, none, none⟩ s.globals :=
        ⟨fun g hg => absurd hg.symm (Option.some_ne_none g), fun hg => absurd hg.symm
          (Option.some_ne_none _)⟩
      have hadded : Sound { s with caches := s.caches ++ [⟨moduleApi, none, none⟩] } :=
        ⟨h.staged, h.activated, h.owner,
          List.forall_mem_append.mpr ⟨h.fresh, List.forall_mem_singleton.mpr hfresh⟩,
          h.immediate⟩
      exact Option.some.inj hstep ▸ hadded
  | getModuleInstance c =>
      obtain ⟨⟨found, u⟩, hfound, rfl⟩ := Option.map_eq_some_iff.mp hstep
      exact (h.getModuleInstance hfound).2

theorem sound_preserved : system.Preserved (fun _ _ => True) Sound where
  init _ hs := hs ▸ sound_initial
  step _ _ _ hI _ hstep := hI.step hstep

/-! ## Runs -/

/-- An instance of `init` is active. -/
def State.Live (s : State) (i : Nat) : Prop :=
  ∃ x, s.instances[i]? = some x ∧ x.ofInit = true ∧ x.state = .active

/-- In every run at most one instance of `init` is active at a time, which is the global one; each
instance performs its shutdown at most once and captures nothing once its final drain has begun. -/
theorem one_live_instance (run : List Action) : system.Always
    (fun s => (∀ i, s.Live i → s.globals.instance_ = some i) ∧
      (∀ i j, s.Live i → s.Live j → i = j) ∧
      (∀ x ∈ s.instances, x.performed ≤ 1) ∧
      ∀ x ∈ s.instances, ∀ stage, x.shutdownPromise = some stage → Instance.Drains stage →
        x.admitsCapture = false ∧ x.capturedBeforeDrain = some x.captured) .initial run := by
  have hsound : system.Always Sound .initial run :=
    sound_preserved.always sound_initial Transition.System.guarded_true
  apply hsound.mono
  intro s h
  have hlive : ∀ i, s.Live i → s.globals.instance_ = some i := by
    rintro i ⟨x, hx, hinit, hactive⟩
    exact h.owner i x hx hinit hactive
  refine ⟨hlive, ?_, ?_, ?_⟩
  · intro i j hi hj
    exact Option.some.inj ((hlive i hi).symm.trans (hlive j hj))
  · intro x hx
    rw [(h.staged x hx).performed]
    split
    · exact Nat.zero_le 1
    · exact Nat.le_refl 1
  · intro x hx stage hstage hdrains
    have hstaged := h.staged x hx
    have hcount := hstaged.draining stage hstage hdrains
    obtain ⟨-, hclosed, hpromise⟩ := hstaged.drained _ hcount
    have hactive : x.state ≠ .active := fun hstate =>
      hpromise (hstaged.running.mpr (.inr hstate))
    refine ⟨?_, hcount⟩
    rw [Instance.admitsCapture, hclosed, Bool.and_false, Bool.or_false]
    exact decide_eq_false hactive

/-- In every run the cached lookup of each middleware copy is the global instance, and a request
gets an active instance whenever one of `init` is active. -/
theorem lookups_current (run : List Action) : system.Always
    (fun s => ∀ c, (∀ found t, s.getModuleInstance c = some (found, t) →
        found = s.globals.instance_) ∧
      ∀ passed found i, s.resolveLiveSDK passed c = some found → s.Live i →
        found.any s.isActive = true) .initial run := by
  have hsound : system.Always Sound .initial run :=
    sound_preserved.always sound_initial Transition.System.guarded_true
  apply hsound.mono
  intro s h c
  refine ⟨fun found t hfound => (h.getModuleInstance hfound).1, ?_⟩
  rintro passed found i hresolve ⟨x, hx, hinit, hactive⟩
  have hglobal := h.owner i x hx hinit hactive
  have hlive : s.isActive i = true := by
    rw [State.isActive, hx]
    exact decide_eq_true hactive
  rw [State.resolveLiveSDK] at hresolve
  split at hresolve
  · next hpassed => exact Option.some.inj hresolve ▸ hpassed
  · obtain ⟨⟨module_, t⟩, hmodule, hresolve⟩ := Option.bind_eq_some_iff.mp hresolve
    obtain rfl : module_ = some i := (h.getModuleInstance hmodule).1.trans hglobal
    have hmodule_live : (some i).any s.isActive = true := hlive
    dsimp only at hresolve
    rw [if_pos hmodule_live] at hresolve
    exact Option.some.inj hresolve ▸ hlive

end ErrorCore.Sdk
