import ErrorCore.Capture.CaptureModeController.Atomicity
import ErrorCore.Capture.CaptureModeController.ManualChoice

/-!
# The phase and the mode

Without a failing callback both invariants hold: each transition is whole, and a
call that publishes its mode also resolves. So between transitions the phase
tells which mode is in force.
-/

namespace ErrorCore.CaptureModeController

open Transition.System

/-- The callback that the transition is in. -/
def ModeTransition.inFlight (job : ModeTransition) : Option Callback :=
  match job.progress with
  | .switching _ (callback :: _) => some callback
  | .published _ (callback :: _) => some callback
  | .rearming _ => some .rearmAfterAdaptiveGuard
  | _ => none

/-- No resource callback fails. -/
def CallbacksSucceed (s : State) : Action → Prop
  | .callback k outcome =>
      match s.transitions[k]? with
      | some job => (job.inFlight.any fun callback => callback.fails outcome) = false
      | none => True
  | _ => True

instance (s : State) (a : Action) : Decidable (CallbacksSucceed s a) :=
  match a with
  | .callback k outcome =>
      decidable_of_iff
        (∀ job ∈ s.transitions[k]?,
          (job.inFlight.any fun callback => callback.fails outcome) = false)
        (by cases hjob : s.transitions[k]? <;> simp [CallbacksSucceed, hjob])
  | .activate | .beginShutdown | .finishShutdown | .clock _ | .capture _ | .escalate _ | .timer
  | .setCaptureMode _ | .start _ => .isTrue trivial

/-- With the queue empty, the base phase means the base mode, the escalated and the pinned phase
the escalated mode, and the manual phase the mode of the last call, which is neither. -/
def PhaseAgrees (cfg : Config) (s : State) : Prop :=
  (∀ job ∈ s.transitions, job.stage = .settled) →
    (s.adaptivePhase = .base → s.modeState.captureMode = cfg.adaptiveCapture.base) ∧
    (s.adaptivePhase = .escalated ∨ s.adaptivePhase = .pinned →
      s.modeState.captureMode = cfg.adaptiveCapture.escalated) ∧
    (s.adaptivePhase = .manual →
      (lastResolved s.history).map (·.1) = some s.modeState.captureMode ∧
        s.modeState.captureMode ≠ cfg.adaptiveCapture.base ∧
        s.modeState.captureMode ≠ cfg.adaptiveCapture.escalated)

variable {cfg : Config} {s t : State} {a : Action}

theorem CallbacksSucceed.failsCleanly (h : CallbacksSucceed s a) : FailsCleanly cfg s a := by
  cases a with
  | callback k outcome =>
      simp only [CallbacksSucceed, FailsCleanly] at h ⊢
      cases hk : s.transitions[k]? with
      | none => trivial
      | some job =>
          simp only [hk] at h ⊢
          unfold FailureLeavesWhole
          unfold ModeTransition.inFlight at h
          split
          · next run callback rest hprogress =>
              simp only [hprogress, Option.any_some] at h
              simp [h]
          · next run callback rest hprogress =>
              simp only [hprogress, Option.any_some] at h
              simp [h]
          · trivial
  | _ => trivial

theorem CallbacksSucceed.publishedCallsResolve (h : CallbacksSucceed s a) :
    PublishedCallsResolve s a := by
  cases a with
  | callback k outcome =>
      simp only [CallbacksSucceed, PublishedCallsResolve] at h ⊢
      cases hk : s.transitions[k]? with
      | none => trivial
      | some job =>
          simp only [hk] at h ⊢
          unfold KeepsPublishedCall
          unfold ModeTransition.inFlight at h
          split
          · next run callback rest hprogress =>
              simp only [hprogress, Option.any_some] at h
              exact fun _ => h
          · next before hprogress =>
              simp only [hprogress, Option.any_some] at h
              exact fun _ => h
          · trivial
  | _ => trivial

theorem preserved_callbacksSucceed :
    (system cfg).Preserved CallbacksSucceed (fun s => WholeInv cfg s ∧ ChoiceInv cfg s) where
  init := by
    rintro s ⟨now, rfl⟩
    exact ⟨.initial now, .initial now⟩
  step _ _ _ h hguard hstep :=
    ⟨h.1.step hguard.failsCleanly hstep, h.2.step hguard.publishedCallsResolve hstep⟩

theorem phaseAgrees_of_inv (hwhole : WholeInv cfg s) (hchoice : ChoiceInv cfg s) :
    PhaseAgrees cfg s := by
  intro hsettled
  have hidle : ∀ (k : Nat) (job : ModeTransition), s.transitions[k]? = some job →
      job.stage ≠ .running := by
    intro k job hk
    rw [hsettled job (List.mem_of_getElem? hk)]
    simp
  have hsound := hwhole.turns.resting hidle
  refine ⟨hsound.base, hsound.escalated, fun hmanual => ?_⟩
  obtain ⟨call, hcall⟩ := (hchoice.turns.resting hidle).2 hmanual
  refine ⟨?_, hsound.manual hmanual⟩
  rw [hcall]
  rfl

/-- In every run without a failing resource callback the phase agrees with the mode whenever the
queue is empty. -/
theorem phase_agrees (cfg : Config) (now : Int) (run : List Action)
    (h : (system cfg).Guarded CallbacksSucceed (.initial cfg now) run) :
    (system cfg).Always (PhaseAgrees cfg) (.initial cfg now) run :=
  (preserved_callbacksSucceed.always ⟨.initial now, .initial now⟩ h).mono
    fun _ hs => phaseAgrees_of_inv hs.1 hs.2

/-- A capture escalates, the timer finds the rate exceeded and pins the controller, and a call for
the balanced mode lifts the pin. -/
def escalatedAndPinned : List Action :=
  [.activate, .capture .safe, .escalate 0, .start 0] ++
  List.replicate 11 (.callback 0 .returned) ++
  [.clock 200000, .timer, .start 1, .setCaptureMode (some "balanced"), .start 2] ++
  List.replicate 7 (.callback 2 .returned)

theorem escalatedAndPinned_agrees :
    (system adaptiveConfig).Guarded CallbacksSucceed (.initial adaptiveConfig 0)
        escalatedAndPinned ∧
      (system adaptiveConfig).Always (PhaseAgrees adaptiveConfig) (.initial adaptiveConfig 0)
        escalatedAndPinned :=
  ⟨by decide +kernel, phase_agrees _ _ _ (by decide +kernel)⟩

end ErrorCore.CaptureModeController
