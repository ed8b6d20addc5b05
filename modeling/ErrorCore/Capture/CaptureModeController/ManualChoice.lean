import ErrorCore.Capture.CaptureModeController.Generations

/-!
# The last manual choice

A call of `setCaptureMode` raises the generation, and an adaptive transition goes
ahead only in the generation it was admitted in. So every adaptive transition
that publishes its mode was admitted after all calls that have resolved before.
That the mode in force is the one of the last call that resolved needs more: a
call that is rejected after its mode was published leaves that mode in force.
-/

namespace ErrorCore.CaptureModeController

open PromiseChain Transition.System

/-- The mode and the number of the last call that resolved. -/
def lastResolved : List Event → Option (CaptureMode × Nat)
  | [] => none
  | .resolved mode admitted :: _ => some (mode, admitted)
  | _ :: history => lastResolved history

/-- An adaptive transition whose mode was published after a call had resolved was also admitted
after it. -/
def Event.Supersedes (newer older : Event) : Prop :=
  match newer, older with
  | .published intent admitted, .resolved _ call => intent.isManual = true ∨ call < admitted
  | _, _ => True

instance (newer older : Event) : Decidable (newer.Supersedes older) := by
  unfold Event.Supersedes
  split <;> infer_instance

/-- With the queue empty and no adaptive work since the last call that resolved, its mode is in
force. -/
def LastCallInForce (s : State) : Prop :=
  (∀ job ∈ s.transitions, job.stage = .settled) →
    match lastResolved s.history with
    | some (mode, call) =>
        (∀ job ∈ s.transitions, job.intent.isManual = false → job.admitted < call) →
          s.modeState.captureMode = mode
    | none => True

instance (s : State) : Decidable (LastCallInForce s) := by
  unfold LastCallInForce
  split <;> infer_instance

structure LastChoiceWins (s : State) : Prop where
  superseded : s.history.Pairwise Event.Supersedes
  in_force : LastCallInForce s
  serial : (s.transitions.filter fun job => job.stage = .running).length ≤ 1

instance (s : State) : Decidable (LastChoiceWins s) :=
  decidable_of_iff
    (s.history.Pairwise Event.Supersedes ∧ LastCallInForce s ∧
      (s.transitions.filter fun job => job.stage = .running).length ≤ 1)
    ⟨fun h => ⟨h.1, h.2.1, h.2.2⟩, fun h => ⟨h.superseded, h.in_force, h.serial⟩⟩

/-- A call whose mode is published does not fail any more. -/
def KeepsPublishedCall (job : ModeTransition) (outcome : Outcome) : Prop :=
  match job.progress with
  | .published _ (callback :: _) =>
      job.intent.isManual = true → callback.fails outcome = false
  | .rearming _ =>
      job.intent.isManual = true → Callback.rearmAfterAdaptiveGuard.fails outcome = false
  | _ => True

instance (job : ModeTransition) (outcome : Outcome) :
    Decidable (KeepsPublishedCall job outcome) :=
  match hprogress : job.progress with
  | .published _ (callback :: _) =>
      decidable_of_iff (job.intent.isManual = true → callback.fails outcome = false)
        (by simp only [KeepsPublishedCall, hprogress])
  | .rearming _ =>
      decidable_of_iff
        (job.intent.isManual = true → Callback.rearmAfterAdaptiveGuard.fails outcome = false)
        (by simp only [KeepsPublishedCall, hprogress])
  | .published _ [] | .queued | .switching _ _ | .settled _ =>
      .isTrue (by simp only [KeepsPublishedCall, hprogress])

def PublishedCallsResolve (s : State) : Action → Prop
  | .callback k outcome =>
      match s.transitions[k]? with
      | some job => KeepsPublishedCall job outcome
      | none => True
  | _ => True

instance (s : State) (a : Action) : Decidable (PublishedCallsResolve s a) :=
  match a with
  | .callback k outcome =>
      decidable_of_iff (∀ job ∈ s.transitions[k]?, KeepsPublishedCall job outcome)
        (by cases hjob : s.transitions[k]? <;> simp [PublishedCallsResolve, hjob])
  | .activate | .beginShutdown | .finishShutdown | .clock _ | .capture _ | .escalate _ | .timer
  | .setCaptureMode _ | .start _ => .isTrue trivial

variable {cfg : Config} {s t u v : State} {a : Action} {k : Nat} {job : ModeTransition}
variable {progress : Progress} {before : Snapshot} {run : Switch} {callbacks : List Callback}
variable {mode : CaptureMode} {event : Event} {history : List Event}
variable {transitions : List ModeTransition} {admitted : Nat} {intent : Intent}

/-! ## The chronicle -/

/-- The mode that the events of a run leave in force. -/
def modeAfter (initial : CaptureMode) : List Event → CaptureMode
  | [] => initial
  | .published intent _ :: _ => intent.target
  | _ :: history => modeAfter initial history

/-- A call resolved while its mode was in force. -/
def Consistent (initial : CaptureMode) : List Event → Prop
  | [] => True
  | .resolved mode _ :: history => mode = modeAfter initial history ∧ Consistent initial history
  | _ :: history => Consistent initial history

/-- The event belongs to one of the transitions. -/
def Event.Recorded (transitions : List ModeTransition) : Event → Prop
  | .published intent admitted =>
      ∃ job ∈ transitions, job.intent = intent ∧ job.admitted = admitted
  | .resolved _ admitted =>
      ∃ job ∈ transitions, job.intent.isManual = true ∧ job.admitted = admitted
  | _ => True

/-- The events since the last call resolved publish adaptive modes only. -/
def NoCallPublished : List Event → Prop
  | [] => True
  | .resolved _ _ :: _ => True
  | .published intent _ :: history => intent.isManual = false ∧ NoCallPublished history
  | _ :: history => NoCallPublished history

/-- All calls that have resolved are older than the number. -/
def CallsBefore (admitted : Nat) (history : List Event) : Prop :=
  ∀ event ∈ history, ∀ mode call, event = .resolved mode call → call < admitted

structure Chronicle (initial mode : CaptureMode) (transitions : List ModeTransition)
    (history : List Event) : Prop where
  mode_eq : mode = modeAfter initial history
  consistent : Consistent initial history
  superseded : history.Pairwise Event.Supersedes
  recorded : ∀ event ∈ history, event.Recorded transitions

/-- The event is neither a publication nor a call that resolved. -/
def Event.Quiet : Event → Prop
  | .switched _ _ => True
  | .unpinned _ => True
  | _ => False

theorem Chronicle.quiet {initial : CaptureMode}
    (h : Chronicle initial mode transitions history) (hquiet : event.Quiet) :
    Chronicle initial mode transitions (event :: history) := by
  cases event with
  | published => exact hquiet.elim
  | resolved => exact hquiet.elim
  | switched at_ pinning =>
      refine ⟨h.mode_eq, h.consistent, ?_, ?_⟩
      · exact List.pairwise_cons.mpr ⟨fun _ _ => trivial, h.superseded⟩
      · exact List.forall_mem_cons.mpr ⟨trivial, h.recorded⟩
  | unpinned at_ =>
      refine ⟨h.mode_eq, h.consistent, ?_, ?_⟩
      · exact List.pairwise_cons.mpr ⟨fun _ _ => trivial, h.superseded⟩
      · exact List.forall_mem_cons.mpr ⟨trivial, h.recorded⟩

theorem Chronicle.published {initial : CaptureMode}
    (h : Chronicle initial mode transitions history) (hjob : job ∈ transitions)
    (hcalls : job.intent.isManual = false → CallsBefore job.admitted history) :
    Chronicle initial job.intent.target transitions
      (.published job.intent job.admitted :: history) := by
  refine ⟨rfl, h.consistent, ?_, ?_⟩
  · refine List.pairwise_cons.mpr ⟨fun older holder => ?_, h.superseded⟩
    cases older with
    | resolved mode call =>
        cases hmanual : job.intent.isManual with
        | true => exact .inl hmanual
        | false => exact .inr (hcalls hmanual _ holder mode call rfl)
    | _ => trivial
  · exact List.forall_mem_cons.mpr ⟨⟨job, hjob, rfl, rfl⟩, h.recorded⟩

theorem Chronicle.resolved {initial : CaptureMode}
    (h : Chronicle initial mode transitions history) (hjob : job ∈ transitions)
    (hmanual : job.intent.isManual = true) :
    Chronicle initial mode transitions (.resolved mode job.admitted :: history) := by
  refine ⟨h.mode_eq, ⟨h.mode_eq, h.consistent⟩, ?_, ?_⟩
  · exact List.pairwise_cons.mpr ⟨fun _ _ => trivial, h.superseded⟩
  · exact List.forall_mem_cons.mpr ⟨⟨job, hjob, hmanual, rfl⟩, h.recorded⟩

theorem Event.Recorded.mono {transitions' : List ModeTransition} (h : event.Recorded transitions)
    (hsub : ∀ job ∈ transitions, ∃ job' ∈ transitions', job'.intent = job.intent ∧
      job'.admitted = job.admitted) : event.Recorded transitions' := by
  cases event with
  | published intent admitted =>
      obtain ⟨job, hjob, hintent, hadmitted⟩ := h
      obtain ⟨job', hjob', hintent', hadmitted'⟩ := hsub job hjob
      exact ⟨job', hjob', hintent'.trans hintent, hadmitted'.trans hadmitted⟩
  | resolved mode admitted =>
      obtain ⟨job, hjob, hmanual, hadmitted⟩ := h
      obtain ⟨job', hjob', hintent', hadmitted'⟩ := hsub job hjob
      exact ⟨job', hjob', by rw [hintent']; exact hmanual, hadmitted'.trans hadmitted⟩
  | _ => trivial

theorem Chronicle.mono {initial : CaptureMode} {transitions' : List ModeTransition}
    (h : Chronicle initial mode transitions history)
    (hsub : ∀ job ∈ transitions, ∃ job' ∈ transitions', job'.intent = job.intent ∧
      job'.admitted = job.admitted) : Chronicle initial mode transitions' history :=
  ⟨h.mode_eq, h.consistent, h.superseded, fun event hevent => (h.recorded event hevent).mono hsub⟩

theorem mem_of_lastResolved {call : Nat} (h : lastResolved history = some (mode, call)) :
    Event.resolved mode call ∈ history := by
  induction history with
  | nil => contradiction
  | cons event history ih =>
      cases event with
      | resolved mode' call' =>
          simp only [lastResolved, Option.some.injEq, Prod.mk.injEq] at h
          rw [h.1, h.2]
          exact List.mem_cons_self
      | _ => exact List.mem_cons_of_mem _ (ih h)

/-- Between a call that resolved and the end of the chronicle no mode was published, so the mode
in force is the one of the call. -/
theorem Chronicle.mode_of_lastResolved {initial : CaptureMode} {call : Nat}
    (hconsistent : Consistent initial history) (hsuperseded : history.Pairwise Event.Supersedes)
    (hadaptive : NoCallPublished history)
    (hrecent : ∀ event ∈ history, ∀ intent admitted, event = .published intent admitted →
      intent.isManual = false → admitted < call)
    (hlast : lastResolved history = some (mode, call)) : modeAfter initial history = mode := by
  induction history with
  | nil => contradiction
  | cons event history ih =>
      have hrest := (List.pairwise_cons.mp hsuperseded).2
      have hrecent' : ∀ event ∈ history, ∀ intent admitted, event = .published intent admitted →
          intent.isManual = false → admitted < call :=
        fun e he => hrecent e (List.mem_cons_of_mem _ he)
      cases event with
      | resolved mode' call' =>
          simp only [lastResolved, Option.some.injEq, Prod.mk.injEq] at hlast
          rw [← hlast.1]
          exact hconsistent.1.symm
      | published intent admitted =>
          -- An adaptive publication after the call was admitted after it as well.
          have hlt := hrecent _ List.mem_cons_self intent admitted rfl hadaptive.1
          have hcall : Event.resolved mode call ∈ history := mem_of_lastResolved hlast
          have hsup := (List.pairwise_cons.mp hsuperseded).1 _ hcall
          rcases hsup with hmanual | hgt
          · simp [hadaptive.1] at hmanual
          · omega
      | switched => exact ih hconsistent hrest hadaptive hrecent' hlast
      | unpinned => exact ih hconsistent hrest hadaptive hrecent' hlast

/-! ## The invariant -/

/-- In the manual phase the mode is the one of the last call that resolved. -/
def ManualChosen (s : State) : Prop :=
  s.adaptivePhase = .manual →
    ∃ call, lastResolved s.history = some (s.modeState.captureMode, call)

/-- Until a transition publishes its mode, the last choice stands; an adaptive one goes on only
after the calls that have resolved. -/
def RunsChosen (s : State) (job : ModeTransition) : Prop :=
  match job.progress with
  | .switching _ _ =>
      NoCallPublished s.history ∧ ManualChosen s ∧
        (job.intent.isManual = false → CallsBefore job.admitted s.history)
  | .published _ _ => job.intent.isManual = false → NoCallPublished s.history
  | .rearming _ => job.intent.isManual = false → NoCallPublished s.history
  | _ => True

structure ChoiceInv (cfg : Config) (s : State) : Prop where
  inv : Inv cfg s
  admitted : Admitted cfg s
  chronicle : Chronicle cfg.captureMode s.modeState.captureMode s.transitions s.history
  turns : Turns ModeTransition.stage s.transitions (RunsChosen s)
    (NoCallPublished s.history ∧ ManualChosen s)

def LeavesChosen (u : State) (job : ModeTransition) (progress : Progress) : Prop :=
  match progress with
  | .settled _ => NoCallPublished u.history ∧ ManualChosen u
  | _ => RunsChosen u { job with progress := progress }

/-- What a move has to leave to the chronicle. -/
structure Chosen (cfg : Config) (s u : State) (job : ModeTransition) (progress : Progress) :
    Prop where
  leaves : LeavesChosen u job progress
  chronicle : Chronicle cfg.captureMode u.modeState.captureMode s.transitions u.history

theorem reconcile_history :
    (s.reconcileManualAdaptiveState cfg mode).history = s.history ∨
      (s.reconcileManualAdaptiveState cfg mode).history = .unpinned s.clock :: s.history := by
  unfold State.reconcileManualAdaptiveState
  split
  · exact .inl rfl
  · simp only
    split <;> split <;> first | exact .inl rfl | exact .inr rfl

theorem Chronicle.reconcile
    (h : Chronicle cfg.captureMode s.modeState.captureMode transitions s.history)
    (mode : CaptureMode) :
    Chronicle cfg.captureMode (s.reconcileManualAdaptiveState cfg mode).modeState.captureMode
      transitions (s.reconcileManualAdaptiveState cfg mode).history := by
  rw [reconcile_modeState]
  rcases @reconcile_history cfg s mode with hsame | hunpinned
  · rw [hsame]
    exact h
  · rw [hunpinned]
    exact h.quiet trivial

theorem Recorders.chosen (recorders : Recorders s job run callbacks v progress)
    (hjob : job ∈ transitions) (htransitions : t.transitions = transitions)
    (proper : run.Proper cfg job.intent)
    (hchronicle : Chronicle cfg.captureMode s.modeState.captureMode transitions s.history)
    (hadaptive : NoCallPublished s.history) (hchosen : ManualChosen s)
    (hcalls : job.intent.isManual = false → CallsBefore job.admitted s.history) :
    Chosen cfg t v job progress := by
  cases recorders with
  | switching => exact ⟨⟨hadaptive, hchosen, hcalls⟩, htransitions ▸ hchronicle⟩
  | published =>
      refine ⟨fun hmanual => ⟨hmanual, hadaptive⟩, ?_⟩
      have htarget : run.next.captureMode = job.intent.target :=
        resolveModeState_captureMode proper.next
      show Chronicle cfg.captureMode run.next.captureMode t.transitions
        (.published job.intent job.admitted :: s.history)
      rw [htransitions, htarget]
      exact hchronicle.published hjob hcalls

theorem Finishes.chosen {now : Int} (finishes : Finishes cfg s job now before v progress)
    (hjob : job ∈ transitions) (htransitions : t.transitions = transitions)
    (hmode : s.modeState.captureMode = job.intent.target)
    (hchronicle : Chronicle cfg.captureMode s.modeState.captureMode transitions s.history)
    (hadaptive : job.intent.isManual = false → NoCallPublished s.history) :
    Chosen cfg t v job progress := by
  subst htransitions
  cases finishes with
  | rearmManual intent rearms =>
      refine ⟨fun hmanual => ?_, hchronicle.reconcile _⟩
      simp only [intent, Intent.isManual] at hmanual
      contradiction
  | @manual mode intent =>
      have htarget : (s.reconcileManualAdaptiveState cfg mode).modeState.captureMode = mode := by
        rw [reconcile_modeState, hmode, intent]
        rfl
      refine ⟨⟨trivial, fun _ => ⟨job.admitted, ?_⟩⟩, ?_⟩
      · show some (mode, job.admitted) =
          some ((s.reconcileManualAdaptiveState cfg mode).modeState.captureMode, job.admitted)
        rw [htarget]
      · have hreconciled := hchronicle.reconcile mode
        rw [htarget] at hreconciled
        show Chronicle cfg.captureMode
          (s.reconcileManualAdaptiveState cfg mode).modeState.captureMode t.transitions _
        rw [htarget]
        exact hreconciled.resolved hjob (by rw [intent]; rfl)
  | escalated intent =>
      exact ⟨fun hmanual => hadaptive hmanual, hchronicle.quiet trivial⟩
  | deescalated intent _ =>
      refine ⟨⟨hadaptive (by rw [intent]; rfl), fun hphase => ?_⟩, hchronicle.quiet trivial⟩
      simp at hphase

theorem PhaseDuring.ne_manual {phase : AdaptiveCapturePhase}
    (h : PhaseDuring cfg phase intent before) (hadaptive : intent.isManual = false) :
    phase ≠ .manual := by
  cases intent with
  | manual => contradiction
  | adaptive =>
      rcases h.2 with ⟨_, _, _, hphase | hphase⟩ | ⟨_, _, _, _, hphase⟩ <;> simp [hphase]

theorem Begins.callsBefore (begins : Begins cfg s job u) (h : ChoiceInv cfg s)
    (hjob : job ∈ s.transitions) (hadaptive : job.intent.isManual = false) :
    CallsBefore job.admitted s.history := by
  have hcurrent : ∀ target generation, job.intent = .adaptive target generation →
      generation = s.adaptiveIntentGeneration → CallsBefore job.admitted s.history := by
    intro target generation intent hgeneration event hevent mode call heq
    obtain ⟨other, hother, hmanual, hadmitted⟩ := heq ▸ h.chronicle.recorded event hevent
    rw [← hadmitted]
    exact (h.admitted.current job hjob target generation intent).2.2 hgeneration other hother
      hmanual
  cases begins with
  | manual intent =>
      rw [intent] at hadaptive
      contradiction
  | adaptive intent generation_eq => exact hcurrent _ _ intent generation_eq
  | pinned intent generation_eq => exact hcurrent _ _ intent generation_eq

theorem Begins.history_eq (begins : Begins cfg s job u) : u.history = s.history := by
  cases begins <;> rfl

/-- The start of a transition keeps a manual choice, or leaves the manual phase. -/
theorem Begins.manualChosen (begins : Begins cfg s job u) (h : ManualChosen s) :
    ManualChosen u := by
  cases begins with
  | manual => exact h
  | adaptive => exact h
  | pinned => intro hphase; simp [State.pin] at hphase

theorem ChoiceInv.chosen_of_queued (h : ChoiceInv cfg s) (hk : s.transitions[k]? = some job)
    (hturn : s.HasTurn job) (queued : job.progress = .queued) :
    NoCallPublished s.history ∧ ManualChosen s := by
  have hwait : job.stage = .waiting := by rw [ModeTransition.stage, queued]; rfl
  rcases hturn with hrun | ⟨_, released⟩
  · have hstage : job.stage = .running := hrun
    simp [hwait] at hstage
  · exact h.turns.rest_of_released h.inv.serial hk hwait released

theorem Moves.chosen (moves : Moves cfg s k job a u progress) (h : ChoiceInv cfg s)
    (hk : s.transitions[k]? = some job) (hturn : s.HasTurn job)
    (hguard : PublishedCallsResolve s a) : Chosen cfg s u job progress := by
  have hjob := List.mem_of_getElem? hk
  have hwell := h.inv.runsWell hk hturn
  have hruns : job.stage = .running → RunsChosen s job := h.turns.running k job hk
  cases moves with
  | cancelled queued => exact ⟨h.chosen_of_queued hk hturn queued, h.chronicle⟩
  | refused queued =>
      have hrest := h.chosen_of_queued hk hturn queued
      refine ⟨⟨hrest.1, fun hphase => ?_⟩, h.chronicle⟩
      simp [State.pin] at hphase
  | failedStart queued begins =>
      have hrest := h.chosen_of_queued hk hturn queued
      have hbegun := begins.begun h.inv.fields
      refine ⟨⟨?_, begins.manualChosen hrest.2⟩, ?_⟩
      · rw [begins.history_eq]
        exact hrest.1
      · rw [begins.history_eq, hbegun.modeState]
        exact h.chronicle
  | unchangedManual queued intent unchanged finishes =>
      have hrest := h.chosen_of_queued hk hturn queued
      refine finishes.chosen hjob rfl ?_ h.chronicle fun _ => hrest.1
      rw [State.captureMode_eq_of_unchanged unchanged, intent]
      rfl
  | unchangedAdaptive _ intent begins unchanged =>
      exact (begins.not_unchanged h.inv.fields intent unchanged).elim
  | begun queued begins changed recorders =>
      have hrest := h.chosen_of_queued hk hturn queued
      have hbegun := begins.begun h.inv.fields
      refine recorders.chosen hjob rfl (begins.proper h.inv.fields changed _ _) ?_ ?_
        (begins.manualChosen hrest.2) ?_
      · rw [begins.history_eq, hbegun.modeState]
        exact h.chronicle
      · rw [begins.history_eq]
        exact hrest.1
      · rw [begins.history_eq]
        exact begins.callsBefore h hjob
  | recorderFailed switching _ =>
      have hrun := hruns (by rw [ModeTransition.stage, switching]; rfl)
      simp only [RunsChosen, switching] at hrun
      exact ⟨⟨hrun.1, hrun.2.1⟩, h.chronicle⟩
  | recorderReturned switching _ recorders =>
      have hrun := hruns (by rw [ModeTransition.stage, switching]; rfl)
      simp only [RunsChosen, switching] at hrun
      simp only [RunsWell, switching] at hwell
      exact recorders.chosen hjob rfl hwell.1 h.chronicle hrun.1 hrun.2.1 hrun.2.2
  | resourceFailed published fails =>
      have hrun := hruns (by rw [ModeTransition.stage, published]; rfl)
      simp only [RunsChosen, published] at hrun
      simp only [RunsWell, published] at hwell
      simp only [PublishedCallsResolve, hk, KeepsPublishedCall, published] at hguard
      have hadaptive : job.intent.isManual = false := by
        cases hmanual : job.intent.isManual with
        | false => rfl
        | true => simp [fails] at hguard; simp [hguard] at hmanual
      refine ⟨⟨hrun hadaptive, fun hphase => ?_⟩, h.chronicle⟩
      exact absurd hphase (hwell.2.2.ne_manual hadaptive)
  | resourceReturned published _ =>
      have hrun := hruns (by rw [ModeTransition.stage, published]; rfl)
      simp only [RunsChosen, published] at hrun
      exact ⟨hrun, h.chronicle⟩
  | completed published _ finishes =>
      have hrun := hruns (by rw [ModeTransition.stage, published]; rfl)
      simp only [RunsChosen, published] at hrun
      simp only [RunsWell, published] at hwell
      refine finishes.chosen hjob rfl ?_ h.chronicle hrun
      show s.modeState.captureMode = job.intent.target
      rw [hwell.2.1]
      exact resolveModeState_captureMode hwell.1.next
  | rearmFailed rearming fails =>
      have hrun := hruns (by rw [ModeTransition.stage, rearming]; rfl)
      simp only [RunsChosen, rearming] at hrun
      simp only [RunsWell, rearming] at hwell
      simp only [PublishedCallsResolve, hk, KeepsPublishedCall, rearming] at hguard
      have hadaptive : job.intent.isManual = false := by
        cases hmanual : job.intent.isManual with
        | false => rfl
        | true => simp [fails] at hguard; simp [hguard] at hmanual
      refine ⟨⟨hrun hadaptive, fun hphase => ?_⟩, h.chronicle⟩
      rcases hwell.phase with heq | ⟨heq, _⟩ <;> simp [hphase] at heq
  | rearmed rearming =>
      have hrun := hruns (by rw [ModeTransition.stage, rearming]; rfl)
      simp only [RunsChosen, rearming] at hrun
      simp only [RunsWell, rearming] at hwell
      have hphase : s.adaptivePhase ≠ .manual := by
        rcases hwell.phase with heq | ⟨heq, _⟩ <;> simp [heq]
      unfold State.recordResolved
      cases hintent : job.intent with
      | manual mode =>
          have hmode : s.modeState.captureMode = mode := by
            have htarget := hwell.target
            rw [hintent] at htarget
            exact hwell.captureMode.trans htarget.symm
          refine ⟨⟨trivial, fun heq => absurd heq hphase⟩, ?_⟩
          show Chronicle cfg.captureMode s.modeState.captureMode s.transitions _
          have hchronicle := h.chronicle
          rw [hmode] at hchronicle ⊢
          exact hchronicle.resolved hjob (by rw [hintent]; rfl)
      | adaptive target generation =>
          exact ⟨⟨hrun (by rw [hintent]; rfl), fun heq => absurd heq hphase⟩, h.chronicle⟩

theorem RunsChosen.congr (h : RunsChosen s job) (hhistory : t.history = s.history)
    (hmode : t.modeState = s.modeState) (hphase : t.adaptivePhase = s.adaptivePhase) :
    RunsChosen t job := by
  unfold RunsChosen ManualChosen at h ⊢
  rw [hhistory, hmode, hphase]
  exact h

theorem LeavesChosen.running (h : LeavesChosen u job progress)
    (hrun : ({ job with progress := progress } : ModeTransition).stage = .running) :
    RunsChosen (u.setProgress k progress) { job with progress := progress } := by
  unfold ModeTransition.stage at hrun
  cases progress with
  | queued => contradiction
  | settled => contradiction
  | switching => exact h
  | published => exact h
  | rearming => exact h

theorem LeavesChosen.resting (h : LeavesChosen u job progress)
    (moves : Moves cfg s k job a u progress)
    (hidle : ({ job with progress := progress } : ModeTransition).stage ≠ .running) :
    NoCallPublished u.history ∧ ManualChosen u := by
  have hne := moves.progress_ne_queued
  unfold ModeTransition.stage at hidle
  cases progress with
  | settled => exact h
  | queued => simp [Progress.stage] at hne
  | switching => simp [Progress.stage] at hidle
  | published => simp [Progress.stage] at hidle
  | rearming => simp [Progress.stage] at hidle

theorem Enqueues.subset (h : Enqueues s t) : ∀ job ∈ s.transitions, job ∈ t.transitions := by
  intro job hjob
  rcases h with ⟨htransitions, _⟩ | ⟨intent, admitted, htransitions, _⟩
  · rw [htransitions]
    exact hjob
  · rw [htransitions]
    exact List.mem_append_left _ hjob

theorem ChoiceInv.step (h : ChoiceInv cfg s) (hguard : PublishedCallsResolve s a)
    (hstep : s.step cfg a = some t) : ChoiceInv cfg t := by
  refine ⟨h.inv.step hstep, h.admitted.step hstep, ?_, ?_⟩
  · rcases step_cases hstep with ⟨k, job, u, progress, hk, hturn, moves, rfl⟩ | henv
    · refine (moves.chosen h hk hturn hguard).chronicle.mono fun other hother => ?_
      rw [moves.transitions_eq hk]
      by_cases hsame : other = job
      · subst hsame
        exact ⟨_, List.mem_set (List.getElem?_eq_some_iff.mp hk).1 _, rfl, rfl⟩
      · obtain ⟨i, hi⟩ := List.mem_iff_getElem?.mp hother
        have hne : k ≠ i := by
          intro heq
          rw [heq, hi, Option.some.injEq] at hk
          exact hsame hk
        refine ⟨other, ?_, rfl, rfl⟩
        apply List.mem_of_getElem? (i := i)
        rw [List.getElem?_set_ne hne, hi]
    · rw [henv.history, henv.modeState]
      exact h.chronicle.mono fun job hjob => ⟨job, henv.queue.subset job hjob, rfl, rfl⟩
  · rcases step_cases hstep with ⟨k, job, u, progress, hk, hturn, moves, rfl⟩ | henv
    · have hleaves := (moves.chosen h hk hturn hguard).leaves
      rw [moves.transitions_eq hk]
      exact Turns.move h.inv.serial hk hturn hleaves.running (hleaves.resting moves)
    · refine henv.queue.turns (h.turns.mono (fun job _ _ hjob => ?_) fun hrest => ?_)
      · exact hjob.congr henv.history henv.modeState henv.adaptivePhase
      · unfold ManualChosen at hrest ⊢
        rw [henv.history, henv.modeState, henv.adaptivePhase]
        exact hrest

theorem ChoiceInv.initial (now : Int) : ChoiceInv cfg (.initial cfg now) where
  inv := .initial now
  admitted := ⟨by simp [State.initial], by simp [State.initial], by simp [State.initial]⟩
  chronicle :=
    { mode_eq := resolveModeState_captureMode cfg.resolved
      consistent := trivial
      superseded := .nil
      recorded := by simp [State.initial] }
  turns := by
    refine ⟨by simp [State.initial], fun _ => ⟨trivial, fun hphase => ?_⟩⟩
    unfold State.initial at hphase
    simp only at hphase
    split at hphase <;> contradiction

theorem preserved_publishedCallsResolve :
    (system cfg).Preserved PublishedCallsResolve (ChoiceInv cfg) where
  init := by
    rintro s ⟨now, rfl⟩
    exact .initial now
  step _ _ _ h hguard hstep := h.step hguard hstep

theorem ChoiceInv.lastChoiceWins (h : ChoiceInv cfg s) : LastChoiceWins s where
  superseded := h.chronicle.superseded
  in_force := by
    intro hsettled
    have hrest := h.turns.resting fun k job hk => by
      rw [hsettled job (List.mem_of_getElem? hk)]
      simp
    cases hlast : lastResolved s.history with
    | none => trivial
    | some last =>
        obtain ⟨mode, call⟩ := last
        intro hearlier
        rw [h.chronicle.mode_eq]
        refine Chronicle.mode_of_lastResolved h.chronicle.consistent h.chronicle.superseded
          hrest.1 ?_ hlast
        intro event hevent intent admitted heq hadaptive
        obtain ⟨job, hjob, hintent, hadmitted⟩ := heq ▸ h.chronicle.recorded event hevent
        rw [← hadmitted]
        exact hearlier job hjob (by rw [hintent]; exact hadaptive)
  serial := h.inv.serial.running_le_one

/-- The last call that resolved wins in every run in which no call fails after its mode was
published. -/
theorem last_choice_wins (cfg : Config) (now : Int) (run : List Action)
    (h : (system cfg).Guarded PublishedCallsResolve (.initial cfg now) run) :
    (system cfg).Always LastChoiceWins (.initial cfg now) run :=
  (preserved_publishedCallsResolve.always (.initial now) h).mono fun _ hs => hs.lastChoiceWins

/-- A call for the balanced mode while an admitted capture waits to escalate. -/
def overriddenEscalation : List Action :=
  [.activate, .capture .safe, .setCaptureMode (some "balanced"), .escalate 0, .start 0] ++
  List.replicate 10 (.callback 0 .returned) ++ [.start 1]

theorem overriddenEscalation_wins :
    (system adaptiveConfig).Guarded PublishedCallsResolve (.initial adaptiveConfig 0)
        overriddenEscalation ∧
      (system adaptiveConfig).Always LastChoiceWins (.initial adaptiveConfig 0)
        overriddenEscalation :=
  ⟨by decide +kernel, last_choice_wins _ _ _ (by decide +kernel)⟩

/-- The second call is rejected when its mode has been published. -/
def rejectedCall : List Action :=
  [.setCaptureMode (some "safe"), .start 0, .setCaptureMode (some "balanced"), .start 1,
    .callback 1 .returned, .callback 1 .rejected]

theorem rejectedCall_not_wins :
    ¬ (system adaptiveConfig).Always LastChoiceWins (.initial adaptiveConfig 0)
      rejectedCall := by
  decide +kernel

end ErrorCore.CaptureModeController
