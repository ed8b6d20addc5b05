import ErrorCore.Capture.CaptureModeController.Invariant

/-!
# Generations

A call of `setCaptureMode` raises `adaptiveIntentGeneration`, and adaptive work
carries the generation it was admitted in. Calls, captures and ticks are numbered
in the order in which they come. Adaptive work whose generation is still the
present one has a higher number than every call.
-/

namespace ErrorCore.CaptureModeController

variable {cfg : Config} {s t u : State} {a : Action} {k : Nat} {job : ModeTransition}
variable {progress : Progress} {admitted : Nat}

/-- Work of this generation goes ahead only if it was admitted after every call. -/
def Current (cfg : Config) (s : State) (generation admitted : Nat) : Prop :=
  cfg.adaptiveCapture.enabled = true ∧ generation ≤ s.adaptiveIntentGeneration ∧
    (generation = s.adaptiveIntentGeneration →
      ∀ other ∈ s.transitions, other.intent.isManual = true → other.admitted < admitted)

structure Admitted (cfg : Config) (s : State) : Prop where
  numbered : ∀ job ∈ s.transitions, job.admitted < s.admissions
  current : ∀ job ∈ s.transitions, ∀ target generation,
    job.intent = .adaptive target generation → Current cfg s generation job.admitted
  pending : ∀ escalation ∈ s.escalations,
    escalation.admitted < s.admissions ∧ Current cfg s escalation.generation escalation.admitted

/-- Nothing that the numbers are about has changed. -/
theorem Admitted.congr (h : Admitted cfg s)
    (htransitions : ∀ job ∈ t.transitions, ∃ job' ∈ s.transitions, job'.intent = job.intent ∧
      job'.admitted = job.admitted)
    (hescalations : ∀ escalation ∈ t.escalations, escalation ∈ s.escalations)
    (hadmissions : t.admissions = s.admissions)
    (hgeneration : t.adaptiveIntentGeneration = s.adaptiveIntentGeneration) :
    Admitted cfg t := by
  have hcurrent : ∀ generation admitted, Current cfg s generation admitted →
      Current cfg t generation admitted := by
    rintro generation admitted ⟨henabled, hle, hlater⟩
    refine ⟨henabled, by rwa [hgeneration], fun heq other hother hmanual => ?_⟩
    obtain ⟨other', hother', hintent, hadmitted⟩ := htransitions other hother
    rw [← hadmitted]
    exact hlater (hgeneration ▸ heq) other' hother' (by rw [hintent]; exact hmanual)
  refine ⟨?_, ?_, ?_⟩
  · intro job hjob
    obtain ⟨job', hjob', _, hadmitted⟩ := htransitions job hjob
    rw [← hadmitted, hadmissions]
    exact h.numbered job' hjob'
  · intro job hjob target generation hintent
    obtain ⟨job', hjob', hintent', hadmitted⟩ := htransitions job hjob
    rw [← hadmitted]
    exact hcurrent _ _ (h.current job' hjob' target generation (hintent'.trans hintent))
  · intro escalation hescalation
    obtain ⟨hlt, hcur⟩ := h.pending escalation (hescalations escalation hescalation)
    exact ⟨by rwa [hadmissions], hcurrent _ _ hcur⟩

theorem Admitted.admitNext (h : Admitted cfg s) : Admitted cfg s.admitNext where
  numbered job hjob := Nat.lt_succ_of_lt (h.numbered job hjob)
  current := h.current
  pending escalation hescalation :=
    ⟨Nat.lt_succ_of_lt (h.pending escalation hescalation).1,
      (h.pending escalation hescalation).2⟩

/-- Work that is admitted now is younger than every call. -/
theorem Admitted.current_now (h : Admitted cfg s)
    (henabled : cfg.adaptiveCapture.enabled = true) :
    Current cfg s s.adaptiveIntentGeneration s.admissions :=
  ⟨henabled, Nat.le_refl _, fun _ other hother _ => h.numbered other hother⟩

theorem Admitted.enqueueAdaptive {target : CaptureMode} {generation : Nat} (h : Admitted cfg s)
    (hcurrent : Current cfg s generation admitted) (hlt : admitted < t.admissions)
    (ht : t = { s.enqueue (.adaptive target generation) admitted with
      admissions := t.admissions }) (hle : s.admissions ≤ t.admissions) : Admitted cfg t := by
  have hcongr : ∀ generation admitted, Current cfg s generation admitted →
      Current cfg t generation admitted := by
    rintro generation admitted ⟨henabled, hle, hlater⟩
    rw [ht]
    refine ⟨henabled, hle, fun heq other hother hmanual => ?_⟩
    rcases List.mem_append.mp hother with hmem | hnew
    · exact hlater heq other hmem hmanual
    · rw [List.mem_singleton.mp hnew] at hmanual
      contradiction
  refine ⟨?_, ?_, ?_⟩
  · intro job hjob
    rw [ht] at hjob
    rcases List.mem_append.mp hjob with hmem | hnew
    · exact Nat.lt_of_lt_of_le (h.numbered job hmem) hle
    · rw [List.mem_singleton.mp hnew]
      exact hlt
  · intro job hjob target' generation' hintent
    apply hcongr
    rw [ht] at hjob
    rcases List.mem_append.mp hjob with hmem | hnew
    · exact h.current job hmem target' generation' hintent
    · rw [List.mem_singleton.mp hnew] at hintent ⊢
      cases hintent
      exact hcurrent
  · intro escalation hescalation
    rw [ht] at hescalation
    obtain ⟨hold, hcur⟩ := h.pending escalation hescalation
    exact ⟨Nat.lt_of_lt_of_le hold hle, hcongr _ _ hcur⟩

theorem Admitted.switchAdaptiveMode (h : Admitted cfg s) (target : CaptureMode)
    {generation : Nat} (hcurrent : Current cfg s generation admitted)
    (hlt : admitted < s.admissions) :
    Admitted cfg (s.switchAdaptiveMode target generation admitted) := by
  unfold State.switchAdaptiveMode
  split
  · exact h
  · exact h.enqueueAdaptive hcurrent hlt rfl (Nat.le_refl _)

theorem Admitted.handleAdmittedCapture (h : Admitted cfg s) (modeAtCapture : CaptureMode) :
    Admitted cfg (s.handleAdmittedCapture cfg modeAtCapture).admitNext := by
  unfold State.handleAdmittedCapture
  split
  · exact h.admitNext
  · next henabled =>
      simp only [not_not] at henabled
      simp only
      split
      · refine ⟨fun job hjob => Nat.lt_succ_of_lt (h.numbered job hjob), h.current, ?_⟩
        intro escalation hescalation
        rcases List.mem_append.mp hescalation with hmem | hnew
        · exact ⟨Nat.lt_succ_of_lt (h.pending escalation hmem).1,
            (h.pending escalation hmem).2⟩
        · rw [List.mem_singleton.mp hnew]
          exact ⟨Nat.lt_succ_self _, h.current_now henabled⟩
      · exact ⟨fun job hjob => Nat.lt_succ_of_lt (h.numbered job hjob), h.current,
          fun escalation hescalation => ⟨Nat.lt_succ_of_lt (h.pending escalation hescalation).1,
            (h.pending escalation hescalation).2⟩⟩

theorem Admitted.escalate {i : Nat} {escalation : Escalation} (h : Admitted cfg s)
    (hi : s.escalations[i]? = some escalation) :
    Admitted cfg
      ({ s with escalations := s.escalations.eraseIdx i }.escalate cfg escalation) := by
  obtain ⟨hlt, hcurrent⟩ := h.pending escalation (List.mem_of_getElem? hi)
  have herased : Admitted cfg { s with escalations := s.escalations.eraseIdx i } :=
    ⟨h.numbered, h.current, fun e he => h.pending e (List.mem_of_mem_eraseIdx he)⟩
  unfold State.escalate
  simp only
  split
  · have hcleared : Admitted cfg
        { s with
          escalations := s.escalations.eraseIdx i
          adaptiveEscalationGeneration := none } :=
      ⟨herased.numbered, herased.current, herased.pending⟩
    exact hcleared.switchAdaptiveMode _ hcurrent hlt
  · exact herased.switchAdaptiveMode _ hcurrent hlt

theorem Admitted.evaluateAdaptiveDeescalation (h : Admitted cfg s) :
    Admitted cfg (s.evaluateAdaptiveDeescalation cfg).admitNext := by
  unfold State.evaluateAdaptiveDeescalation
  split
  · next hquiet =>
      have hcurrent := h.current_now hquiet.1
      unfold State.switchAdaptiveMode
      split
      · exact h.admitNext
      · exact h.enqueueAdaptive hcurrent (Nat.lt_succ_self _) rfl (Nat.le_succ _)
  · exact h.admitNext

/-- A call raises the generation, so that no older adaptive work is current. -/
theorem Admitted.call (h : Admitted cfg s) (target : CaptureMode) {generation : Nat}
    {pendingGeneration : Option Nat}
    (hgeneration : cfg.adaptiveCapture.enabled = true →
      generation = s.adaptiveIntentGeneration + 1) :
    Admitted cfg
      ({ s with
        adaptiveIntentGeneration := generation
        adaptiveEscalationGeneration := pendingGeneration }.enqueue (.manual target)
        s.admissions).admitNext := by
  have hcongr : ∀ older admitted, Current cfg s older admitted →
      Current cfg
        ({ s with
          adaptiveIntentGeneration := generation
          adaptiveEscalationGeneration := pendingGeneration }.enqueue (.manual target)
          s.admissions).admitNext older admitted := by
    rintro older admitted ⟨henabled, hle, _⟩
    have hraised := hgeneration henabled
    refine ⟨henabled, ?_, ?_⟩
    · show older ≤ generation
      omega
    · intro heq
      have hsame : older = generation := heq
      omega
  refine ⟨?_, ?_, ?_⟩
  · intro job hjob
    rcases List.mem_append.mp hjob with hmem | hnew
    · exact Nat.lt_succ_of_lt (h.numbered job hmem)
    · rw [List.mem_singleton.mp hnew]
      exact Nat.lt_succ_self _
  · intro job hjob target' generation' hintent
    apply hcongr
    rcases List.mem_append.mp hjob with hmem | hnew
    · exact h.current job hmem target' generation' hintent
    · rw [List.mem_singleton.mp hnew] at hintent
      contradiction
  · intro escalation hescalation
    obtain ⟨hold, hcur⟩ := h.pending escalation hescalation
    exact ⟨Nat.lt_succ_of_lt hold, hcongr _ _ hcur⟩

theorem Admitted.setCaptureMode (h : Admitted cfg s) (mode : Option String) :
    Admitted cfg (s.setCaptureMode cfg mode).admitNext := by
  unfold State.setCaptureMode
  split
  · exact h.admitNext
  · cases resolveCaptureMode mode with
    | error => exact h.admitNext
    | ok target =>
        simp only
        split
        · exact h.call target fun _ => rfl
        · next hdisabled => exact h.call target fun henabled => absurd henabled hdisabled

theorem Admitted.move (h : Admitted cfg s) (hk : s.transitions[k]? = some job)
    (moves : Moves cfg s k job a u progress) : Admitted cfg (u.setProgress k progress) := by
  have hkeeps := moves.keepsQueue
  refine h.congr ?_ ?_ hkeeps.admissions hkeeps.generation
  · intro other hother
    rw [moves.transitions_eq hk] at hother
    rcases List.mem_or_eq_of_mem_set hother with hmem | rfl
    · exact ⟨other, hmem, rfl, rfl⟩
    · exact ⟨job, List.mem_of_getElem? hk, rfl, rfl⟩
  · intro escalation hescalation
    exact hkeeps.escalations ▸ hescalation

theorem Admitted.step (h : Admitted cfg s) (hstep : s.step cfg a = some t) : Admitted cfg t := by
  have kept : ∀ {t : State}, t.transitions = s.transitions → t.escalations = s.escalations →
      t.admissions = s.admissions → t.adaptiveIntentGeneration = s.adaptiveIntentGeneration →
      Admitted cfg t := by
    intro t htransitions hescalations hadmissions hgeneration
    exact h.congr (fun job hjob => ⟨job, htransitions ▸ hjob, rfl, rfl⟩)
      (fun _ hescalation => hescalations ▸ hescalation) hadmissions hgeneration
  cases a with
  | start k =>
      obtain ⟨job, u, progress, hk, _, moves, rfl⟩ := State.start_cases hstep
      exact h.move hk moves
  | callback k outcome =>
      obtain ⟨job, u, progress, hk, _, moves, rfl⟩ := State.callbackReturns_cases hstep
      exact h.move hk moves
  | activate =>
      simp only [State.step, State.activate] at hstep
      split at hstep
      · cases hstep
        exact kept rfl rfl rfl rfl
      · contradiction
  | beginShutdown =>
      simp only [State.step, State.beginShutdown] at hstep
      split at hstep
      · cases hstep
        exact kept rfl rfl rfl rfl
      · contradiction
  | finishShutdown =>
      simp only [State.step, State.finishShutdown] at hstep
      split at hstep
      · cases hstep
        exact kept rfl rfl rfl rfl
      · contradiction
  | clock now =>
      cases hstep
      exact kept rfl rfl rfl rfl
  | capture modeAtCapture =>
      cases hstep
      exact h.handleAdmittedCapture modeAtCapture
  | escalate i =>
      simp only [State.step, Option.map_eq_some_iff] at hstep
      obtain ⟨escalation, hi, rfl⟩ := hstep
      exact h.escalate hi
  | timer =>
      simp only [State.step] at hstep
      split at hstep
      · cases hstep
        exact h.evaluateAdaptiveDeescalation
      · contradiction
  | setCaptureMode mode =>
      cases hstep
      exact h.setCaptureMode mode

end ErrorCore.CaptureModeController
