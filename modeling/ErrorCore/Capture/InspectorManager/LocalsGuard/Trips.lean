import ErrorCore.Capture.InspectorManager.LocalsGuard
import ErrorCore.Foundation.Transition
import Mathlib.Data.List.DropRight

/-!
# Trips of the locals guard

A run is watched: the pauses of each second are counted on the side, and the
times at which the guard found a budget exceeded are kept. While the guard is
tripped the debugger stays disarmed and no lookup returns frames, and a trip
ends by a re-arm, by a mode without the guard, or late enough.

A trip for the rate of pauses is meant to follow ten seconds in a row. A second
that ends while the guard is disabled leaves the count of seconds as it is, so
that seconds before and after it are counted as if they were consecutive.
-/

namespace ErrorCore.InspectorManager

/-! ## Runs -/

inductive GuardAction
  | pause (exception selected : Bool) (elapsedMs : Rat) (prunedAt now trippedAt : Int)
  | everySecond (now : Int)
  | applyModeState (next : InspectorModeState) (now : Int)
  | rearmAfterAdaptiveGuard (now : Int)
  | ensureDebuggerActive
  | disarmDebugger
  | deactivate
  | shutdown
  | store (id : Nat) (capture : Capture) (now : Int)
  | lookup (mainThread object : Bool) (requestId : Option Text) (error : LookedUpError)
      (clock : Nat → Int)

namespace Manager

variable (sha1 : Text → Text) (oracle : Oracle)

/-- `storeCollectedFrames`, if the pause is still collecting. -/
def store (m : Manager) (id : Nat) (capture : Capture) (now : Int) : Manager :=
  match m.locals.store sha1 id capture now with
  | none => m
  | some locals =>
      { m with
        locals
        collectionCountThisSecond :=
          if capture.frames = [] then m.collectionCountThisSecond
          else m.collectionCountThisSecond + 1 }

def step (m : Manager) : GuardAction → Manager
  | .pause exception selected elapsedMs prunedAt now trippedAt =>
      m.onPaused oracle exception selected elapsedMs prunedAt now trippedAt
  | .everySecond now => m.everySecond oracle now
  | .applyModeState next now => m.applyModeState oracle next now
  | .rearmAfterAdaptiveGuard now => m.rearmAfterAdaptiveGuard oracle now
  | .ensureDebuggerActive => (m.ensureDebuggerActive oracle).1
  | .disarmDebugger => m.disarmDebugger oracle
  | .deactivate => m.deactivate oracle
  | .shutdown => m.shutdown oracle
  | .store id capture now => m.store sha1 id capture now
  | .lookup mainThread object requestId error clock =>
      (m.getLocalsWithDiagnostics oracle sha1 mainThread object requestId error clock).2

end Manager

/-- The readings of the clock that the guard uses, in order. -/
def GuardAction.readings : GuardAction → List Int
  | .pause _ _ _ _ now trippedAt => [now, trippedAt]
  | .everySecond now => [now]
  | .applyModeState _ now => [now]
  | .rearmAfterAdaptiveGuard now => [now]
  | _ => []

/-- The last reading, if the clock does not go back. -/
def advance : Int → List Int → Option Int
  | clock, [] => some clock
  | clock, now :: readings => if clock ≤ now then advance now readings else none

/-- A second that ended: its pauses, and the guard at its end. -/
structure Second where
  pauses : Nat
  guard : LocalsGuard
  deriving DecidableEq, Repr

/-- The guard was there and its rate exceeded. -/
def Second.OverLimit (second : Second) : Prop :=
  second.guard.enabled = true ∧ second.guard.maxPausesPerSecond < second.pauses

instance (second : Second) : Decidable second.OverLimit :=
  inferInstanceAs (Decidable (second.guard.enabled = true ∧
    second.guard.maxPausesPerSecond < second.pauses))

/-- The time at which an action finds a budget exceeded. -/
def Manager.overBudgetAt (m : Manager) : GuardAction → List Int
  | .pause _ _ elapsedMs _ now _ =>
      if m.localsGuard.enabled ∧ ¬ m.guardTripped ∧
        (m.countWallTime elapsedMs now).OverWallTime then [now] else []
  | .everySecond now => if m.localsGuard.enabled ∧ m.OverBudget then [now] else []
  | _ => []

/-- A manager, the clock, the pauses since the last second, and what was observed. -/
structure Watched where
  manager : Manager
  clock : Int
  pauses : Nat
  seconds : List Second
  overBudgetAt : List Int

namespace Watched

/-- The second that ends now. -/
def ended (w : Watched) : Second where
  pauses := w.pauses
  guard := w.manager.localsGuard

def watch (sha1 : Text → Text) (w : Watched) (oracle : Oracle) (a : GuardAction) (clock : Int) :
    Watched where
  manager := w.manager.step sha1 oracle a
  clock := clock
  pauses :=
    match a with
    | .pause .. => w.pauses + 1
    | .everySecond _ => 0
    | _ => w.pauses
  seconds :=
    match a with
    | .everySecond _ => w.seconds ++ [w.ended]
    | _ => w.seconds
  overBudgetAt := w.overBudgetAt ++ w.manager.overBudgetAt a

/-- A new manager at some time. -/
def start (config : InspectorModeState) (ttlMs : Nat) (clock : Int) : Watched where
  manager := .new config ttlMs
  clock := clock
  pauses := 0
  seconds := []
  overBudgetAt := []

def system (sha1 : Text → Text) : Transition.System Watched (Oracle × GuardAction) where
  init w := ∃ config ttlMs clock, w = start config ttlMs clock
  step w label := (advance w.clock label.2.readings).map (w.watch sha1 label.1 label.2)

/-! ## What is promised -/

/-- What ends a trip. -/
def Ends (w : Watched) : GuardAction → Prop
  | .rearmAfterAdaptiveGuard _ => True
  | .applyModeState next _ => next.localsGuard.enabled = false
  | .everySecond now => ∀ t ∈ w.overBudgetAt, LOCALS_GUARD_RECOVERY_MS ≤ now - t
  | _ => False

/-- A tripped guard: no lookup returns frames, the next step does not arm the debugger unless it
ends the trip, and it ends it for a reason. -/
structure StaysTripped (sha1 : Text → Text) (w : Watched) : Prop where
  noFrames : ∀ oracle mainThread object requestId error clock result,
    (w.manager.getLocalsWithDiagnostics oracle sha1 mainThread object requestId error clock).1 =
      some result → result.frames = none
  disarmed : w.manager.pauseOnExceptionsActive = false
  staysDisarmed : ∀ label w', (system sha1).step w label = some w' →
    w'.manager.guardTripped = true →
      w'.manager.pauseOnExceptionsActive = false ∧
        ∃ posted, w'.manager.posted = w.manager.posted ++ posted ∧ PauseState.all ∉ posted
  ends : ∀ label w', (system sha1).step w label = some w' →
    w'.manager.guardTripped = false → w.Ends label.2

/-- A step trips the guard at the end of ten seconds over the limit, or for the wall time of a
pause. -/
def TripsOverLimit (w : Watched) (a : GuardAction) (w' : Watched) : Prop :=
  match a with
  | .everySecond _ => 10 ≤ w'.seconds.length ∧ ∀ second ∈ w'.seconds.rtake 10, second.OverLimit
  | .pause _ _ elapsedMs _ now _ =>
      w.manager.localsGuard.enabled = true ∧ (w.manager.countWallTime elapsedMs now).OverWallTime
  | _ => False

/-- A second does not end while the guard is disabled and has seconds counted. -/
def CountsEverySecond (w : Watched) : Oracle × GuardAction → Prop
  | (_, .everySecond _) =>
      w.manager.localsGuard.enabled = false → w.manager.guardTripped = false →
        w.manager.overLimitSeconds = 0
  | _ => True

instance (w : Watched) : ∀ label, Decidable (w.CountsEverySecond label)
  | (_, .everySecond _) =>
      inferInstanceAs (Decidable (w.manager.localsGuard.enabled = false →
        w.manager.guardTripped = false → w.manager.overLimitSeconds = 0))
  | (_, .pause ..) => .isTrue trivial
  | (_, .applyModeState ..) => .isTrue trivial
  | (_, .rearmAfterAdaptiveGuard _) => .isTrue trivial
  | (_, .ensureDebuggerActive) => .isTrue trivial
  | (_, .disarmDebugger) => .isTrue trivial
  | (_, .deactivate) => .isTrue trivial
  | (_, .shutdown) => .isTrue trivial
  | (_, .store ..) => .isTrue trivial
  | (_, .lookup ..) => .isTrue trivial

end Watched

/-! ## The functions and the guard -/

namespace Manager

variable {sha1 : Text → Text} {oracle : Oracle} {m m' : Manager} {now : Int}

/-- The fields of the guard that a trip and its end depend on. -/
def guardFields (m : Manager) : Nat × Nat × Bool × Option Int :=
  (m.pausesThisSecond, m.overLimitSeconds, m.guardTripped, m.guardTrippedAtMs)

/-- The debugger is armed only through a session, and not while the guard is tripped. -/
structure Wired (m : Manager) : Prop where
  session : m.pauseOnExceptionsActive = true → m.session = true
  initialized : m.pauseOnExceptionsActive = true → m.initialized = true
  disarmed : m.guardTripped = true → m.pauseOnExceptionsActive = false

theorem wired_of_idle (h : m.pauseOnExceptionsActive = false) : m.Wired where
  session hactive := absurd (h.symm.trans hactive) Bool.false_ne_true
  initialized hactive := absurd (h.symm.trans hactive) Bool.false_ne_true
  disarmed _ := h

/-- A step that does not touch the guard and arms nothing. -/
structure Leaves (m m' : Manager) : Prop where
  guard : m'.guardFields = m.guardFields
  wired : m.Wired → m'.Wired
  posted : ∃ posted, m'.posted = m.posted ++ posted ∧ PauseState.all ∉ posted

theorem leaves_of_eq (guard : m'.guardFields = m.guardFields)
    (session : m'.session = m.session) (initialized : m'.initialized = m.initialized)
    (active : m'.pauseOnExceptionsActive = m.pauseOnExceptionsActive)
    (posted : m'.posted = m.posted) : m.Leaves m' where
  guard := guard
  wired h := by
    have htripped : m'.guardTripped = m.guardTripped := by
      simp only [guardFields, Prod.mk.injEq] at guard
      exact guard.2.2.1
    refine ⟨?_, ?_, ?_⟩
    · rw [active, session]
      exact h.session
    · rw [active, initialized]
      exact h.initialized
    · rw [active, htripped]
      exact h.disarmed
  posted := ⟨[], by rw [posted, List.append_nil], List.not_mem_nil⟩

theorem postNone_eq (oracle : Oracle) (m : Manager) :
    ∃ posted, m.postNone oracle = { m with posted := m.posted ++ posted } ∧
      PauseState.all ∉ posted := by
  rw [postNone]
  split
  · exact ⟨[.none], rfl, by decide⟩
  · exact ⟨[], by rw [List.append_nil], List.not_mem_nil⟩

theorem disarmDebugger_leaves (oracle : Oracle) (m : Manager) :
    m.Leaves (m.disarmDebugger oracle) := by
  obtain ⟨posted, heq, hnot⟩ := postNone_eq oracle m
  rw [disarmDebugger, heq]
  exact ⟨rfl, fun _ => wired_of_idle rfl, posted, rfl, hnot⟩

theorem deactivate_leaves (oracle : Oracle) (m : Manager) : m.Leaves (m.deactivate oracle) := by
  rw [deactivate]
  split
  · exact leaves_of_eq rfl rfl rfl rfl rfl
  · exact disarmDebugger_leaves oracle m

theorem shutdown_leaves (oracle : Oracle) (m : Manager) : m.Leaves (m.shutdown oracle) := by
  obtain ⟨posted, heq, hnot⟩ := postNone_eq oracle m
  rw [shutdown, heq]
  exact ⟨rfl, fun _ => wired_of_idle rfl, posted, rfl, hnot⟩

theorem store_leaves (m : Manager) (id : Nat) (capture : Capture) (now : Int) :
    m.Leaves (m.store sha1 id capture now) := by
  rw [store]
  split
  · exact leaves_of_eq rfl rfl rfl rfl rfl
  · exact leaves_of_eq rfl rfl rfl rfl rfl

theorem startCapture_eq (m : Manager) (exception selected : Bool) (prunedAt : Int) :
    ∃ locals, m.startCapture exception selected prunedAt = { m with locals } := by
  unfold startCapture
  split
  · exact ⟨_, rfl⟩
  split
  · exact ⟨_, rfl⟩
  split
  · exact ⟨_, rfl⟩
  · exact ⟨_, rfl⟩

theorem ensureDebuggerActive_of_tripped (h : m.guardTripped = true) :
    m.ensureDebuggerActive oracle = (m, false) := by
  rw [ensureDebuggerActive, if_pos h]

/-- Arming the debugger does not touch the guard. -/
theorem ensureDebuggerActive_guard (oracle : Oracle) (m : Manager) (h : m.Wired) :
    (m.ensureDebuggerActive oracle).1.guardFields = m.guardFields ∧
      (m.ensureDebuggerActive oracle).1.Wired := by
  rw [ensureDebuggerActive]
  split
  · exact ⟨rfl, h⟩
  next htripped =>
  split
  · exact ⟨rfl, h⟩
  have hinit : (m.initSession oracle).guardFields = m.guardFields ∧
      (m.initSession oracle).Wired ∧ (m.initSession oracle).guardTripped = m.guardTripped ∧
      (m.initSession oracle).initialized = true := by
    rw [initSession]
    split
    next hinitialized => exact ⟨rfl, h, rfl, hinitialized⟩
    next hinitialized =>
      have hidle : m.pauseOnExceptionsActive ≠ true := fun hactive =>
        hinitialized (h.initialized hactive)
      split
      · exact ⟨rfl, ⟨fun hactive => absurd hactive hidle, fun _ => rfl, h.disarmed⟩, rfl, rfl⟩
      · exact ⟨rfl, ⟨fun hactive => absurd hactive hidle, fun _ => rfl, h.disarmed⟩, rfl, rfl⟩
  obtain ⟨hguard, hwired, hsame, hinitialized⟩ := hinit
  dsimp only
  split
  · exact ⟨hguard, hwired⟩
  next hsession =>
  split
  · exact ⟨hguard, hwired⟩
  split
  · refine ⟨hguard, fun _ => ?_, fun _ => hinitialized, fun ht => ?_⟩
    · simpa using hsession
    · exact absurd (hsame.symm.trans ht) htripped
  · exact ⟨hguard, hwired⟩

/-- Resetting the guard, and arming the debugger again. -/
theorem rearm_guard (oracle : Oracle) (h : m.Wired) (now : Int) :
    (m.rearm oracle now).guardFields = (0, 0, false, none) ∧ (m.rearm oracle now).Wired := by
  have hreset : (m.resetGuardTrip now).Wired :=
    ⟨h.session, h.initialized, fun ht => absurd ht Bool.false_ne_true⟩
  rw [rearm]
  split
  · exact ensureDebuggerActive_guard oracle { m.resetGuardTrip now with available := true }
      ⟨hreset.session, hreset.initialized, hreset.disarmed⟩
  · exact ⟨rfl, hreset⟩

/-- A trip disarms the debugger. -/
theorem tripGuard_guard (oracle : Oracle) (h : m.Wired) (htripped : m.guardTripped = false)
    (now : Int) :
    (m.tripGuard oracle now).guardFields =
        (m.pausesThisSecond, m.overLimitSeconds, true, some now) ∧
      (m.tripGuard oracle now).pauseOnExceptionsActive = false := by
  rw [tripGuard, if_neg (by rw [htripped]; exact Bool.false_ne_true)]
  dsimp only
  split
  · obtain ⟨posted, heq, _⟩ :=
      postNone_eq oracle { m with guardTripped := true, guardTrippedAtMs := some now }
    rw [heq]
    exact ⟨rfl, rfl⟩
  next hidle =>
    refine ⟨rfl, ?_⟩
    cases hactive : m.pauseOnExceptionsActive with
    | false => rfl
    | true =>
        refine absurd ?_ hidle
        rw [h.session hactive, hactive]
        rfl

/-- A mode change leaves the guard's fields, or it rearms a guard that is disabled. -/
theorem applyModeState_guard (oracle : Oracle) (h : m.Wired) (next : InspectorModeState)
    (now : Int) :
    ((m.applyModeState oracle next now).guardFields = m.guardFields ∨
        next.localsGuard.enabled = false ∧ m.guardTripped = true ∧
          (m.applyModeState oracle next now).guardFields = (0, 0, false, none)) ∧
      (m.applyModeState oracle next now).Wired ∧
      ((m.applyModeState oracle next now).guardTripped = true →
        ∃ posted, (m.applyModeState oracle next now).posted = m.posted ++ posted ∧
          PauseState.all ∉ posted) := by
  let changed : Manager :=
    { m with
      captureLocalVariables :=
        next.captureLocalVariables && next.localVariablesMode ≠ LocalVariablesMode.none
      maxCollectionsPerSecond := next.maxLocalsCollectionsPerSecond
      locals := { m.locals with ringBuffer := m.locals.ringBuffer.resize next.maxCachedLocals }
      localsGuard := next.localsGuard }
  have heq : m.applyModeState oracle next now =
      if !changed.captureLocalVariables then
        { changed.disarmDebugger oracle with available := false }
      else if !next.localsGuard.enabled && m.guardTripped then
        ({ changed with available := true }.rearm oracle now)
      else { changed with available := true } := rfl
  rw [heq]
  split
  · obtain ⟨guard, wired, hposted⟩ := disarmDebugger_leaves oracle changed
    have hwired := wired ⟨h.session, h.initialized, h.disarmed⟩
    exact ⟨.inl guard, ⟨hwired.session, hwired.initialized, hwired.disarmed⟩, fun _ => hposted⟩
  split
  next hrearm =>
    rw [Bool.and_eq_true, Bool.not_eq_true'] at hrearm
    obtain ⟨guard, wired⟩ := rearm_guard (m := { changed with available := true }) oracle
      ⟨h.session, h.initialized, h.disarmed⟩ now
    refine ⟨.inr ⟨hrearm.1, hrearm.2, guard⟩, wired, fun htripped => ?_⟩
    simp only [guardFields, Prod.mk.injEq] at guard
    exact absurd (guard.2.2.1.symm.trans htripped) Bool.false_ne_true
  · exact ⟨.inl rfl, ⟨h.session, h.initialized, h.disarmed⟩, fun _ =>
      ⟨[], by rw [List.append_nil], List.not_mem_nil⟩⟩

/-- What the end of a second does. -/
inductive SecondEnds (m : Manager) (now : Int) (m' : Manager) : Prop
  | disabled (enabled : m.localsGuard.enabled = false)
      (fields : m'.guardFields = (0, m.overLimitSeconds, m.guardTripped, m.guardTrippedAtMs))
  | extended (enabled : m.localsGuard.enabled = true) (tripped : m.guardTripped = true)
      (exceeded : m.OverBudget) (fields : m'.guardFields = (0, m.overLimitSeconds, true, some now))
  | waits (enabled : m.localsGuard.enabled = true) (tripped : m.guardTripped = true)
      (within : ¬ m.OverBudget)
      (fields : m'.guardFields = (0, m.overLimitSeconds, true, m.guardTrippedAtMs))
  | recovers (t : Int) (enabled : m.localsGuard.enabled = true) (tripped : m.guardTripped = true)
      (within : ¬ m.OverBudget) (trippedAt : m.guardTrippedAtMs = some t)
      (late : LOCALS_GUARD_RECOVERY_MS ≤ now - t) (fields : m'.guardFields = (0, 0, false, none))
  | trips (enabled : m.localsGuard.enabled = true) (tripped : m.guardTripped = false)
      (sustained : 10 ≤ m.countSecond.overLimitSeconds)
      (fields : m'.guardFields = (0, m.countSecond.overLimitSeconds, true, some now))
  | counts (enabled : m.localsGuard.enabled = true) (tripped : m.guardTripped = false)
      (fields : m'.guardFields =
        (0, m.countSecond.overLimitSeconds, false, m.guardTrippedAtMs))

theorem evaluateGuardRecovery_ends (oracle : Oracle) (h : m.Wired)
    (enabled : m.localsGuard.enabled = true) (tripped : m.guardTripped = true) {t : Int}
    (trippedAt : m.guardTrippedAtMs = some t) (now : Int) :
    SecondEnds m now (m.evaluateGuardRecovery oracle now) ∧
      (m.evaluateGuardRecovery oracle now).Wired ∧
      ((m.evaluateGuardRecovery oracle now).guardTripped = true →
        (m.evaluateGuardRecovery oracle now).posted = m.posted) := by
  have hwired (m' : Manager) (session : m'.session = m.session)
      (initialized : m'.initialized = m.initialized)
      (active : m'.pauseOnExceptionsActive = m.pauseOnExceptionsActive) : m'.Wired :=
    wired_of_idle (active.trans (h.disarmed tripped))
  simp only [evaluateGuardRecovery, tripped, trippedAt]
  split
  next hover =>
    exact ⟨.extended enabled tripped hover rfl, hwired _ rfl rfl rfl, fun _ => rfl⟩
  next hover =>
  split
  next hlate =>
    obtain ⟨guard, wired⟩ :=
      rearm_guard oracle (hwired { m with pausesThisSecond := 0 } rfl rfl rfl) now
    refine ⟨.recovers t enabled tripped hover trippedAt hlate guard, wired, fun ht => ?_⟩
    simp only [guardFields, Prod.mk.injEq] at guard
    exact absurd (guard.2.2.1.symm.trans ht) Bool.false_ne_true
  · exact ⟨.waits enabled tripped hover (by rw [trippedAt]; rfl), hwired _ rfl rfl rfl,
      fun _ => rfl⟩

theorem everySecond_ends (oracle : Oracle) (h : m.Wired)
    (trippedAt : m.guardTripped = true → ∃ t, m.guardTrippedAtMs = some t) (now : Int) :
    SecondEnds m now (m.everySecond oracle now) ∧ (m.everySecond oracle now).Wired ∧
      (m.guardTripped = true → (m.everySecond oracle now).guardTripped = true →
        (m.everySecond oracle now).posted = m.posted) := by
  let c : Manager := { m with collectionCountThisSecond := 0 }
  have hc : c.Wired := ⟨h.session, h.initialized, h.disarmed⟩
  have heq : m.everySecond oracle now = c.evaluatePauseRateGuard oracle now := rfl
  rw [heq, evaluatePauseRateGuard]
  split
  next hdisabled =>
    rw [Bool.not_eq_true'] at hdisabled
    exact ⟨.disabled hdisabled rfl, ⟨h.session, h.initialized, h.disarmed⟩, fun _ _ => rfl⟩
  next henabled =>
  have enabled : m.localsGuard.enabled = true := by simpa using henabled
  split
  next htripped =>
    obtain ⟨t, ht⟩ := trippedAt htripped
    obtain ⟨hends, hwired, hposted⟩ := evaluateGuardRecovery_ends oracle hc enabled htripped ht now
    refine ⟨?_, hwired, fun _ => hposted⟩
    cases hends with
    | disabled enabled fields => exact .disabled enabled fields
    | extended enabled tripped exceeded fields => exact .extended enabled tripped exceeded fields
    | waits enabled tripped within fields => exact .waits enabled tripped within fields
    | recovers t enabled tripped within trippedAt late fields =>
        exact .recovers t enabled tripped within trippedAt late fields
    | trips enabled tripped sustained fields => exact .trips enabled tripped sustained fields
    | counts enabled tripped fields => exact .counts enabled tripped fields
  next htripped =>
  have untripped : m.guardTripped = false := Bool.eq_false_iff.mpr htripped
  have hcount : c.countSecond.Wired := ⟨h.session, h.initialized, h.disarmed⟩
  split
  next hsustained =>
    obtain ⟨guard, idle⟩ := tripGuard_guard oracle hcount untripped now
    exact ⟨.trips enabled untripped hsustained guard, wired_of_idle idle, fun ht =>
      absurd ht htripped⟩
  · exact ⟨.counts enabled untripped (by rw [← untripped]; rfl), hcount, fun ht =>
      absurd ht htripped⟩

/-- What a pause does. -/
inductive PauseEnds (m : Manager) (elapsedMs : Rat) (now trippedAt : Int) (m' : Manager) : Prop
  | counted (fields : m'.guardFields =
      (m.pausesThisSecond + 1, m.overLimitSeconds, m.guardTripped, m.guardTrippedAtMs))
  | trips (enabled : m.localsGuard.enabled = true) (tripped : m.guardTripped = false)
      (exceeded : (m.countWallTime elapsedMs now).OverWallTime)
      (fields : m'.guardFields =
        (m.pausesThisSecond + 1, m.overLimitSeconds, true, some trippedAt))

theorem onPaused_ends (oracle : Oracle) (h : m.Wired) (exception selected : Bool)
    (elapsedMs : Rat) (prunedAt now trippedAt : Int) :
    let m' := m.onPaused oracle exception selected elapsedMs prunedAt now trippedAt
    PauseEnds m elapsedMs now trippedAt m' ∧ m'.Wired ∧
      (m.guardTripped = true → m'.posted = m.posted) := by
  intro m'
  obtain ⟨locals, hlocals⟩ :=
    startCapture_eq { m with pausesThisSecond := m.pausesThisSecond + 1 } exception selected
      prunedAt
  let c : Manager := { m with pausesThisSecond := m.pausesThisSecond + 1, locals }
  have hc : c.Wired := ⟨h.session, h.initialized, h.disarmed⟩
  have heq : m' = c.recordPauseWallTime oracle elapsedMs now trippedAt := by
    simp only [m', onPaused, hlocals, c]
  -- the window of wall time does not depend on what the pause has captured
  have hwindow : (c.countWallTime elapsedMs now).OverWallTime ↔
      (m.countWallTime elapsedMs now).OverWallTime := by
    simp only [countWallTime, OverWallTime, c]
    split
    · rfl
    · rfl
  have hcounted : (c.countWallTime elapsedMs now).guardFields = c.guardFields ∧
      (c.countWallTime elapsedMs now).Wired := by
    rw [countWallTime]
    split
    · exact ⟨rfl, hc.session, hc.initialized, hc.disarmed⟩
    · exact ⟨rfl, hc.session, hc.initialized, hc.disarmed⟩
  rw [heq, recordPauseWallTime]
  split
  · exact ⟨.counted rfl, hc, fun _ => rfl⟩
  next hchecked =>
  rw [Bool.or_eq_true, not_or, Bool.not_eq_true', Bool.not_eq_false] at hchecked
  have untripped : m.guardTripped = false := Bool.eq_false_iff.mpr hchecked.2
  split
  next hover =>
    have htripped : (c.countWallTime elapsedMs now).guardTripped = false := by
      have hfields := hcounted.1
      simp only [guardFields, Prod.mk.injEq] at hfields
      exact hfields.2.2.1.trans untripped
    obtain ⟨guard, idle⟩ := tripGuard_guard oracle hcounted.2 htripped trippedAt
    refine ⟨.trips hchecked.1 untripped (hwindow.mp hover) ?_, wired_of_idle idle, fun ht =>
      absurd ht hchecked.2⟩
    have hfields := hcounted.1
    simp only [guardFields, Prod.mk.injEq] at hfields
    rw [guard, hfields.1, hfields.2.1]
  · exact ⟨.counted hcounted.1, hcounted.2, fun ht => absurd ht hchecked.2⟩

/-! ## Lookups -/

/-- A lookup while the guard is tripped finds nothing and arms nothing. -/
theorem getLocalsWithDiagnostics_of_tripped (sha1 : Text → Text) (oracle : Oracle)
    (htripped : m.guardTripped = true) (mainThread object : Bool) (requestId : Option Text)
    (error : LookedUpError) (clock : Nat → Int) :
    ∃ result locals,
      m.getLocalsWithDiagnostics oracle sha1 mainThread object requestId error clock =
        (some result, { m with locals }) ∧ result.frames = none := by
  have hreach : m.reachesDebugger mainThread object = false := by
    simp [reachesDebugger, htripped]
  simp only [getLocalsWithDiagnostics, hreach, Bool.false_eq_true, if_false]
  refine ⟨_, _, rfl, ?_⟩
  simp only [State.lookup, InspectorManager.getLocalsWithDiagnostics, Readiness.missReason,
    htripped, if_true]
  split
  · rfl
  · rfl

theorem getLocalsWithDiagnostics_guard (sha1 : Text → Text) (oracle : Oracle) (h : m.Wired)
    (mainThread object : Bool) (requestId : Option Text) (error : LookedUpError)
    (clock : Nat → Int) :
    let m' := (m.getLocalsWithDiagnostics oracle sha1 mainThread object requestId error clock).2
    m'.guardFields = m.guardFields ∧ m'.Wired := by
  have harmed : ∀ armed threw,
      (if m.reachesDebugger mainThread object then m.ensureDebuggerActive oracle
        else (m, false)) = (armed, threw) →
      armed.guardFields = m.guardFields ∧ armed.Wired := by
    intro armed threw hpair
    split at hpair
    · have hguard := ensureDebuggerActive_guard oracle m h
      rwa [hpair] at hguard
    · obtain ⟨rfl, _⟩ := Prod.mk.inj hpair
      exact ⟨rfl, h⟩
  simp only [getLocalsWithDiagnostics]
  cases hpair : (if m.reachesDebugger mainThread object then m.ensureDebuggerActive oracle
      else (m, false)) with
  | mk armed threw =>
      obtain ⟨hguard, hwired⟩ := harmed armed threw hpair
      dsimp only
      split
      · exact ⟨hguard, hwired.session, hwired.initialized, hwired.disarmed⟩
      · exact ⟨hguard, hwired.session, hwired.initialized, hwired.disarmed⟩

/-- The actions that leave the guard's fields. -/
def Idle : GuardAction → Prop
  | .ensureDebuggerActive | .disarmDebugger | .deactivate | .shutdown => True
  | .store .. | .lookup .. => True
  | _ => False

theorem idle_step (sha1 : Text → Text) (oracle : Oracle) (h : m.Wired) {a : GuardAction}
    (idle : Idle a) :
    (m.step sha1 oracle a).guardFields = m.guardFields ∧ (m.step sha1 oracle a).Wired ∧
      (m.guardTripped = true →
        ∃ posted, (m.step sha1 oracle a).posted = m.posted ++ posted ∧
          PauseState.all ∉ posted) := by
  have leaves {m' : Manager} (hleaves : m.Leaves m') :
      m'.guardFields = m.guardFields ∧ m'.Wired ∧ (m.guardTripped = true →
        ∃ posted, m'.posted = m.posted ++ posted ∧ PauseState.all ∉ posted) :=
    ⟨hleaves.guard, hleaves.wired h, fun _ => hleaves.posted⟩
  cases a with
  | ensureDebuggerActive =>
      obtain ⟨guard, wired⟩ := ensureDebuggerActive_guard oracle m h
      refine ⟨guard, wired, fun htripped => ⟨[], ?_, List.not_mem_nil⟩⟩
      rw [step, ensureDebuggerActive_of_tripped htripped, List.append_nil]
  | disarmDebugger => exact leaves (disarmDebugger_leaves oracle m)
  | deactivate => exact leaves (deactivate_leaves oracle m)
  | shutdown => exact leaves (shutdown_leaves oracle m)
  | store id capture now => exact leaves (store_leaves m id capture now)
  | lookup mainThread object requestId error clock =>
      obtain ⟨guard, wired⟩ :=
        getLocalsWithDiagnostics_guard sha1 oracle h mainThread object requestId error clock
      refine ⟨guard, wired, fun htripped => ⟨[], ?_, List.not_mem_nil⟩⟩
      obtain ⟨result, locals, heq, _⟩ := getLocalsWithDiagnostics_of_tripped sha1 oracle htripped
        mainThread object requestId error clock
      rw [step, heq, List.append_nil]
  | pause => exact idle.elim
  | everySecond => exact idle.elim
  | applyModeState => exact idle.elim
  | rearmAfterAdaptiveGuard => exact idle.elim

end Manager

/-! ## Watched runs -/

theorem mem_rtake_of_le {α : Type*} {l : List α} {n k : Nat} {x : α} (hle : n ≤ k)
    (hmem : x ∈ l.rtake n) : x ∈ l.rtake k := by
  have hdrop : l.length - n = l.length - k + (l.length - n - (l.length - k)) := by omega
  rw [List.rtake, hdrop, ← List.drop_drop] at hmem
  exact List.mem_of_mem_drop hmem

theorem le_of_advance {clock clock' : Int} {readings : List Int}
    (h : advance clock readings = some clock') : clock ≤ clock' := by
  induction readings generalizing clock with
  | nil => exact Int.le_of_eq (Option.some.inj h)
  | cons now readings ih =>
      rw [advance] at h
      split at h
      next hle => exact Int.le_trans hle (ih h)
      · exact nomatch h

namespace Watched

variable {sha1 : Text → Text} {w w' : Watched} {label : Oracle × GuardAction}

/-- The invariant of every run. -/
structure Sound (w : Watched) : Prop where
  wired : w.manager.Wired
  trippedAt : w.manager.guardTripped = true →
    ∃ t, w.manager.guardTrippedAtMs = some t ∧ t ≤ w.clock ∧ ∀ late ∈ w.overBudgetAt, late ≤ t
  past : ∀ late ∈ w.overBudgetAt, late ≤ w.clock
  counted : w.manager.pausesThisSecond ≤ w.pauses

/-- The seconds that are counted are the last ones, and each was over the limit. -/
def Consecutive (w : Watched) : Prop :=
  w.manager.guardTripped = false →
    w.manager.overLimitSeconds ≤ w.seconds.length ∧
      ∀ second ∈ w.seconds.rtake w.manager.overLimitSeconds, second.OverLimit

theorem step_eq (hstep : (system sha1).step w label = some w') :
    ∃ clock, advance w.clock label.2.readings = some clock ∧
      w' = w.watch sha1 label.1 label.2 clock := by
  obtain ⟨clock, hclock, rfl⟩ := Option.map_eq_some_iff.mp hstep
  exact ⟨clock, hclock, rfl⟩

/-- What a step does that is neither a pause nor the end of a second. -/
theorem quiet_step (h : w.Sound) {clock : Int} (hclock : w.clock ≤ clock) {m' : Manager}
    {w' : Watched} (manager : w'.manager = m') (hclock' : w'.clock = clock)
    (pauses : w'.pauses = w.pauses) (seconds : w'.seconds = w.seconds)
    (overBudgetAt : w'.overBudgetAt = w.overBudgetAt) (wired : m'.Wired)
    (fields : m'.guardFields = w.manager.guardFields ∨ m'.guardFields = (0, 0, false, none)) :
    w'.Sound ∧ (w.Consecutive → w'.Consecutive) := by
  subst manager hclock'
  simp only [Manager.guardFields, Prod.mk.injEq] at fields
  obtain ⟨hpauses, hover, htripped, htrippedAt⟩ | ⟨hpauses, hover, htripped, htrippedAt⟩ := fields
  · refine ⟨⟨wired, ?_, ?_, ?_⟩, ?_⟩
    · rw [htripped, htrippedAt, overBudgetAt]
      intro ht
      obtain ⟨t, hat, hle, hpast⟩ := h.trippedAt ht
      exact ⟨t, hat, Int.le_trans hle hclock, hpast⟩
    · rw [overBudgetAt]
      exact fun late hmem => Int.le_trans (h.past late hmem) hclock
    · rw [hpauses, pauses]
      exact h.counted
    · unfold Consecutive
      rw [htripped, hover, seconds]
      exact fun hcons => hcons
  · refine ⟨⟨wired, ?_, ?_, ?_⟩, ?_⟩
    · rw [htripped]
      exact fun ht => absurd ht Bool.false_ne_true
    · rw [overBudgetAt]
      exact fun late hmem => Int.le_trans (h.past late hmem) hclock
    · rw [hpauses]
      exact Nat.zero_le _
    · intro _ _
      rw [hover, List.rtake_zero]
      exact ⟨Nat.zero_le _, fun second hmem => absurd hmem List.not_mem_nil⟩

/-- A pause counts, and may trip the guard for its wall time. -/
theorem pause_step (sha1 : Text → Text) (h : w.Sound) (oracle : Oracle) (exception selected : Bool)
    (elapsedMs : Rat) (prunedAt now trippedAt : Int) (hnow : w.clock ≤ now)
    (htrippedAt : now ≤ trippedAt) :
    let a := GuardAction.pause exception selected elapsedMs prunedAt now trippedAt
    (w.watch sha1 oracle a trippedAt).Sound ∧
      (w.Consecutive → (w.watch sha1 oracle a trippedAt).Consecutive) := by
  intro a
  obtain ⟨hends, hwired, _⟩ :=
    Manager.onPaused_ends oracle h.wired exception selected elapsedMs prunedAt now trippedAt
  have hover : (w.watch sha1 oracle a trippedAt).overBudgetAt = w.overBudgetAt ++
      if w.manager.localsGuard.enabled ∧ ¬ w.manager.guardTripped ∧
        (w.manager.countWallTime elapsedMs now).OverWallTime then [now] else [] := rfl
  have hpast (late : Int) (hmem : late ∈ (w.watch sha1 oracle a trippedAt).overBudgetAt) :
      late ≤ trippedAt := by
    rw [hover, List.mem_append] at hmem
    rcases hmem with hmem | hmem
    · exact Int.le_trans (h.past late hmem) (Int.le_trans hnow htrippedAt)
    · split at hmem
      · rwa [List.mem_singleton.mp hmem]
      · exact absurd hmem List.not_mem_nil
  have hmanager : (w.watch sha1 oracle a trippedAt).manager =
      w.manager.onPaused oracle exception selected elapsedMs prunedAt now trippedAt := rfl
  cases hends with
  | counted fields =>
      simp only [Manager.guardFields, Prod.mk.injEq] at fields
      obtain ⟨hpauses, hlimit, htripped, hat⟩ := fields
      refine ⟨⟨hwired, ?_, hpast, ?_⟩, ?_⟩
      · rw [hmanager, htripped, hat]
        intro ht
        obtain ⟨t, ht', hle, hold⟩ := h.trippedAt ht
        have hsame : (w.watch sha1 oracle a trippedAt).overBudgetAt = w.overBudgetAt := by
          rw [hover, if_neg (fun hif => hif.2.1 ht), List.append_nil]
        refine ⟨t, ht', Int.le_trans hle (Int.le_trans hnow htrippedAt), ?_⟩
        rwa [hsame]
      · rw [hmanager, hpauses]
        exact Nat.succ_le_succ h.counted
      · unfold Consecutive
        rw [hmanager, htripped, hlimit]
        exact fun hcons => hcons
  | trips enabled tripped exceeded fields =>
      simp only [Manager.guardFields, Prod.mk.injEq] at fields
      obtain ⟨hpauses, _, htripped, hat⟩ := fields
      refine ⟨⟨hwired, ?_, hpast, ?_⟩, ?_⟩
      · rw [hmanager, hat]
        exact fun _ => ⟨trippedAt, rfl, Int.le_refl _, hpast⟩
      · rw [hmanager, hpauses]
        exact Nat.succ_le_succ h.counted
      · intro _ hfalse
        rw [hmanager, htripped] at hfalse
        exact absurd hfalse.symm Bool.false_ne_true

/-- A second over the limit, as it was watched. -/
theorem overLimit_of_counted (h : w.Sound) (enabled : w.manager.localsGuard.enabled = true)
    (hover : w.manager.localsGuard.maxPausesPerSecond < w.manager.pausesThisSecond) :
    w.ended.OverLimit :=
  ⟨enabled, Int.lt_of_lt_of_le hover (Int.ofNat_le.mpr h.counted)⟩

/-- The seconds that are counted after one more second are in a row if they were before. -/
theorem countSecond_consecutive (h : w.Sound) (hcons : w.Consecutive)
    (enabled : w.manager.localsGuard.enabled = true) (untripped : w.manager.guardTripped = false) :
    w.manager.countSecond.overLimitSeconds ≤ w.seconds.length + 1 ∧
      ∀ second ∈ (w.seconds ++ [w.ended]).rtake w.manager.countSecond.overLimitSeconds,
        second.OverLimit := by
  obtain ⟨hlength, hall⟩ := hcons untripped
  rw [Manager.countSecond]
  dsimp only
  split
  next hover =>
    refine ⟨Nat.succ_le_succ hlength, ?_⟩
    rw [List.rtake_concat_succ]
    intro second hmem
    rcases List.mem_append.mp hmem with hmem | hmem
    · exact hall second hmem
    · rw [List.mem_singleton.mp hmem]
      exact overLimit_of_counted h enabled hover
  · rw [List.rtake_zero]
    exact ⟨Nat.zero_le _, fun second hmem => absurd hmem List.not_mem_nil⟩

theorem second_step (h : w.Sound) (oracle : Oracle) (now : Int) (hnow : w.clock ≤ now) :
    (w.watch sha1 oracle (.everySecond now) now).Sound ∧
      (w.CountsEverySecond (oracle, .everySecond now) → w.Consecutive →
        (w.watch sha1 oracle (.everySecond now) now).Consecutive) := by
  have hexists : w.manager.guardTripped = true → ∃ t, w.manager.guardTrippedAtMs = some t :=
    fun ht => (h.trippedAt ht).imp fun _ hat => hat.1
  obtain ⟨hends, hwired, _⟩ := Manager.everySecond_ends oracle h.wired hexists now
  have hover : (w.watch sha1 oracle (.everySecond now) now).overBudgetAt = w.overBudgetAt ++
      if w.manager.localsGuard.enabled ∧ w.manager.OverBudget then [now] else [] := rfl
  have hpast (late : Int)
      (hmem : late ∈ (w.watch sha1 oracle (.everySecond now) now).overBudgetAt) :
      late ≤ now := by
    rw [hover, List.mem_append] at hmem
    rcases hmem with hmem | hmem
    · exact Int.le_trans (h.past late hmem) hnow
    · split at hmem
      · exact Int.le_of_eq (List.mem_singleton.mp hmem)
      · exact absurd hmem List.not_mem_nil
  -- where nothing was over budget, a trip keeps its time
  have hkept (hnone : ¬ (w.manager.localsGuard.enabled ∧ w.manager.OverBudget))
      (ht : w.manager.guardTripped = true) :
      ∃ t, w.manager.guardTrippedAtMs = some t ∧ t ≤ now ∧
        ∀ late ∈ (w.watch sha1 oracle (.everySecond now) now).overBudgetAt, late ≤ t := by
    obtain ⟨t, hat, hle, hold⟩ := h.trippedAt ht
    refine ⟨t, hat, Int.le_trans hle hnow, ?_⟩
    rwa [hover, if_neg hnone, List.append_nil]
  have hmanager : (w.watch sha1 oracle (.everySecond now) now).manager =
      w.manager.everySecond oracle now := rfl
  have hcounted {k : Nat} (hzero : (w.manager.everySecond oracle now).pausesThisSecond = 0) :
      (w.manager.everySecond oracle now).pausesThisSecond ≤ k := by
    rw [hzero]
    exact Nat.zero_le _
  have hvacuous (htripped : (w.manager.everySecond oracle now).guardTripped = true) :
      (w.watch sha1 oracle (.everySecond now) now).Consecutive := by
    intro hfalse
    exact absurd (hfalse.symm.trans htripped) Bool.false_ne_true
  have hzero (hlimit : (w.manager.everySecond oracle now).overLimitSeconds = 0) :
      (w.watch sha1 oracle (.everySecond now) now).Consecutive := by
    intro _
    rw [hmanager, hlimit, List.rtake_zero]
    exact ⟨Nat.zero_le _, fun second hmem => absurd hmem List.not_mem_nil⟩
  cases hends with
  | disabled enabled fields =>
      simp only [Manager.guardFields, Prod.mk.injEq] at fields
      obtain ⟨hpauses, hlimit, htripped, hat⟩ := fields
      refine ⟨⟨hwired, ?_, hpast, hcounted hpauses⟩, ?_⟩
      · rw [hmanager, htripped, hat]
        exact hkept fun hboth => absurd (enabled.symm.trans hboth.1) Bool.false_ne_true
      · intro hcounts _
        cases huntripped : w.manager.guardTripped with
        | true => exact hvacuous (htripped.trans huntripped)
        | false => exact hzero (hlimit.trans (hcounts enabled huntripped))
  | extended enabled tripped exceeded fields =>
      simp only [Manager.guardFields, Prod.mk.injEq] at fields
      obtain ⟨hpauses, _, htripped, hat⟩ := fields
      refine ⟨⟨hwired, ?_, hpast, hcounted hpauses⟩, fun _ _ => hvacuous htripped⟩
      rw [hmanager, hat]
      exact fun _ => ⟨now, rfl, Int.le_refl _, hpast⟩
  | waits enabled tripped within fields =>
      simp only [Manager.guardFields, Prod.mk.injEq] at fields
      obtain ⟨hpauses, _, htripped, hat⟩ := fields
      refine ⟨⟨hwired, ?_, hpast, hcounted hpauses⟩, fun _ _ => hvacuous htripped⟩
      rw [hmanager, hat]
      exact fun _ => hkept (fun hboth => within hboth.2) tripped
  | recovers t enabled tripped within trippedAt late fields =>
      simp only [Manager.guardFields, Prod.mk.injEq] at fields
      obtain ⟨hpauses, hlimit, htripped, _⟩ := fields
      refine ⟨⟨hwired, ?_, hpast, hcounted hpauses⟩, fun _ _ => hzero hlimit⟩
      rw [hmanager, htripped]
      exact fun ht => absurd ht Bool.false_ne_true
  | trips enabled tripped sustained fields =>
      simp only [Manager.guardFields, Prod.mk.injEq] at fields
      obtain ⟨hpauses, _, htripped, hat⟩ := fields
      refine ⟨⟨hwired, ?_, hpast, hcounted hpauses⟩, fun _ _ => hvacuous htripped⟩
      rw [hmanager, hat]
      exact fun _ => ⟨now, rfl, Int.le_refl _, hpast⟩
  | counts enabled tripped fields =>
      simp only [Manager.guardFields, Prod.mk.injEq] at fields
      obtain ⟨hpauses, hlimit, htripped, _⟩ := fields
      refine ⟨⟨hwired, ?_, hpast, hcounted hpauses⟩, ?_⟩
      · rw [hmanager, htripped]
        exact fun ht => absurd ht Bool.false_ne_true
      · intro _ hcons _
        have hseconds : (w.watch sha1 oracle (.everySecond now) now).seconds =
            w.seconds ++ [w.ended] := rfl
        rw [hmanager, hlimit, hseconds, List.length_append, List.length_singleton]
        exact countSecond_consecutive h hcons enabled tripped

theorem sound_step (h : w.Sound) (hstep : (system sha1).step w label = some w') :
    w'.Sound ∧ (w.CountsEverySecond label → w.Consecutive → w'.Consecutive) := by
  obtain ⟨clock, hclock, rfl⟩ := step_eq hstep
  obtain ⟨oracle, a⟩ := label
  have hle := le_of_advance hclock
  have quiet (fields : (w.manager.step sha1 oracle a).guardFields = w.manager.guardFields ∨
        (w.manager.step sha1 oracle a).guardFields = (0, 0, false, none))
      (wired : (w.manager.step sha1 oracle a).Wired)
      (hpauses : (w.watch sha1 oracle a clock).pauses = w.pauses)
      (hseconds : (w.watch sha1 oracle a clock).seconds = w.seconds)
      (hover : w.manager.overBudgetAt a = []) :
      (w.watch sha1 oracle a clock).Sound ∧
        (w.CountsEverySecond (oracle, a) → w.Consecutive →
          (w.watch sha1 oracle a clock).Consecutive) := by
    have hoverBudgetAt : (w.watch sha1 oracle a clock).overBudgetAt = w.overBudgetAt := by
      have happend : (w.watch sha1 oracle a clock).overBudgetAt =
          w.overBudgetAt ++ w.manager.overBudgetAt a := rfl
      rw [happend, hover, List.append_nil]
    obtain ⟨hsound, hcons⟩ := quiet_step h hle rfl rfl hpauses hseconds hoverBudgetAt wired fields
    exact ⟨hsound, fun _ => hcons⟩
  have idle (hidle : Manager.Idle a)
      (hpauses : (w.watch sha1 oracle a clock).pauses = w.pauses)
      (hseconds : (w.watch sha1 oracle a clock).seconds = w.seconds)
      (hover : w.manager.overBudgetAt a = []) :
      (w.watch sha1 oracle a clock).Sound ∧
        (w.CountsEverySecond (oracle, a) → w.Consecutive →
          (w.watch sha1 oracle a clock).Consecutive) := by
    obtain ⟨fields, wired, _⟩ := Manager.idle_step sha1 oracle h.wired hidle
    exact quiet (.inl fields) wired hpauses hseconds hover
  cases a with
  | pause exception selected elapsedMs prunedAt now trippedAt =>
      simp only [GuardAction.readings, advance, Option.ite_none_right_eq_some,
        Option.some.injEq] at hclock
      obtain ⟨hnow, htrippedAt, rfl⟩ := hclock
      obtain ⟨hsound, hcons⟩ := pause_step sha1 h oracle exception selected elapsedMs prunedAt
        now trippedAt hnow htrippedAt
      exact ⟨hsound, fun _ => hcons⟩
  | everySecond now =>
      simp only [GuardAction.readings, advance, Option.ite_none_right_eq_some,
        Option.some.injEq] at hclock
      obtain ⟨hnow, rfl⟩ := hclock
      exact second_step h oracle now hnow
  | applyModeState next now =>
      obtain ⟨fields, wired, _⟩ := Manager.applyModeState_guard oracle h.wired next now
      exact quiet (fields.imp_right fun hreset => hreset.2.2) wired rfl rfl rfl
  | rearmAfterAdaptiveGuard now =>
      obtain ⟨fields, wired⟩ := Manager.rearm_guard oracle h.wired now
      exact quiet (.inr fields) wired rfl rfl rfl
  | ensureDebuggerActive => exact idle trivial rfl rfl rfl
  | disarmDebugger => exact idle trivial rfl rfl rfl
  | deactivate => exact idle trivial rfl rfl rfl
  | shutdown => exact idle trivial rfl rfl rfl
  | store id capture now => exact idle trivial rfl rfl rfl
  | lookup mainThread object requestId error clock' => exact idle trivial rfl rfl rfl

/-! ## What holds of a step -/

/-- A step from a tripped guard to a tripped guard posts nothing that arms the debugger. -/
theorem posted_step (h : w.Sound) (tripped : w.manager.guardTripped = true)
    (hstep : (system sha1).step w label = some w') (tripped' : w'.manager.guardTripped = true) :
    ∃ posted, w'.manager.posted = w.manager.posted ++ posted ∧ PauseState.all ∉ posted := by
  obtain ⟨clock, _, rfl⟩ := step_eq hstep
  obtain ⟨oracle, a⟩ := label
  have same (hposted : (w.manager.step sha1 oracle a).posted = w.manager.posted) :
      ∃ posted, (w.manager.step sha1 oracle a).posted = w.manager.posted ++ posted ∧
        PauseState.all ∉ posted :=
    ⟨[], by rw [hposted, List.append_nil], List.not_mem_nil⟩
  have idle (hidle : Manager.Idle a) :
      ∃ posted, (w.manager.step sha1 oracle a).posted = w.manager.posted ++ posted ∧
        PauseState.all ∉ posted :=
    (Manager.idle_step sha1 oracle h.wired hidle).2.2 tripped
  cases a with
  | pause exception selected elapsedMs prunedAt now trippedAt =>
      obtain ⟨_, _, hposted⟩ := Manager.onPaused_ends oracle h.wired exception selected elapsedMs
        prunedAt now trippedAt
      exact same (hposted tripped)
  | everySecond now =>
      have hexists := (h.trippedAt tripped).imp fun _ hat => hat.1
      obtain ⟨_, _, hposted⟩ := Manager.everySecond_ends oracle h.wired (fun _ => hexists) now
      exact same (hposted tripped tripped')
  | applyModeState next now =>
      obtain ⟨_, _, hposted⟩ := Manager.applyModeState_guard oracle h.wired next now
      exact hposted tripped'
  | rearmAfterAdaptiveGuard now =>
      obtain ⟨fields, _⟩ := Manager.rearm_guard oracle h.wired now
      simp only [Manager.guardFields, Prod.mk.injEq] at fields
      exact absurd (fields.2.2.1.symm.trans tripped') Bool.false_ne_true
  | ensureDebuggerActive => exact idle trivial
  | disarmDebugger => exact idle trivial
  | deactivate => exact idle trivial
  | shutdown => exact idle trivial
  | store id capture now => exact idle trivial
  | lookup mainThread object requestId error clock' => exact idle trivial

/-- A trip ends for a reason. -/
theorem ends_step (h : w.Sound) (tripped : w.manager.guardTripped = true)
    (hstep : (system sha1).step w label = some w') (ended : w'.manager.guardTripped = false) :
    w.Ends label.2 := by
  obtain ⟨clock, _, rfl⟩ := step_eq hstep
  obtain ⟨oracle, a⟩ := label
  have kept (fields : (w.manager.step sha1 oracle a).guardFields = w.manager.guardFields) :
      w.Ends a := by
    simp only [Manager.guardFields, Prod.mk.injEq] at fields
    exact absurd (ended.symm.trans (fields.2.2.1.trans tripped)) Bool.false_ne_true
  have idle (hidle : Manager.Idle a) : w.Ends a :=
    kept (Manager.idle_step sha1 oracle h.wired hidle).1
  cases a with
  | pause exception selected elapsedMs prunedAt now trippedAt =>
      obtain ⟨hends, _, _⟩ := Manager.onPaused_ends oracle h.wired exception selected elapsedMs
        prunedAt now trippedAt
      cases hends with
      | counted fields =>
          simp only [Manager.guardFields, Prod.mk.injEq] at fields
          exact absurd (ended.symm.trans (fields.2.2.1.trans tripped)) Bool.false_ne_true
      | trips enabled untripped exceeded fields =>
          exact absurd (untripped.symm.trans tripped) Bool.false_ne_true
  | everySecond now =>
      obtain ⟨t, hat, _, hpast⟩ := h.trippedAt tripped
      obtain ⟨hends, _, _⟩ := Manager.everySecond_ends oracle h.wired (fun _ => ⟨t, hat⟩) now
      have still (fields : (w.manager.everySecond oracle now).guardTripped = true) :
          w.Ends (.everySecond now) :=
        absurd (ended.symm.trans fields) Bool.false_ne_true
      cases hends with
      | disabled enabled fields =>
          simp only [Manager.guardFields, Prod.mk.injEq] at fields
          exact still (fields.2.2.1.trans tripped)
      | extended enabled tripped exceeded fields =>
          simp only [Manager.guardFields, Prod.mk.injEq] at fields
          exact still fields.2.2.1
      | waits enabled tripped within fields =>
          simp only [Manager.guardFields, Prod.mk.injEq] at fields
          exact still fields.2.2.1
      | recovers t' enabled tripped within trippedAt late fields =>
          obtain rfl := Option.some.inj (hat.symm.trans trippedAt)
          intro late hlate
          have hle := hpast late hlate
          omega
      | trips enabled untripped sustained fields =>
          exact absurd (untripped.symm.trans tripped) Bool.false_ne_true
      | counts enabled untripped fields =>
          exact absurd (untripped.symm.trans tripped) Bool.false_ne_true
  | applyModeState next now =>
      obtain ⟨fields, _, _⟩ := Manager.applyModeState_guard oracle h.wired next now
      exact fields.elim kept fun hreset => hreset.1
  | rearmAfterAdaptiveGuard now => trivial
  | ensureDebuggerActive => exact idle trivial
  | disarmDebugger => exact idle trivial
  | deactivate => exact idle trivial
  | shutdown => exact idle trivial
  | store id capture now => exact idle trivial
  | lookup mainThread object requestId error clock' => exact idle trivial

theorem Sound.staysTripped (h : w.Sound) (tripped : w.manager.guardTripped = true) :
    w.StaysTripped sha1 where
  noFrames oracle mainThread object requestId error clock result hresult := by
    obtain ⟨found, locals, heq, hnone⟩ := Manager.getLocalsWithDiagnostics_of_tripped sha1 oracle
      tripped mainThread object requestId error clock
    rw [heq] at hresult
    exact Option.some.inj hresult ▸ hnone
  disarmed := h.wired.disarmed tripped
  staysDisarmed _ _ hstep tripped' :=
    ⟨(sound_step h hstep).1.wired.disarmed tripped', posted_step h tripped hstep tripped'⟩
  ends _ _ hstep ended := ends_step h tripped hstep ended

/-- A trip follows ten seconds over the limit, or the wall time of a pause. -/
theorem trips_step (h : w.Sound) (hcons : w.Consecutive)
    (untripped : w.manager.guardTripped = false)
    (hstep : (system sha1).step w label = some w') (tripped : w'.manager.guardTripped = true) :
    w.TripsOverLimit label.2 w' := by
  obtain ⟨clock, _, rfl⟩ := step_eq hstep
  obtain ⟨oracle, a⟩ := label
  have kept (fields : (w.manager.step sha1 oracle a).guardFields = w.manager.guardFields) :
      w.TripsOverLimit a (w.watch sha1 oracle a clock) := by
    simp only [Manager.guardFields, Prod.mk.injEq] at fields
    exact absurd ((fields.2.2.1.trans untripped).symm.trans tripped) Bool.false_ne_true
  have idle (hidle : Manager.Idle a) : w.TripsOverLimit a (w.watch sha1 oracle a clock) :=
    kept (Manager.idle_step sha1 oracle h.wired hidle).1
  cases a with
  | pause exception selected elapsedMs prunedAt now trippedAt =>
      obtain ⟨hends, _, _⟩ := Manager.onPaused_ends oracle h.wired exception selected elapsedMs
        prunedAt now trippedAt
      cases hends with
      | counted fields =>
          simp only [Manager.guardFields, Prod.mk.injEq] at fields
          exact absurd ((fields.2.2.1.trans untripped).symm.trans tripped) Bool.false_ne_true
      | trips enabled _ exceeded fields => exact ⟨enabled, exceeded⟩
  | everySecond now =>
      have hexists : w.manager.guardTripped = true → ∃ t, w.manager.guardTrippedAtMs = some t :=
        fun ht => absurd (untripped.symm.trans ht) Bool.false_ne_true
      obtain ⟨hends, _, _⟩ := Manager.everySecond_ends oracle h.wired hexists now
      have never (htripped : w.manager.guardTripped = true) :
          w.TripsOverLimit (.everySecond now) (w.watch sha1 oracle (.everySecond now) clock) :=
        absurd (untripped.symm.trans htripped) Bool.false_ne_true
      have still (fields : (w.manager.everySecond oracle now).guardTripped = false) :
          w.TripsOverLimit (.everySecond now) (w.watch sha1 oracle (.everySecond now) clock) :=
        absurd (fields.symm.trans tripped) Bool.false_ne_true
      cases hends with
      | disabled enabled fields =>
          simp only [Manager.guardFields, Prod.mk.injEq] at fields
          exact still (fields.2.2.1.trans untripped)
      | extended enabled tripped exceeded fields => exact never tripped
      | waits enabled tripped within fields => exact never tripped
      | recovers t enabled tripped within trippedAt late fields => exact never tripped
      | trips enabled _ sustained fields =>
          obtain ⟨hlength, hall⟩ := countSecond_consecutive h hcons enabled untripped
          have hseconds : (w.watch sha1 oracle (.everySecond now) clock).seconds =
              w.seconds ++ [w.ended] := rfl
          simp only [TripsOverLimit, hseconds]
          refine ⟨?_, ?_⟩
          · rw [List.length_append, List.length_singleton]
            exact Nat.le_trans sustained hlength
          · exact fun second hmem => hall second (mem_rtake_of_le sustained hmem)
      | counts enabled _ fields =>
          simp only [Manager.guardFields, Prod.mk.injEq] at fields
          exact still fields.2.2.1
  | applyModeState next now =>
      obtain ⟨fields, _, _⟩ := Manager.applyModeState_guard oracle h.wired next now
      exact fields.elim kept fun hreset => absurd (untripped.symm.trans hreset.2.1)
        Bool.false_ne_true
  | rearmAfterAdaptiveGuard now =>
      obtain ⟨fields, _⟩ := Manager.rearm_guard oracle h.wired now
      simp only [Manager.guardFields, Prod.mk.injEq] at fields
      exact absurd (fields.2.2.1.symm.trans tripped) Bool.false_ne_true
  | ensureDebuggerActive => exact idle trivial
  | disarmDebugger => exact idle trivial
  | deactivate => exact idle trivial
  | shutdown => exact idle trivial
  | store id capture now => exact idle trivial
  | lookup mainThread object requestId error clock' => exact idle trivial

/-! ## Whole runs -/

theorem start_sound (config : InspectorModeState) (ttlMs : Nat) (clock : Int) :
    (start config ttlMs clock).Sound ∧ (start config ttlMs clock).Consecutive := by
  refine ⟨⟨Manager.wired_of_idle rfl, ?_, ?_, Nat.le_refl _⟩, ?_⟩
  · exact fun ht => absurd ht Bool.false_ne_true
  · exact fun late hmem => absurd hmem List.not_mem_nil
  · exact fun _ => ⟨Nat.le_refl _, fun second hmem => absurd hmem List.not_mem_nil⟩

theorem sound_preserved : (system sha1).Preserved (fun _ _ => True) Sound where
  init _ := by
    rintro ⟨config, ttlMs, clock, rfl⟩
    exact (start_sound config ttlMs clock).1
  step _ _ _ h _ hstep := (sound_step h hstep).1

theorem consecutive_preserved :
    (system sha1).Preserved CountsEverySecond (fun w => w.Sound ∧ w.Consecutive) where
  init _ := by
    rintro ⟨config, ttlMs, clock, rfl⟩
    exact start_sound config ttlMs clock
  step _ _ _ h guard hstep := by
    obtain ⟨hsound, hcons⟩ := sound_step h.1 hstep
    exact ⟨hsound, hcons guard h.2⟩

/-- In every run a tripped guard keeps the debugger off until its trip ends for a reason; and where
no second ends uncounted, a trip follows ten seconds in a row over the limit. -/
theorem localsGuard_holds (w₀ w : Watched) (run : List (Oracle × GuardAction))
    (init : (system sha1).init w₀) (reached : (system sha1).exec w₀ run = some w) :
    (w.manager.guardTripped = true → w.StaysTripped sha1) ∧
      ((system sha1).Guarded CountsEverySecond w₀ run →
        ∀ label w', (system sha1).step w label = some w' → w.manager.guardTripped = false →
          w'.manager.guardTripped = true → w.TripsOverLimit label.2 w') := by
  refine ⟨?_, ?_⟩
  · exact (sound_preserved.exec init Transition.System.guarded_true reached).staysTripped
  · intro guarded label w' hstep untripped tripped
    obtain ⟨hsound, hcons⟩ := consecutive_preserved.exec init guarded reached
    exact trips_step hsound hcons untripped hstep tripped

/-- One pause a second is within the limit. -/
def strictMode : InspectorModeState where
  captureLocalVariables := true
  localVariablesMode := .shallow
  localsGuard := { enabled := true, maxPausesPerSecond := 1, maxPauseMsPerMinute := 250 }
  maxLocalsCollectionsPerSecond := 20
  maxCachedLocals := 50

/-- A mode without locals has no guard. -/
def withoutLocals : InspectorModeState :=
  { strictMode with
    captureLocalVariables := false
    localsGuard := { enabled := false, maxPausesPerSecond := 1, maxPauseMsPerMinute := 250 } }

/-- An action with a session that works. -/
def works (a : GuardAction) : Oracle × GuardAction := ({ connects := true, posts := true }, a)

/-- Two pauses in a second that ends at the time. -/
def busySecond (now : Int) : List (Oracle × GuardAction) :=
  [works (.pause true true 1 now now now), works (.pause true true 1 now now now),
    works (.everySecond now)]

/-- Nine busy seconds and the pauses of a tenth. -/
def busyRun : List (Oracle × GuardAction) :=
  works .ensureDebuggerActive ::
    ((List.range 9).flatMap fun k => busySecond (1000 * k)) ++ (busySecond 9000).take 2

/-- The tenth second trips the guard. -/
theorem localsGuard_holds_busy :
    ∃ w w', (system id).exec (start strictMode 30000 0) busyRun = some w ∧
      (system id).step w (works (.everySecond 9000)) = some w' ∧ w'.manager.guardTripped = true ∧
      w.TripsOverLimit (.everySecond 9000) w' ∧ w'.StaysTripped id := by
  have hrun : ((system id).exec (start strictMode 30000 0) busyRun).map
        (fun w => w.manager.guardTripped) = some false ∧
      ((system id).exec (start strictMode 30000 0) (busyRun ++ [works (.everySecond 9000)])).map
        (fun w => w.manager.guardTripped) = some true ∧
      (system id).Guarded CountsEverySecond (start strictMode 30000 0) busyRun := by
    decide +kernel
  obtain ⟨hfirst, hlast, hguarded⟩ := hrun
  obtain ⟨w', hw', htripped⟩ := Option.map_eq_some_iff.mp hlast
  obtain ⟨w, hw, hstep⟩ := Transition.System.exec_split hw'
  rw [Transition.System.exec_singleton] at hstep
  rw [hw, Option.map_some, Option.some.injEq] at hfirst
  exact ⟨w, w', hw, hstep, htripped,
    (localsGuard_holds _ w busyRun ⟨strictMode, 30000, 0, rfl⟩ hw).2 hguarded _ w' hstep hfirst
      htripped,
    (localsGuard_holds _ w' _ ⟨strictMode, 30000, 0, rfl⟩ hw').1 htripped⟩

/-- Nine busy seconds, one in a mode without locals, and the pauses of one more busy second. -/
def switchedRun : List (Oracle × GuardAction) :=
  works .ensureDebuggerActive ::
    ((List.range 9).flatMap fun k => busySecond (1000 * k)) ++
    [works (.applyModeState withoutLocals 8500), works (.everySecond 9000),
      works (.applyModeState strictMode 9500), works .ensureDebuggerActive] ++
    (busySecond 10000).take 2

/-- The guard trips, although a second without a pause was among the last ten. -/
theorem localsGuard_trips_early :
    ¬ ∀ w₀ w run label w', (system id).init w₀ → (system id).exec w₀ run = some w →
      (system id).step w label = some w' → w.manager.guardTripped = false →
      w'.manager.guardTripped = true → w.TripsOverLimit label.2 w' := by
  intro claim
  have hrun : ((system id).exec (start strictMode 30000 0) switchedRun).map
        (fun w => (w.manager.guardTripped,
          ((system id).step w (works (.everySecond 10000))).map fun w' =>
            (w'.manager.guardTripped,
              decide (∀ second ∈ w'.seconds.rtake 10, second.OverLimit)))) =
      some (false, some (true, false)) := by
    decide +kernel
  obtain ⟨w, hw, hpair⟩ := Option.map_eq_some_iff.mp hrun
  obtain ⟨huntripped, hmap⟩ := Prod.mk.inj hpair
  obtain ⟨w', hstep, hpair'⟩ := Option.map_eq_some_iff.mp hmap
  obtain ⟨htripped, hnot⟩ := Prod.mk.inj hpair'
  obtain ⟨_, hall⟩ := claim _ w switchedRun (works (.everySecond 10000)) w'
    ⟨strictMode, 30000, 0, rfl⟩ hw hstep huntripped htripped
  exact absurd hall (of_decide_eq_false hnot)

end Watched

end ErrorCore.InspectorManager
