import ErrorCore.Transport.FileLock

/-!
# Mutual exclusion of the sidecar lock

A process that has returned from `acquireLock` owns the directory: its PID is
in the owner file. Making the directory, writing the owner file and releasing
cannot take that away from somebody else. Only the removal after a stale
verdict, and the one after a failed owner write, act on what an earlier call
saw, so the invariant is proved for the runs in which those two hit no live
process's lock, and a run that misses the guard ends with two holders.
-/

namespace ErrorCore.FileLock

namespace Process

variable (pr : Process)

@[simp] theorem goto_alive (phase : Phase) : (pr.goto phase).alive = pr.alive := rfl

@[simp] theorem goto_phase (phase : Phase) : (pr.goto phase).phase = phase := rfl

@[simp] theorem continueLoop_alive : pr.continueLoop.alive = pr.alive := by
  unfold continueLoop
  split <;> rfl

@[simp] theorem continueLoop_isHolding : pr.continueLoop.phase.isHolding = false := by
  unfold continueLoop
  split <;> rfl

@[simp] theorem onExisting_alive (existing : ExistingLock) :
    (pr.onExisting existing).alive = pr.alive := by
  cases existing with
  | missing => exact pr.continueLoop_alive
  | active => exact continueLoop_alive _
  | stale =>
      simp only [onExisting]
      split <;> rfl

@[simp] theorem onExisting_isHolding (existing : ExistingLock) :
    (pr.onExisting existing).phase.isHolding = false := by
  cases existing with
  | missing => exact pr.continueLoop_isHolding
  | active => exact continueLoop_isHolding _
  | stale =>
      simp only [onExisting]
      split <;> rfl

@[simp] theorem lockStateForPid_alive (pid : Option Pid) :
    (pr.lockStateForPid pid).alive = pr.alive := by
  cases pid with
  | none => exact pr.onExisting_alive _
  | some => rfl

@[simp] theorem lockStateForPid_isHolding (pid : Option Pid) :
    (pr.lockStateForPid pid).phase.isHolding = false := by
  cases pid with
  | none => exact pr.onExisting_isHolding _
  | some => rfl

@[simp] theorem afterRemove_alive (caller : RemoveCaller) :
    (pr.afterRemove caller).alive = pr.alive := by
  cases caller with
  | staleLock => exact pr.continueLoop_alive
  | failedWrite err => cases err <;> rfl
  | releaseLock => rfl

@[simp] theorem afterRemove_isHolding (caller : RemoveCaller) :
    (pr.afterRemove caller).phase.isHolding = false := by
  cases caller with
  | staleLock => exact pr.continueLoop_isHolding
  | failedWrite err => cases err <;> rfl
  | releaseLock => rfl

@[simp] theorem afterRemoveError_alive (caller : RemoveCaller) :
    (pr.afterRemoveError caller).alive = pr.alive := by
  cases caller <;> rfl

@[simp] theorem afterRemoveError_isHolding (caller : RemoveCaller) :
    (pr.afterRemoveError caller).phase.isHolding = false := by
  cases caller <;> rfl

end Process

/-- The four ways in which one file-system call can touch the lock. -/
inductive Effect (self : Pid) (lock : LockEntry) (pr : Process) : LockEntry → Process → Prop
  | unchanged (pr' : Process) (enters : pr'.phase.isHolding = true → pr.phase.isHolding = true) :
      Effect self lock pr lock pr'
  | mkdir (pr' : Process) (free : lock = .missing) (outside : pr'.phase.isHolding = false) :
      Effect self lock pr (.directory .absent) pr'
  | own (pr' : Process) (unowned : lock = .directory .absent) :
      Effect self lock pr (.directory (.present (some self))) pr'
  | remove (pr' : Process) (caller : RemoveCaller)
      (removing : pr.phase = .rmSync caller ∨ ∃ pid, lock = .file pid)
      (outside : pr'.phase.isHolding = false) :
      Effect self lock pr .missing pr'

/-- Everything a file-system call can do to the lock, said once: the invariant
below only looks at these four effects. -/
theorem runStep_effect {self : Pid} {alive : Pid → Bool} {lock lock' : LockEntry}
    {pr pr' : Process} (h : runStep self alive lock pr = some (lock', pr')) :
    pr'.alive = pr.alive ∧ Effect self lock pr lock' pr' := by
  cases hphase : pr.phase <;> simp only [runStep, hphase, Option.some.injEq] at h
  case outside | holding | thrown => contradiction
  case mkdirSync =>
    cases lock <;> obtain ⟨rfl, rfl⟩ := Prod.mk.inj h
    case missing => exact ⟨rfl, .mkdir _ rfl rfl⟩
    all_goals exact ⟨rfl, .unchanged _ (by simp [Phase.isHolding])⟩
  case writeOwnerMetadata =>
    unfold writeOwnerMetadata at h
    split at h <;> obtain ⟨rfl, rfl⟩ := Prod.mk.inj h
    · exact ⟨rfl, .own _ rfl⟩
    all_goals exact ⟨rfl, .unchanged _ (by simp [Phase.isHolding])⟩
  case lstatExisting =>
    obtain ⟨rfl, rfl⟩ := Prod.mk.inj h
    cases lock with
    | missing => exact ⟨by simp [lstatExisting], .unchanged _ (by simp [lstatExisting])⟩
    | directory | file => exact ⟨rfl, .unchanged _ (by simp [lstatExisting, Phase.isHolding])⟩
  case readOwnerFile =>
    obtain ⟨rfl, rfl⟩ := Prod.mk.inj h
    unfold readOwnerFile
    split <;> exact ⟨by simp, .unchanged _ (by simp)⟩
  case readLegacyFile =>
    obtain ⟨rfl, rfl⟩ := Prod.mk.inj h
    cases lock <;> exact ⟨by simp [readLegacyFile], .unchanged _ (by simp [readLegacyFile])⟩
  case isProcessAlive =>
    obtain ⟨rfl, rfl⟩ := Prod.mk.inj h
    exact ⟨by simp [isProcessAlive], .unchanged _ (by simp [isProcessAlive])⟩
  case lstatRemove caller =>
    obtain ⟨rfl, rfl⟩ := Prod.mk.inj h
    cases lock with
    | missing => exact ⟨by simp [lstatRemove], .unchanged _ (by simp [lstatRemove])⟩
    -- Only the call made by `releaseLock` is still inside the critical section.
    | directory | file =>
        exact ⟨rfl, .unchanged _ (by cases caller <;> simp [lstatRemove, Phase.isHolding, hphase])⟩
  case rmSync caller =>
    obtain ⟨rfl, rfl⟩ := Prod.mk.inj h
    exact ⟨by simp, .remove _ caller (.inl hphase) (by simp)⟩
  case unlinkSync caller =>
    cases lock <;> obtain ⟨rfl, rfl⟩ := Prod.mk.inj h
    case file => exact ⟨by simp, .remove _ caller (.inr ⟨_, rfl⟩) (by simp)⟩
    all_goals exact ⟨by simp, .unchanged _ (by simp)⟩

/-- Every holder's PID is in the owner file. -/
def HoldersOwn (s : State) : Prop :=
  ∀ p, s.Holds p → s.lock = .directory (.present (some p))

theorem HoldersOwn.mutualExclusion {s : State} (h : HoldersOwn s) : MutualExclusion s := by
  intro p q hp hq
  have same := (h p hp).symm.trans (h q hq)
  simpa using same

theorem holders_own_initial (s : State) (h : Initial s) : HoldersOwn s := by
  rintro p ⟨_, hp⟩
  rw [h p] at hp
  contradiction

/-- A step that keeps the lock and lets nobody enter keeps the invariant. -/
theorem HoldersOwn.of_no_new_holder {s t : State} (h : HoldersOwn s) (hlock : t.lock = s.lock)
    (holders : ∀ p, t.Holds p → s.Holds p) : HoldersOwn t :=
  fun p hp => hlock.trans (h p (holders p hp))

theorem holds_setProcess_of_ne {s : State} {p q : Pid} {pr : Process} (lock : LockEntry)
    (hne : p ≠ q) (h : ({ s with lock }.setProcess q pr).Holds p) : s.Holds p := by
  obtain ⟨ha, hp⟩ := h
  simp only [State.alive, State.setProcess_of_ne _ _ hne] at ha
  rw [State.setProcess_of_ne _ _ hne] at hp
  exact ⟨ha, hp⟩

theorem holders_own_run {s t : State} {q : Pid} (h : HoldersOwn s)
    (guard : RemovesNoLiveLock s q) (hstep : s.step (.run q) = some t) : HoldersOwn t := by
  simp only [State.step] at hstep
  split at hstep
  case isFalse => contradiction
  case isTrue halive =>
    cases hrun : runStep q s.alive s.lock (s.processes q) with
    | none => simp only [hrun] at hstep; contradiction
    | some result =>
        obtain ⟨lock', pr'⟩ := result
        simp only [hrun, Option.some.injEq] at hstep
        subst hstep
        obtain ⟨aliveSame, effect⟩ := runStep_effect hrun
        intro p hp
        rw [State.setProcess_lock]
        by_cases hpq : p = q
        · -- The process that moved: it holds now, so it wrote the owner file or held before.
          subst p
          have hphase : pr'.phase.isHolding = true := by simpa using hp.2
          cases effect with
          | unchanged _ enters => exact h q ⟨halive, enters hphase⟩
          | mkdir _ _ outside => rw [outside] at hphase; contradiction
          | own => rfl
          | remove _ _ _ outside => rw [outside] at hphase; contradiction
        · -- Somebody else holds: the owner file names them, which rules out the other effects.
          have hs : s.Holds p := holds_setProcess_of_ne _ hpq hp
          have howner := h p hs
          cases effect with
          | unchanged => exact howner
          | mkdir _ free => rw [free] at howner; contradiction
          | own _ unowned => simp [unowned] at howner
          | remove _ caller removing =>
              rcases removing with hremove | ⟨pid, hfile⟩
              · cases caller with
                | releaseLock =>
                    have hq : s.Holds q := ⟨halive, by rw [hremove]; rfl⟩
                    exact absurd (h.mutualExclusion p q hs hq) hpq
                | staleLock | failedWrite =>
                    simp only [RemovesNoLiveLock, hremove, howner] at guard
                    exact absurd (guard hs.1) hpq
              · rw [hfile] at howner; contradiction

theorem holders_own_preserved : system.Preserved RespectsOwner HoldersOwn where
  init := holders_own_initial
  step s a t h guard hstep := by
    cases a with
    | run q => exact holders_own_run h guard hstep
    | acquireLock q | releaseLock q | die q =>
        simp only [system, State.step] at hstep
        split at hstep
        case isFalse => contradiction
        case isTrue hq =>
          obtain rfl := Option.some.inj hstep
          refine h.of_no_new_holder rfl fun p hp => ?_
          by_cases hpq : p = q
          · subst p
            obtain ⟨ha, hphase⟩ := hp
            simp_all [State.Holds, State.alive, Process.acquireLock, Phase.isHolding]
          · exact holds_setProcess_of_ne s.lock hpq hp

theorem step_run {s : State} {q : Pid} {lock : LockEntry} {pr : Process}
    (halive : s.alive q = true)
    (hrun : runStep q s.alive s.lock (s.processes q) = some (lock, pr)) :
    system.step s (.run q) = some ({ s with lock }.setProcess q pr) := by
  simp only [system, State.step, halive, hrun, ↓reduceIte]

/-- The guard cannot be dropped: a waiter about to act on a stale verdict while
somebody else holds the lock is three calls away from holding it as well. -/
theorem holds_both_of_stale_removal {s : State} {p q : Pid} (hp : s.Holds p)
    (hne : p ≠ q) (halive : s.alive q = true)
    (hphase : (s.processes q).phase = .rmSync .staleLock)
    (hattempt : (s.processes q).attempt + 1 < maxRetries) :
    ∃ t, system.exec s [.run q, .run q, .run q] = some t ∧ t.Holds p ∧ t.Holds q := by
  let retry : Process :=
    { s.processes q with phase := .mkdirSync, attempt := (s.processes q).attempt + 1 }
  let removed : State := { s with lock := .missing }.setProcess q retry
  let made : State :=
    { removed with lock := .directory .absent }.setProcess q (retry.goto .writeOwnerMetadata)
  let owned : State :=
    { made with lock := .directory (.present (some q)) }.setProcess q
      ((retry.goto .writeOwnerMetadata).goto .holding)
  have remove : system.step s (.run q) = some removed := by
    apply step_run halive
    simp only [runStep, hphase, rmSync, Process.afterRemove, Process.continueLoop, hattempt,
      ↓reduceIte, retry]
  have mkdir : system.step removed (.run q) = some made := by
    apply step_run (by simpa [removed, State.alive, retry] using halive)
    simp [runStep, removed, mkdirSync, retry]
  have write : system.step made (.run q) = some owned := by
    apply step_run (by simpa [made, State.alive, retry] using halive)
    simp [runStep, made, writeOwnerMetadata]
  refine ⟨owned, ?_, ?_, ?_⟩
  · rw [Transition.System.exec_cons remove, Transition.System.exec_cons mkdir,
      Transition.System.exec_cons write]
    rfl
  · obtain ⟨ha, hh⟩ := hp
    have same : owned.processes p = s.processes p := by
      simp [owned, made, removed, State.setProcess, Function.update_of_ne hne]
    exact ⟨by rwa [State.alive, same], by rwa [same]⟩
  · exact ⟨by simpa [State.alive, owned, retry] using halive,
      by simp [owned, Phase.isHolding]⟩

/-- In a run in which neither the removal after a stale verdict nor the one
after a failed owner write takes down a live process's lock, no two live
processes are ever inside the critical section together. -/
theorem mutualExclusion_of_respectsOwner (s₀ s : State) (run : List Action)
    (init : Initial s₀) (guarded : system.Guarded RespectsOwner s₀ run)
    (reached : system.exec s₀ run = some s) : MutualExclusion s :=
  (holders_own_preserved.exec init guarded reached).mutualExclusion

/-- No process has run yet, every PID is alive, and `lockPath` is free. -/
def vacant : State := { lock := .missing, processes := fun _ => Process.fresh true }

/-- Process 3 dies inside the critical section, and process 1 takes its lock
over: the removal it makes is of a dead process's lock. -/
def takeoverRun : List Action :=
  [.acquireLock 3, .run 3, .run 3, .die 3,
    .acquireLock 1, .run 1, .run 1, .run 1, .run 1, .run 1, .run 1, .run 1, .run 1]

theorem takeoverRun_isSome : (system.exec vacant takeoverRun).isSome := by decide

theorem takeover_mutualExclusion :
    ∃ s, system.exec vacant takeoverRun = some s ∧ s.Holds 1 ∧ MutualExclusion s :=
  ⟨_, (Option.some_get takeoverRun_isSome).symm, by decide,
    mutualExclusion_of_respectsOwner vacant _ takeoverRun (fun _ => rfl) (by decide)
      (Option.some_get takeoverRun_isSome).symm⟩

/-- Both waiters read the dead holder's PID before either of them acts on it.
Process 2 removes the stale lock and acquires, then process 1 removes the lock
that process 2 now owns. -/
def doubleStealRun : List Action :=
  [.acquireLock 3, .run 3, .run 3, .die 3,
    .acquireLock 1, .run 1, .run 1, .run 1, .run 1, .run 1,
    .acquireLock 2, .run 2, .run 2, .run 2, .run 2, .run 2, .run 2, .run 2, .run 2,
    .run 1, .run 1, .run 1]

theorem doubleStealRun_isSome : (system.exec vacant doubleStealRun).isSome := by decide

theorem doubleSteal_not_mutualExclusion :
    ¬ ∀ s₀ s run, Initial s₀ → system.exec s₀ run = some s → MutualExclusion s := by
  intro claim
  have exclusive := claim vacant _ doubleStealRun (fun _ => rfl)
    (Option.some_get doubleStealRun_isSome).symm
  have both : (1 : Pid) = 2 := exclusive 1 2 (by decide) (by decide)
  contradiction

end ErrorCore.FileLock
