import Mathlib.Data.List.Basic

/-!
# Chains of tasks

Tasks that are run one after another by a promise tail: a new task waits for the
task that the tail belongs to, and the tail becomes its own. Nothing but the
link of each task keeps them in order, so that they do not overlap is a property
of the chain and not of its representation.

A task's link and stage are functions of the task. `Serial` says that every task
is linked to the one before it and that all tasks before a started one have
settled.
-/

namespace PromiseChain

universe u

inductive Stage
  | waiting
  | running
  | settled
  deriving DecidableEq, Repr

/-- The index that a task at this place is linked to. -/
def predecessor : Nat → Option Nat
  | 0 => none
  | k + 1 => some k

variable {τ : Type u}

/-- The task that this one is linked to has settled. -/
def Released (stage : τ → Stage) (tasks : List τ) (link : Option Nat) : Prop :=
  ∀ p, link = some p → ∃ task, tasks[p]? = some task ∧ stage task = .settled

structure Serial (link : τ → Option Nat) (stage : τ → Stage) (tasks : List τ)
    (tail : Option Nat) : Prop where
  tail_eq : tail = predecessor tasks.length
  linked : ∀ (k : Nat) (task : τ), tasks[k]? = some task → link task = predecessor k
  ordered : ∀ (k : Nat) (task : τ), tasks[k]? = some task → stage task ≠ .waiting →
    ∀ (i : Nat) (other : τ), i < k → tasks[i]? = some other → stage other = .settled

variable {link : τ → Option Nat} {stage : τ → Stage} {tasks : List τ} {tail : Option Nat}
variable {k i : Nat} {task task' other : τ}

theorem released_zero : Released stage tasks (predecessor 0) := by
  intro p hp
  simp [predecessor] at hp

namespace Serial

theorem nil : Serial link stage [] none where
  tail_eq := rfl
  linked := by simp
  ordered := by simp

theorem push (h : Serial link stage tasks tail) (hlink : link task = tail)
    (hstage : stage task = .waiting) :
    Serial link stage (tasks ++ [task]) (some tasks.length) where
  tail_eq := by simp [predecessor]
  linked := by
    intro k other hk
    rw [List.getElem?_append] at hk
    split at hk
    · exact h.linked k other hk
    · next hge =>
        obtain ⟨hzero, rfl⟩ := List.getElem?_eq_some_iff.mp hk
        have hlast : k = tasks.length := by
          simp only [List.length_singleton] at hzero
          omega
        simpa [hlast] using hlink.trans h.tail_eq
  ordered := by
    intro k other hk hstarted i earlier hik hi
    rw [List.getElem?_append] at hk
    split at hk
    · next hlt =>
        rw [List.getElem?_append_left (by omega)] at hi
        exact h.ordered k other hk hstarted i earlier hik hi
    · obtain ⟨hzero, rfl⟩ := List.getElem?_eq_some_iff.mp hk
      simp [hstage] at hstarted

/-- Once a task has settled, so have all before it. -/
theorem settled_of_le (h : Serial link stage tasks tail) (hk : tasks[k]? = some task)
    (hstage : stage task = .settled) (hle : i ≤ k) (hi : tasks[i]? = some other) :
    stage other = .settled := by
  rcases Nat.lt_or_eq_of_le hle with hlt | rfl
  · exact h.ordered k task hk (by simp [hstage]) i other hlt hi
  · rw [hk, Option.some.injEq] at hi
    rw [← hi, hstage]

/-- All tasks before a released one have settled. -/
theorem settled_of_released (h : Serial link stage tasks tail) (hk : tasks[k]? = some task)
    (released : Released stage tasks (link task)) (hlt : i < k) (hi : tasks[i]? = some other) :
    stage other = .settled := by
  rw [h.linked k task hk] at released
  cases k with
  | zero => omega
  | succ p =>
      obtain ⟨before, hp, hsettled⟩ := released p rfl
      exact h.settled_of_le hp hsettled (by omega) hi

/-- A task goes on, starting only once it is released and staying settled once it is. -/
theorem set (h : Serial link stage tasks tail) (hk : tasks[k]? = some task)
    (hlink : link task' = link task)
    (hstart : stage task = .waiting → Released stage tasks (link task))
    (hsettled : stage task = .settled → stage task' = .settled) :
    Serial link stage (tasks.set k task') tail where
  tail_eq := by rw [List.length_set, h.tail_eq]
  linked := by
    intro j other hj
    rw [List.getElem?_set] at hj
    split at hj
    · next heq =>
        split at hj
        · cases hj
          rw [hlink, ← heq, h.linked k task hk]
        · contradiction
    · exact h.linked j other hj
  ordered := by
    intro j other hj hstarted i earlier hij hi
    have before : ∀ (e : τ), tasks[i]? = some e → stage e = .settled := by
      intro e he
      rw [List.getElem?_set] at hj
      split at hj
      · next heq =>
          subst heq
          by_cases hwait : stage task = .waiting
          · exact h.settled_of_released hk (hstart hwait) hij he
          · exact h.ordered k task hk hwait i e hij he
      · exact h.ordered j other hj hstarted i e hij he
    rw [List.getElem?_set] at hi
    split at hi
    · next heq =>
        split at hi
        · cases hi
          exact hsettled (before task (heq ▸ hk))
        · contradiction
    · exact before earlier hi

/-- Two tasks that both run are one. -/
theorem unique (h : Serial link stage tasks tail) (hk : tasks[k]? = some task)
    (hrun : stage task = .running) (hi : tasks[i]? = some other)
    (hrun' : stage other = .running) : i = k := by
  rcases Nat.lt_trichotomy i k with hlt | heq | hgt
  · have hsettled := h.ordered k task hk (by simp [hrun]) i other hlt hi
    simp [hrun'] at hsettled
  · exact heq
  · have hsettled := h.ordered i other hi (by simp [hrun']) k task hgt hk
    simp [hrun] at hsettled

theorem length_filter_le_one {p : τ → Bool}
    (h : ∀ (i j : Nat) (a b : τ), tasks[i]? = some a → tasks[j]? = some b → p a = true →
      p b = true → i = j) : (tasks.filter p).length ≤ 1 := by
  induction tasks with
  | nil => simp
  | cons x xs ih =>
      by_cases hx : p x = true
      · have hrest : xs.filter p = [] := by
          rw [List.filter_eq_nil_iff]
          intro y hy hpy
          obtain ⟨j, hj⟩ := List.mem_iff_getElem?.mp hy
          have := h 0 (j + 1) x y rfl (by simpa using hj) hx hpy
          omega
        simp [List.filter_cons, hx, hrest]
      · rw [List.filter_cons_of_neg hx]
        apply ih
        intro i j a b hi hj ha hb
        have := h (i + 1) (j + 1) a b (by simpa using hi) (by simpa using hj) ha hb
        omega

theorem running_le_one (h : Serial link stage tasks tail) :
    (tasks.filter fun task => stage task = .running).length ≤ 1 := by
  apply length_filter_le_one
  intro i j a b hi hj ha hb
  simp only [decide_eq_true_eq] at ha hb
  exact h.unique hj hb hi ha

/-- While a task is released but not settled, no other task runs. -/
theorem not_running_of_released (h : Serial link stage tasks tail) (hk : tasks[k]? = some task)
    (released : Released stage tasks (link task)) (hstage : stage task ≠ .settled)
    (hi : tasks[i]? = some other) (hne : i ≠ k) : stage other ≠ .running := by
  intro hrun
  rcases Nat.lt_or_gt_of_ne hne with hlt | hgt
  · have hsettled := h.settled_of_released hk released hlt hi
    simp [hrun] at hsettled
  · exact hstage (h.ordered i other hi (by simp [hrun]) k task hgt hk)

end Serial

/-- A task may move when it runs already, or waits and is released. -/
def HasTurn (stage : τ → Stage) (link : τ → Option Nat) (tasks : List τ) (task : τ) : Prop :=
  stage task = .running ∨ stage task = .waiting ∧ Released stage tasks (link task)

theorem Serial.move (h : Serial link stage tasks tail) (hk : tasks[k]? = some task)
    (turn : HasTurn stage link tasks task) (hlink : link task' = link task) :
    Serial link stage (tasks.set k task') tail := by
  refine h.set hk hlink ?_ ?_
  · intro hwait
    rcases turn with hrun | ⟨_, released⟩
    · simp [hwait] at hrun
    · exact released
  · intro hsettled
    rcases turn with hrun | ⟨hwait, _⟩
    · simp [hsettled] at hrun
    · simp [hsettled] at hwait

/-- While a task has its turn, no other one runs. -/
theorem Serial.not_running (h : Serial link stage tasks tail) (hk : tasks[k]? = some task)
    (turn : HasTurn stage link tasks task) (hi : tasks[i]? = some other) (hne : i ≠ k) :
    stage other ≠ .running := by
  rcases turn with hrun | ⟨hwait, released⟩
  · intro hrun'
    exact hne (h.unique hk hrun hi hrun')
  · exact h.not_running_of_released hk released (by simp [hwait]) hi hne

/-- What holds of a task while it runs, and what holds while none does. -/
structure Turns (stage : τ → Stage) (tasks : List τ) (run : τ → Prop) (rest : Prop) : Prop where
  running : ∀ (k : Nat) (task : τ), tasks[k]? = some task → stage task = .running → run task
  resting : (∀ (k : Nat) (task : τ), tasks[k]? = some task → stage task ≠ .running) → rest

namespace Turns

variable {run run' : τ → Prop} {rest rest' : Prop}

theorem mono (h : Turns stage tasks run rest)
    (hrun : ∀ task ∈ tasks, stage task = .running → run task → run' task)
    (hrest : rest → rest') : Turns stage tasks run' rest' where
  running k task hk hstage :=
    hrun task (List.mem_of_getElem? hk) hstage (h.running k task hk hstage)
  resting hidle := hrest (h.resting hidle)

/-- Nothing runs when a waiting task is released. -/
theorem rest_of_released (h : Turns stage tasks run rest) (serial : Serial link stage tasks tail)
    (hk : tasks[k]? = some task) (hwait : stage task = .waiting)
    (released : Released stage tasks (link task)) : rest := by
  apply h.resting
  intro i other hi
  by_cases hik : i = k
  · subst hik
    rw [hk, Option.some.injEq] at hi
    simp [← hi, hwait]
  · exact serial.not_running hk (.inr ⟨hwait, released⟩) hi hik

theorem push (h : Turns stage tasks run rest) (hwait : stage task = .waiting) :
    Turns stage (tasks ++ [task]) run rest where
  running := by
    intro k other hk hrun
    rw [List.getElem?_append] at hk
    split at hk
    · exact h.running k other hk hrun
    · obtain ⟨_, rfl⟩ := List.getElem?_eq_some_iff.mp hk
      simp [hwait] at hrun
  resting := by
    intro hidle
    apply h.resting
    intro k other hk
    exact hidle k other (by
      rw [List.getElem?_append_left (List.getElem?_eq_some_iff.mp hk).1]
      exact hk)

/-- A task that has its turn moves. Only what holds of it from then on is to be shown. -/
theorem move (serial : Serial link stage tasks tail) (hk : tasks[k]? = some task)
    (turn : HasTurn stage link tasks task) (hrun : stage task' = .running → run' task')
    (hrest : stage task' ≠ .running → rest') :
    Turns stage (tasks.set k task') run' rest' where
  running := by
    intro i other hi hstage
    rw [List.getElem?_set] at hi
    split at hi
    · split at hi
      · cases hi
        exact hrun hstage
      · contradiction
    · next hne => exact absurd hstage (serial.not_running hk turn hi (Ne.symm hne))
  resting := by
    intro hidle
    apply hrest
    apply hidle k task'
    rw [List.getElem?_set_self (List.getElem?_eq_some_iff.mp hk).1]

end Turns

end PromiseChain
