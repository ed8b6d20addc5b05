import Mathlib.Data.Nat.Basic

/-!
# The event clock

`src/context/event-clock.ts`: the counter that stamps every event of a process.
It stops at the largest safe integer, which only `merge` with a peer's value can
bring within reach.
-/

namespace ErrorCore

/-- `Number.MAX_SAFE_INTEGER`. -/
def maxSafeInteger : Nat := 9007199254740991

structure EventClock where
  value : Nat
  deriving DecidableEq, Repr

namespace EventClock

/-- The clock after `tick()`; the call returns its new value. -/
def tick (clock : EventClock) : EventClock :=
  if maxSafeInteger ≤ clock.value then { value := maxSafeInteger }
  else { value := clock.value + 1 }

/-- `merge` of a positive safe integer; any other argument is ignored. -/
def merge (clock : EventClock) (received : Nat) : EventClock :=
  if received ≤ maxSafeInteger ∧ clock.value < received then tick { value := received }
  else clock.tick

theorem value_lt_tick {clock : EventClock} (h : clock.value < maxSafeInteger) :
    clock.value < clock.tick.value := by
  rw [tick, if_neg (Nat.not_le.mpr h)]
  exact Nat.lt_succ_self _

/-- Below the ceiling the clock counts. -/
theorem tick_eq {clock : EventClock} (h : clock.tick.value < maxSafeInteger) :
    clock.tick.value = clock.value + 1 := by
  rw [tick] at h ⊢
  split at h
  · exact absurd h (Nat.lt_irrefl _)
  case isFalse hlow => rw [if_neg hlow]

theorem tick_le (clock : EventClock) : clock.tick.value ≤ maxSafeInteger := by
  rw [tick]
  split
  · exact Nat.le_refl _
  · simp only
    omega

theorem value_le_tick {clock : EventClock} (h : clock.value ≤ maxSafeInteger) :
    clock.value ≤ clock.tick.value := by
  rw [tick]
  split
  · exact h
  · exact Nat.le_succ _

theorem merge_le (clock : EventClock) (received : Nat) :
    (clock.merge received).value ≤ maxSafeInteger := by
  rw [merge]
  split <;> exact tick_le _

theorem value_le_merge {clock : EventClock} (h : clock.value ≤ maxSafeInteger) (received : Nat) :
    clock.value ≤ (clock.merge received).value := by
  rw [merge]
  split
  case isTrue hr => exact Nat.le_trans (Nat.le_of_lt hr.2) (value_le_tick hr.1)
  case isFalse => exact value_le_tick h

/-- Below the ceiling a merge brings the clock past the received number. -/
theorem lt_merge {clock : EventClock} {received : Nat} (hle : received ≤ maxSafeInteger)
    (h : (clock.merge received).value < maxSafeInteger) :
    received < (clock.merge received).value := by
  rw [merge] at h ⊢
  split at h
  case isTrue hr =>
    rw [if_pos hr, tick_eq h]
    exact Nat.lt_succ_self received
  case isFalse hr =>
    rw [if_neg hr, tick_eq h]
    have hclock : received ≤ clock.value := Nat.not_lt.mp fun hlt => hr ⟨hle, hlt⟩
    exact Nat.lt_succ_of_le hclock

end EventClock

end ErrorCore
