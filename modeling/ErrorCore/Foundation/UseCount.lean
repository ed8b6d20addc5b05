import Mathlib.Data.List.Basic
import Mathlib.Logic.Function.Basic

/-!
# Use counts

A map that counts the uses of a key and forgets the key with its last use. It
counts a list of uses when each key has the number of its occurrences.
-/

universe u

abbrev UseCount (κ : Type u) : Type u := κ → Option Nat

namespace UseCount

variable {κ : Type u} [DecidableEq κ]

def empty : UseCount κ := fun _ => none

/-- One more use of the key. -/
def mark (m : UseCount κ) (key : κ) : UseCount κ :=
  Function.update m key (some ((m key).getD 0 + 1))

/-- One use less; a key that is not there stays away. -/
def release (m : UseCount κ) (key : κ) : UseCount κ :=
  match m key with
  | none => m
  | some count => Function.update m key (if count ≤ 1 then none else some (count - 1))

/-- The map has the number of uses of each key that has one. -/
def Counts (m : UseCount κ) (uses : κ → Nat) : Prop :=
  ∀ key, m key = if uses key = 0 then none else some (uses key)

variable {m : UseCount κ} {uses : κ → Nat} {key : κ}

theorem counts_empty : Counts (empty : UseCount κ) fun _ => 0 := fun _ => rfl

theorem Counts.mark (h : m.Counts uses) (key : κ) :
    (m.mark key).Counts (Function.update uses key (uses key + 1)) := by
  intro other
  by_cases heq : other = key
  · subst heq
    have hcount : (m other).getD 0 = uses other := by
      rw [h other]
      split
      · next hzero => exact hzero.symm
      · rfl
    rw [UseCount.mark, Function.update_self, Function.update_self, hcount]
    rfl
  · rw [UseCount.mark, Function.update_of_ne heq, Function.update_of_ne heq]
    exact h other

theorem Counts.release (h : m.Counts uses) (key : κ) (hused : uses key ≠ 0) :
    (m.release key).Counts (Function.update uses key (uses key - 1)) := by
  have hkey : m key = some (uses key) := (h key).trans (if_neg hused)
  intro other
  rw [UseCount.release, hkey]
  dsimp only
  by_cases heq : other = key
  · subst heq
    rw [Function.update_self, Function.update_self]
    by_cases hlast : uses other ≤ 1
    · have hzero : uses other - 1 = 0 := Nat.sub_eq_zero_of_le hlast
      rw [if_pos hlast, if_pos hzero]
    · have hmore : uses other - 1 ≠ 0 := by omega
      rw [if_neg hlast, if_neg hmore]
  · rw [Function.update_of_ne heq, Function.update_of_ne heq]
    exact h other

/-- Exactly the keys in use are there. -/
theorem Counts.eq_none_iff (h : m.Counts uses) : m key = none ↔ uses key = 0 := by
  rw [h key]
  split
  · next hzero => exact ⟨fun _ => hzero, fun _ => rfl⟩
  · next hused =>
      exact ⟨fun hnone => absurd hnone (Option.some_ne_none _), fun hz => absurd hz hused⟩

theorem Counts.congr {uses' : κ → Nat} (h : m.Counts uses) (heq : ∀ key, uses key = uses' key) :
    m.Counts uses' :=
  funext heq ▸ h

end UseCount
