import Mathlib.Data.List.DropRight
import Mathlib.Data.List.Rotate
import Mathlib.Data.Nat.ModEq
import Mathlib.Logic.Function.Basic

/-!
# Ring logs

A log kept in `cap` cells, where entry `k` of the history goes to cell
`k % cap`. Once the cells are used up a new entry overwrites the oldest, so that
the last `cap` entries of the history are there, and reading starts behind the
cell written last.
-/

universe u

namespace RingLog

variable {α : Type u} {cap : Nat} {slots : Nat → Option α} {history : List α}

/-- Each of the last `cap` entries of the history is in its cell. -/
def Holds (cap : Nat) (slots : Nat → Option α) (history : List α) : Prop :=
  ∀ k, k < history.length → history.length ≤ k + cap → slots (k % cap) = history[k]?

/-- The entries from a starting cell on. -/
def read (cap : Nat) (slots : Nat → Option α) (count start : Nat) : List α :=
  (List.range count).filterMap fun i => slots ((start + i) % cap)

theorem holds_nil : Holds cap slots [] := fun _ hk => absurd hk (Nat.not_lt_zero _)

/-- Two entries less than `cap` apart have different cells. -/
theorem mod_ne_mod {k n : Nat} (hlt : k < n) (hnear : n < k + cap) : k % cap ≠ n % cap := by
  intro hmod
  have hdvd : cap ∣ n - k := (Nat.modEq_iff_dvd' (Nat.le_of_lt hlt)).mp hmod
  have hle : cap ≤ n - k := Nat.le_of_dvd (by omega) hdvd
  omega

theorem Holds.append (h : Holds cap slots history) (x : α) :
    Holds cap (Function.update slots (history.length % cap) (some x)) (history ++ [x]) := by
  intro k hk hnear
  rw [List.length_append, List.length_singleton] at hk hnear
  rcases Nat.lt_or_eq_of_le (Nat.le_of_lt_succ hk) with hlt | heq
  · rw [Function.update_of_ne (mod_ne_mod hlt (by omega)), List.getElem?_append_left hlt]
    exact h k hlt (by omega)
  · rw [heq, Function.update_self, List.getElem?_concat_length]

theorem filterMap_range_getElem? (l : List α) :
    ((List.range l.length).filterMap fun i => l[i]?) = l := by
  induction l with
  | nil => rfl
  | cons x l ih =>
      rw [List.length_cons, List.range_succ_eq_map, List.filterMap_cons, List.filterMap_map]
      exact congrArg (x :: ·) ih

/-- Reading the newest `min n cap` entries of `n`, from the first cell while no entry was
overwritten and from the next cell to be written since. -/
theorem Holds.read (h : Holds cap slots history) :
    read cap slots (min history.length cap)
        (if history.length ≤ cap then 0 else history.length) = history.rtake cap := by
  have hlength : (history.rtake cap).length = min history.length cap := by
    rw [List.rtake, List.length_drop]
    omega
  rw [RingLog.read, ← hlength]
  conv_rhs => rw [← filterMap_range_getElem? (history.rtake cap)]
  apply List.filterMap_congr
  intro i hi
  rw [List.mem_range, hlength] at hi
  rw [List.rtake, List.getElem?_drop]
  rw [← h (history.length - cap + i) (by omega) (by omega)]
  congr 1
  by_cases hfull : history.length ≤ cap
  · rw [if_pos hfull, Nat.sub_eq_zero_of_le hfull]
  · rw [if_neg hfull]
    have hover : history.length + i = history.length - cap + i + cap := by omega
    rw [hover, Nat.add_mod_right]

/-- The cells from any of them on are all the cells. -/
theorem map_range_mod_perm (start : Nat) :
    ((List.range cap).map fun i => (start + i) % cap).Perm (List.range cap) := by
  have hrotate : ((List.range cap).map fun i => (start + i) % cap) =
      (List.range cap).rotate start := by
    apply List.ext_getElem
    · rw [List.length_map, List.length_rotate]
    · intro i hi hi'
      rw [List.getElem_map, List.getElem_rotate, List.getElem_range, List.getElem_range,
        List.length_range, Nat.add_comm]
  exact hrotate ▸ List.rotate_perm _ _

/-- Once all cells are used, they hold the last entries in some order. -/
theorem Holds.read_perm (h : Holds cap slots history) (hfull : cap ≤ history.length) :
    ((List.range cap).filterMap slots).Perm (history.rtake cap) := by
  rw [← h.read, Nat.min_eq_right hfull, RingLog.read]
  have hcells : ∀ start, ((List.range cap).filterMap fun i => slots ((start + i) % cap)).Perm
      ((List.range cap).filterMap slots) := by
    intro start
    have hmap : ((List.range cap).filterMap fun i => slots ((start + i) % cap)) =
        ((List.range cap).map fun i => (start + i) % cap).filterMap slots := by
      rw [List.filterMap_map]
      rfl
    rw [hmap]
    exact (map_range_mod_perm start).filterMap slots
  exact (hcells _).symm

end RingLog
