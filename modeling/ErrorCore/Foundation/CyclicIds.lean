import Mathlib.Data.List.Nodup
import Mathlib.Data.List.Perm.Subperm
import Mathlib.Data.Nat.ModEq

/-!
# Cyclic identifiers

Identifiers count from 1 to a maximum and start again. `probe` takes the next one
that is free. As many candidates as there are taken identifiers, and one more,
are enough to find it, as long as the candidates differ.
-/

namespace CyclicIds

def next (max n : Nat) : Nat := if max < n + 1 then 1 else n + 1

/-- The last candidate, and the one that is free. -/
def probe (max : Nat) (taken : List Nat) : Nat → Nat → Nat × Option Nat
  | 0, n => (n, none)
  | fuel + 1, n =>
      if next max n ∈ taken then probe max taken fuel (next max n)
      else (next max n, some (next max n))

variable {max n fuel last id : Nat} {taken : List Nat}

theorem next_eq (hn : n ≤ max) (hmax : 0 < max) : next max n = n % max + 1 := by
  rw [next]
  split
  · next hlast =>
    obtain rfl : n = max := by omega
    rw [Nat.mod_self]
  · next hlt => rw [Nat.mod_eq_of_lt (by omega)]

theorem next_le (max n : Nat) (hmax : 0 < max) : 1 ≤ next max n ∧ next max n ≤ max := by
  rw [next]
  split
  · exact ⟨Nat.le_refl _, hmax⟩
  · next hle => exact ⟨by omega, by omega⟩

theorem probe_le (hmax : 0 < max) (hn : n ≤ max) : (probe max taken fuel n).1 ≤ max := by
  induction fuel generalizing n with
  | zero => exact hn
  | succ fuel ih =>
      rw [probe]
      split
      · exact ih (next_le max n hmax).2
      · exact (next_le max n hmax).2

/-- What is found is free, and the last candidate. -/
theorem probe_eq_some (hmax : 0 < max) (h : probe max taken fuel n = (last, some id)) :
    id ∉ taken ∧ last = id ∧ 1 ≤ id ∧ id ≤ max := by
  induction fuel generalizing n with
  | zero => exact nomatch (Prod.mk.inj h).2
  | succ fuel ih =>
      rw [probe] at h
      split at h
      · exact ih h
      · next hfree =>
        obtain ⟨rfl, hid⟩ := Prod.mk.inj h
        obtain rfl := Option.some.inj hid
        exact ⟨hfree, rfl, next_le max n hmax⟩

/-- When nothing is found, the candidates from `n` on are all taken. -/
theorem mem_taken_of_probe (hmax : 0 < max) (hn : n ≤ max)
    (h : (probe max taken fuel n).2 = none) : ∀ k < fuel, (n + k) % max + 1 ∈ taken := by
  induction fuel generalizing n with
  | zero => exact fun k hk => absurd hk (Nat.not_lt_zero k)
  | succ fuel ih =>
      rw [probe] at h
      split at h
      · next htaken =>
        have hnext := next_eq hn hmax
        intro k hk
        cases k with
        | zero =>
            rw [Nat.add_zero]
            rwa [hnext] at htaken
        | succ k =>
            have hrest := ih (next_le max n hmax).2 h k (Nat.lt_of_succ_lt_succ hk)
            have hsame : (next max n + k) % max = (n + (k + 1)) % max := by
              rw [hnext, Nat.add_assoc, Nat.mod_add_mod, Nat.add_comm 1 k]
            rwa [hsame] at hrest
      · exact nomatch h

/-- Candidates that are fewer than the identifiers differ. -/
theorem candidates_nodup {count : Nat} (hcount : count ≤ max) :
    ((List.range count).map fun k => (n + k) % max + 1).Nodup := by
  refine List.Nodup.map_on ?_ List.nodup_range
  intro a ha b hb heq
  have ha := Nat.lt_of_lt_of_le (List.mem_range.mp ha) hcount
  have hb := Nat.lt_of_lt_of_le (List.mem_range.mp hb) hcount
  have hmod : Nat.ModEq max a b := Nat.ModEq.add_left_cancel' n (Nat.succ.inj heq)
  rw [Nat.ModEq, Nat.mod_eq_of_lt ha, Nat.mod_eq_of_lt hb] at hmod
  exact hmod

/-- Not all candidates are taken. -/
theorem probe_isSome (hn : n ≤ max) (hfree : taken.length < max) :
    (probe max taken (taken.length + 1) n).2.isSome = true := by
  have hmax : 0 < max := Nat.lt_of_le_of_lt (Nat.zero_le _) hfree
  rw [Option.isSome_iff_ne_none]
  intro hnone
  have hall := mem_taken_of_probe hmax hn hnone
  have hsub : ((List.range (taken.length + 1)).map fun k => (n + k) % max + 1) ⊆ taken := by
    intro id hid
    obtain ⟨k, hk, rfl⟩ := List.mem_map.mp hid
    exact hall k (List.mem_range.mp hk)
  have hle := (List.subperm_of_subset (candidates_nodup hfree) hsub).length_le
  rw [List.length_map, List.length_range] at hle
  exact Nat.not_succ_le_self _ hle

end CyclicIds
