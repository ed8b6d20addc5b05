import Mathlib.Data.List.Sort

/-!
# Order statistics

The value of rank `i` of a list is the one at index `i` once the list is sorted.
It can be told without sorting: at least `i + 1` values are no larger and at least
all but `i` are no smaller. Only the values count, not their order.
-/

namespace OrderStatistic

universe u
variable {α : Type u} [LinearOrder α] {values others : List α} {i : Nat} {v : α}

structure HasRank (values : List α) (i : Nat) (v : α) : Prop where
  mem : v ∈ values
  below : i + 1 ≤ values.countP (· ≤ v)
  above : values.length - i ≤ values.countP (v ≤ ·)

theorem HasRank.perm (h : HasRank values i v) (hperm : values.Perm others) :
    HasRank others i v where
  mem := hperm.mem_iff.mp h.mem
  below := hperm.countP_eq _ ▸ h.below
  above := hperm.countP_eq _ ▸ hperm.length_eq ▸ h.above

/-- The value between what is before and behind it in a sorted list. -/
theorem hasRank_of_sorted {before after : List α}
    (hsorted : (before ++ v :: after).Pairwise (· ≤ ·)) :
    HasRank (before ++ v :: after) before.length v := by
  obtain ⟨-, hafter, hbefore⟩ := List.pairwise_append.mp hsorted
  have hlow : before.countP (· ≤ v) = before.length := by
    apply List.countP_eq_length.mpr
    intro x hx
    exact decide_eq_true (hbefore x hx v List.mem_cons_self)
  have hhigh : after.countP (v ≤ ·) = after.length := by
    apply List.countP_eq_length.mpr
    intro x hx
    exact decide_eq_true ((List.pairwise_cons.mp hafter).1 x hx)
  have hself : decide (v ≤ v) = true := decide_eq_true (le_refl v)
  refine ⟨List.mem_append_right _ List.mem_cons_self, ?_, ?_⟩
  · rw [List.countP_append, hlow, List.countP_cons, if_pos hself]
    omega
  · rw [List.countP_append, List.countP_cons, if_pos hself, hhigh, List.length_append,
      List.length_cons]
    omega

/-- Sorting finds the value of a rank. -/
theorem hasRank_mergeSort (hi : (values.mergeSort (· ≤ ·))[i]? = some v) : HasRank values i v := by
  have hsorted : (values.mergeSort (· ≤ ·)).Pairwise (· ≤ ·) :=
    (List.pairwise_mergeSort (fun a b c hab hbc => by
      simp only [decide_eq_true_eq] at *
      exact le_trans hab hbc) (fun a b => by
      simp only [Bool.or_eq_true, decide_eq_true_eq]
      exact le_total a b) values).imp of_decide_eq_true
  obtain ⟨hlength, hv⟩ := List.getElem?_eq_some_iff.mp hi
  have hsplit : values.mergeSort (· ≤ ·) =
      (values.mergeSort (· ≤ ·)).take i ++ v :: (values.mergeSort (· ≤ ·)).drop (i + 1) := by
    rw [← hv, ← List.drop_eq_getElem_cons hlength, List.take_append_drop]
  have hcount : ((values.mergeSort (· ≤ ·)).take i).length = i :=
    List.length_take_of_le (Nat.le_of_lt hlength)
  rw [hsplit] at hsorted
  have hrank := hasRank_of_sorted hsorted
  rw [hcount, ← hsplit] at hrank
  exact hrank.perm (List.mergeSort_perm _ _)

end OrderStatistic
