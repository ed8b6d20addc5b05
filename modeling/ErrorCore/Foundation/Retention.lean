import Mathlib.Data.List.DropRight
import Mathlib.Data.List.Perm.Basic

/-!
# Keeping the newest by an order

A cleanup that sorts what is there and deletes all but the greatest items is
meant to delete the oldest one. `OldestFirst` is the condition on the order
under which it does, and `perm_rtake_iff` says that no weaker one is enough.
-/

namespace Retention

universe u
variable {α : Type u} {le : α → α → Prop} {limit : Nat} {items kept : List α}

/-- What is kept are the first items in descending order, as many as the limit. -/
def KeepsGreatest (le : α → α → Prop) (limit : Nat) (items kept : List α) : Prop :=
  ∃ sorted : List α, sorted.Perm items ∧ sorted.Pairwise (fun a b => le b a) ∧
    kept.Perm (sorted.take limit)

/-- The items are in the order of their age. When there is one more than the limit, the oldest is
below the others. -/
def OldestFirst (le : α → α → Prop) (limit : Nat) : List α → Prop
  | [] => True
  | oldest :: rest => rest.length = limit → ∀ later ∈ rest, ¬ le later oldest

instance decidableOldestFirst (le : α → α → Prop) [h : DecidableRel le] (limit : Nat) :
    ∀ items : List α, Decidable (OldestFirst le limit items)
  | [] => .isTrue trivial
  | oldest :: rest =>
      inferInstanceAs (Decidable (rest.length = limit → ∀ later ∈ rest, ¬ le later oldest))

theorem rtake_eq_self {list : List α} (h : list.length ≤ limit) : list.rtake limit = list := by
  rw [List.rtake, Nat.sub_eq_zero_of_le h, List.drop_zero]

theorem length_rtake_le (list : List α) (limit : Nat) : (list.rtake limit).length ≤ limit := by
  rw [List.rtake, List.length_drop]
  omega

/-- Only what was kept before matters for what is kept of one item more. -/
theorem rtake_concat (list : List α) (x : α) (limit : Nat) :
    (list ++ [x]).rtake limit = (list.rtake limit ++ [x]).rtake limit := by
  cases limit with
  | zero => simp
  | succ limit =>
      rw [List.rtake_concat_succ, List.rtake_concat_succ]
      congr 1
      simp only [List.rtake_eq_reverse_take_reverse, List.reverse_reverse, List.take_take]
      rw [Nat.min_eq_left (Nat.le_succ limit)]

theorem KeepsGreatest.perm_rtake_of_length_le (h : KeepsGreatest le limit items kept)
    (hlength : items.length ≤ limit) : kept.Perm (items.rtake limit) := by
  obtain ⟨sorted, hperm, -, hkept⟩ := h
  rw [List.take_of_length_le (hperm.length_eq.trans_le hlength)] at hkept
  rw [rtake_eq_self hlength]
  exact hkept.trans hperm

/-- The newest items are kept if and only if the oldest is below the others where it has to go. -/
theorem KeepsGreatest.perm_rtake_iff (h : KeepsGreatest le limit items kept)
    (hlength : items.length ≤ limit + 1) (hnodup : items.Nodup)
    (hanti : ∀ a ∈ items, ∀ b ∈ items, le a b → le b a → a = b) :
    kept.Perm (items.rtake limit) ↔ OldestFirst le limit items := by
  cases items with
  | nil => exact ⟨fun _ => trivial, fun _ => h.perm_rtake_of_length_le (Nat.zero_le _)⟩
  | cons oldest rest =>
      rcases Nat.lt_or_eq_of_le (Nat.le_of_succ_le_succ hlength) with hfew | hfull
      · constructor
        · exact fun _ heq => absurd heq (Nat.ne_of_lt hfew)
        · exact fun _ => h.perm_rtake_of_length_le hfew
      · obtain ⟨sorted, hperm, hsorted, hkept⟩ := h
        have hlast : (oldest :: rest).rtake limit = rest := by
          rw [List.rtake, List.length_cons, hfull, Nat.add_sub_cancel_left]
          rfl
        rw [hlast]
        -- the last of the sorted items is the one that is deleted
        have hne : sorted ≠ [] := by
          rintro rfl
          exact absurd hperm.length_eq (Nat.zero_ne_add_one _)
        obtain ⟨first, least, rfl⟩ := (List.eq_nil_or_concat' sorted).resolve_left hne
        have hfirst : first.length = limit := by
          have := hperm.length_eq
          rw [List.length_append, List.length_singleton, List.length_cons, hfull] at this
          exact Nat.succ.inj this
        rw [← hfirst, List.take_left] at hkept
        have hleast : ∀ a ∈ first, le least a := fun a ha =>
          (List.pairwise_append.mp hsorted).2.2 a ha least List.mem_cons_self
        have hsplit : (least :: first).Perm (oldest :: rest) :=
          (List.perm_append_singleton least first).symm.trans hperm
        constructor
        · intro hrest _ later hlater hle
          have hsame : first.Perm rest := hkept.symm.trans hrest
          have hdeleted : least = oldest := by
            have hcons := (hsame.symm.cons least).trans hsplit
            exact List.singleton_perm_singleton.mp
              ((List.perm_append_right_iff rest).mp (by simpa using hcons))
          subst hdeleted
          have hge := hleast later (hsame.symm.subset hlater)
          have heq := hanti later (List.mem_cons_of_mem _ hlater) least List.mem_cons_self hle hge
          exact (List.nodup_cons.mp hnodup).1 (heq ▸ hlater)
        · intro holdest
          have hdeleted : least = oldest := by
            rcases List.mem_cons.mp (hsplit.subset List.mem_cons_self) with heq | hlater
            · exact heq
            · rcases List.mem_cons.mp (hsplit.symm.subset List.mem_cons_self) with heq | hkeeps
              · exact heq.symm
              · exact absurd (hleast oldest hkeeps) (holdest hfull least hlater)
          subst hdeleted
          exact hkept.trans hsplit.cons_inv

/-- Deleting by distinct keys what comes after the first items leaves these. -/
theorem filter_notMem_drop {κ : Type*} [DecidableEq κ] {key : α → κ}
    (h : (items.map key).Nodup) (limit : Nat) :
    (items.filter fun item => key item ∉ (items.map key).drop limit) = items.take limit := by
  have hsplit : items.take limit ++ items.drop limit = items := List.take_append_drop limit items
  have hkeys : ((items.take limit).map key ++ (items.drop limit).map key).Nodup := by
    rwa [← List.map_append, hsplit]
  have hdisjoint := (List.nodup_append.mp hkeys).2.2
  rw [← List.map_drop]
  have hfirst : ((items.take limit).filter fun item => key item ∉ (items.drop limit).map key) =
      items.take limit := by
    apply List.filter_eq_self.mpr
    intro item hitem
    rw [decide_eq_true_eq]
    exact fun hmem => hdisjoint _ (List.mem_map_of_mem hitem) _ hmem rfl
  have hothers : ((items.drop limit).filter fun item => key item ∉ (items.drop limit).map key) =
      [] := by
    apply List.filter_eq_nil_iff.mpr
    intro item hitem
    rw [decide_eq_true_eq, not_not]
    exact List.mem_map_of_mem hitem
  calc items.filter (fun item => key item ∉ (items.drop limit).map key)
      = (items.take limit ++ items.drop limit).filter
          (fun item => key item ∉ (items.drop limit).map key) := by rw [hsplit]
    _ = items.take limit := by rw [List.filter_append, hfirst, hothers, List.append_nil]

end Retention
