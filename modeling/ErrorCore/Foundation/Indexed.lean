import Mathlib.Data.List.Basic

/-!
# Lists as tables

The entries of a list are named by their positions. Entries are added at the end
and replaced in place, so that a name stays with its entry. The lemmas say what
an entry of the new table was in the old one.
-/

universe u

namespace Indexed

variable {α : Type u} {table : List α} {new entry : α} {i j : Nat}

theorem concat_cases (h : (table ++ [new])[j]? = some entry) :
    table[j]? = some entry ∨ j = table.length ∧ entry = new := by
  rcases Nat.lt_or_ge j table.length with hlt | hge
  · exact .inl (by rwa [List.getElem?_append_left hlt] at h)
  · have hmem := List.mem_of_getElem? (List.getElem?_append_right hge ▸ h)
    have hj : j < (table ++ [new]).length := (List.getElem?_eq_some_iff.mp h).1
    rw [List.length_append, List.length_singleton] at hj
    exact .inr ⟨by omega, List.mem_singleton.mp hmem⟩

theorem getElem?_concat_of_some (h : table[j]? = some entry) :
    (table ++ [new])[j]? = some entry := by
  rwa [List.getElem?_append_left (List.getElem?_eq_some_iff.mp h).1]

theorem getElem?_concat_of_ne (h : j ≠ table.length) : (table ++ [new])[j]? = table[j]? := by
  rcases Nat.lt_or_ge j table.length with hlt | hge
  · exact List.getElem?_append_left hlt
  · have hlength : (table ++ [new]).length ≤ j := by
      rw [List.length_append, List.length_singleton]
      omega
    rw [List.getElem?_eq_none hge, List.getElem?_eq_none hlength]

theorem set_cases (h : (table.set i new)[j]? = some entry) :
    j = i ∧ entry = new ∨ j ≠ i ∧ table[j]? = some entry := by
  by_cases heq : i = j
  · subst heq
    obtain ⟨hlt, hget⟩ := List.getElem?_eq_some_iff.mp h
    rw [List.getElem_set_self] at hget
    exact .inl ⟨rfl, hget.symm⟩
  · rw [List.getElem?_set_ne heq] at h
    exact .inr ⟨fun hji => heq hji.symm, h⟩

theorem getElem?_set_self_of_some (h : table[i]? = some entry) (new : α) :
    (table.set i new)[i]? = some new :=
  List.getElem?_set_self (List.getElem?_eq_some_iff.mp h).1

theorem modify_cases {f : α → α} (h : (table.modify i f)[j]? = some entry) :
    (j = i ∧ ∃ old, table[i]? = some old ∧ entry = f old) ∨ j ≠ i ∧ table[j]? = some entry := by
  rw [List.getElem?_modify] at h
  obtain ⟨old, hold, hentry⟩ := Option.map_eq_some_iff.mp h
  by_cases heq : i = j
  · rw [if_pos heq] at hentry
    exact .inl ⟨heq.symm, old, heq ▸ hold, hentry.symm⟩
  · rw [if_neg heq] at hentry
    exact .inr ⟨fun hji => heq hji.symm, hentry ▸ hold⟩

theorem modify_concat (f : α → α) :
    (table ++ [new]).modify table.length f = table ++ [f new] := by
  induction table with
  | nil => rfl
  | cons head table ih =>
      rw [List.cons_append, List.length_cons, List.modify_succ_cons, ih, List.cons_append]

/-- The place of an entry, where every change of it happens. -/
theorem exists_modify_eq (h : table[i]? = some entry) :
    ∃ before after, table = before ++ entry :: after ∧
      ∀ f : α → α, table.modify i f = before ++ f entry :: after := by
  induction table generalizing i with
  | nil => cases h
  | cons head table ih =>
      cases i with
      | zero =>
          obtain rfl : head = entry := Option.some.inj h
          exact ⟨[], table, rfl, fun f => rfl⟩
      | succ i =>
          obtain ⟨before, after, htable, hmodify⟩ := ih h
          refine ⟨head :: before, after, by rw [htable, List.cons_append], fun f => ?_⟩
          rw [List.modify_succ_cons, hmodify, List.cons_append]

/-- One entry less of its kind and one more of the kind of the new one. -/
theorem countP_set (p : α → Bool) (h : table[i]? = some entry) (new : α) :
    (table.set i new).countP p + (if p entry then 1 else 0) =
      table.countP p + if p new then 1 else 0 := by
  induction table generalizing i with
  | nil => exact absurd h.symm (Option.some_ne_none entry)
  | cons head table ih =>
      cases i with
      | zero =>
          obtain rfl : head = entry := Option.some.inj h
          simp only [List.set_cons_zero, List.countP_cons]
          omega
      | succ i =>
          simp only [List.set_cons_succ, List.countP_cons]
          have := ih h
          omega

end Indexed
