import Mathlib.Data.List.Nodup

/-!
# Maps in insertion order

A `Map` of ECMAScript is represented by its pairs in the order in which their
keys were inserted. `total` sums a measure over the pairs; the lemmas say how
the operations move it, which is what a component that keeps such a sum in a
counter of its own has to follow.
-/

namespace InsertionMap

universe u v
variable {κ : Type u} {ν : Type v}

/-- The sum of a measure over the pairs. -/
def total (measure : κ × ν → Nat) : List (κ × ν) → Nat
  | [] => 0
  | pair :: map => measure pair + total measure map

variable {measure : κ × ν → Nat} {map rest : List (κ × ν)} {pair : κ × ν} {key : κ}

@[simp] theorem total_nil : total measure [] = 0 := rfl

@[simp] theorem total_cons :
    total measure (pair :: map) = measure pair + total measure map := rfl

@[simp] theorem total_append :
    total measure (map ++ rest) = total measure map + total measure rest := by
  induction map with
  | nil => simp
  | cons pair map ih => simp only [List.cons_append, total_cons, ih, Nat.add_assoc]

theorem measure_le_total (h : pair ∈ map) : measure pair ≤ total measure map := by
  induction map with
  | nil => contradiction
  | cons first map ih =>
      simp only [total_cons]
      rcases List.mem_cons.mp h with rfl | hmem
      · omega
      · have := ih hmem
        omega

theorem total_filter_le (p : κ × ν → Bool) : total measure (map.filter p) ≤ total measure map := by
  induction map with
  | nil => exact Nat.le_refl _
  | cons pair map ih =>
      rw [List.filter_cons]
      split
      · simp only [total_cons]
        omega
      · simp only [total_cons]
        omega

/-- Changing the values changes no sum of what the change keeps. -/
theorem total_map {change : κ × ν → κ × ν}
    (h : ∀ pair ∈ map, measure (change pair) = measure pair) :
    total measure (map.map change) = total measure map := by
  induction map with
  | nil => rfl
  | cons pair map ih =>
      rw [List.map_cons, total_cons, total_cons, h pair List.mem_cons_self,
        ih fun other hmem => h other (List.mem_cons_of_mem _ hmem)]

section Keys

variable [DecidableEq κ]

def get? (map : List (κ × ν)) (key : κ) : Option ν :=
  (map.find? fun pair => pair.1 = key).map (·.2)

/-- `map.delete(key)`. -/
def delete (map : List (κ × ν)) (key : κ) : List (κ × ν) :=
  map.filter fun pair => pair.1 ≠ key

/-- `map.set(key, value)`: a key that is there keeps its place. -/
def set (map : List (κ × ν)) (key : κ) (value : ν) : List (κ × ν) :=
  if key ∈ map.map (·.1) then map.map fun pair => if pair.1 = key then (key, value) else pair
  else map ++ [(key, value)]

theorem set_of_notMem {value : ν} (h : key ∉ map.map (·.1)) :
    set map key value = map ++ [(key, value)] :=
  if_neg h

theorem delete_of_notMem (h : key ∉ map.map (·.1)) : delete map key = map := by
  apply List.filter_eq_self.mpr
  intro pair hmem
  simp only [ne_eq, decide_not, Bool.not_eq_true', decide_eq_false_iff_not]
  rintro rfl
  exact h (List.mem_map_of_mem hmem)

/-- Deleting the key of a pair takes out this pair, as keys are distinct. -/
theorem delete_append_cons (h : ((map ++ pair :: rest).map (·.1)).Nodup) :
    delete (map ++ pair :: rest) pair.1 = map ++ rest := by
  rw [List.map_append, List.map_cons, List.nodup_append] at h
  obtain ⟨-, hrest, hdisjoint⟩ := h
  have hfirst : pair.1 ∉ map.map (·.1) := by
    intro hmem
    exact hdisjoint _ hmem _ List.mem_cons_self rfl
  have hsecond : pair.1 ∉ rest.map (·.1) := (List.nodup_cons.mp hrest).1
  have happend : delete (map ++ pair :: rest) pair.1 =
      delete map pair.1 ++ delete rest pair.1 := by
    simp [delete]
  rw [happend, delete_of_notMem hfirst, delete_of_notMem hsecond]

theorem mem_of_get?_eq_some (h : get? map key = some value) : (key, value) ∈ map := by
  obtain ⟨found, hfind, hvalue⟩ := Option.map_eq_some_iff.mp h
  have hkey : found.1 = key := by simpa using List.find?_some hfind
  have hfound : found = (key, value) := Prod.ext hkey hvalue
  exact hfound ▸ List.mem_of_find?_eq_some hfind

theorem get?_eq_some_of_mem (hnodup : (map.map (·.1)).Nodup) (hmem : pair ∈ map) :
    get? map pair.1 = some pair.2 := by
  induction map with
  | nil => cases hmem
  | cons first rest ih =>
      rw [List.map_cons, List.nodup_cons] at hnodup
      unfold get?
      rcases List.mem_cons.mp hmem with rfl | hrest
      · simp
      · have hne : first.1 ≠ pair.1 := by
          intro heq
          exact hnodup.1 (heq ▸ List.mem_map_of_mem hrest)
        rw [List.find?_cons_of_neg (by simpa using hne)]
        exact ih hnodup.2 hrest

theorem get?_cons (pair : κ × ν) (map : List (κ × ν)) (key : κ) :
    get? (pair :: map) key = if pair.1 = key then some pair.2 else get? map key := by
  unfold get?
  rw [List.find?_cons]
  split <;> simp_all

theorem keys_set (map : List (κ × ν)) (key : κ) (value : ν) :
    (set map key value).map (·.1) =
      if key ∈ map.map (·.1) then map.map (·.1) else map.map (·.1) ++ [key] := by
  unfold set
  split
  · rw [List.map_map]
    apply List.map_congr_left
    intro pair _
    simp only [Function.comp]
    split
    · next heq => exact heq.symm
    · rfl
  · rw [List.map_append, List.map_singleton]

theorem nodup_keys_set (h : (map.map (·.1)).Nodup) : ((set map key value).map (·.1)).Nodup := by
  rw [keys_set]
  split
  · exact h
  · next hnew =>
      rw [List.nodup_append]
      refine ⟨h, List.nodup_singleton _, ?_⟩
      intro a ha b hb heq
      exact hnew (List.mem_singleton.mp hb ▸ heq ▸ ha)

/-- A pair of the map after `set` is the new one or one with another key. -/
theorem mem_set (h : pair ∈ set map key value) :
    pair = (key, value) ∨ pair ∈ map ∧ pair.1 ≠ key := by
  unfold set at h
  split at h
  · obtain ⟨old, hmem, heq⟩ := List.mem_map.mp h
    by_cases hkey : old.1 = key
    · rw [if_pos hkey] at heq
      exact .inl heq.symm
    · rw [if_neg hkey] at heq
      exact .inr (heq ▸ ⟨hmem, hkey⟩)
  · next hnew =>
      rcases List.mem_append.mp h with hmem | hmem
      · right
        refine ⟨hmem, ?_⟩
        rintro rfl
        exact hnew (List.mem_map_of_mem hmem)
      · exact .inl (List.mem_singleton.mp hmem)

theorem length_set (hnew : key ∉ map.map (·.1)) :
    (set map key value).length = map.length + 1 := by
  rw [set_of_notMem hnew, List.length_append, List.length_singleton]

theorem length_set_of_mem (hmem : key ∈ map.map (·.1)) :
    (set map key value).length = map.length := by
  unfold set
  rw [if_pos hmem, List.length_map]

theorem mem_keys_set_self {value : ν} : key ∈ (set map key value).map (·.1) := by
  rw [keys_set]
  split
  · assumption
  · exact List.mem_append_right _ List.mem_cons_self

theorem mem_keys_set {other : κ} {value : ν} (hmem : other ∈ map.map (·.1)) :
    other ∈ (set map key value).map (·.1) := by
  rw [keys_set]
  split
  · exact hmem
  · exact List.mem_append_left _ hmem

theorem get?_append (map rest : List (κ × ν)) (key : κ) :
    get? (map ++ rest) key = (get? map key).or (get? rest key) := by
  induction map with
  | nil => rfl
  | cons pair map ih =>
      rw [List.cons_append, get?_cons, get?_cons, ih]
      split <;> rfl

theorem get?_eq_none (h : key ∉ map.map (·.1)) : get? map key = none := by
  induction map with
  | nil => rfl
  | cons pair map ih =>
      rw [List.map_cons, List.mem_cons, not_or] at h
      rw [get?_cons, if_neg (Ne.symm h.1), ih h.2]

theorem get?_set_self (map : List (κ × ν)) (key : κ) (value : ν) :
    get? (set map key value) key = some value := by
  by_cases hmem : key ∈ map.map (·.1)
  · rw [set, if_pos hmem]
    induction map with
    | nil => cases hmem
    | cons pair map ih =>
        rw [List.map_cons, get?_cons]
        by_cases hkey : pair.1 = key
        · rw [if_pos hkey, if_pos rfl]
        · rw [List.map_cons, List.mem_cons] at hmem
          rw [if_neg hkey, if_neg hkey, ih (hmem.resolve_left (Ne.symm hkey))]
  · rw [set_of_notMem hmem, get?_append, get?_eq_none hmem, get?_cons, if_pos rfl]
    rfl

theorem get?_set_of_ne {other : κ} (hne : key ≠ other) (map : List (κ × ν)) (value : ν) :
    get? (set map key value) other = get? map other := by
  rw [set]
  split
  · next hmem =>
      clear hmem
      induction map with
      | nil => rfl
      | cons pair map ih =>
          rw [List.map_cons, get?_cons, get?_cons, ih]
          by_cases hkey : pair.1 = key
          · rw [if_pos hkey, if_neg hne, if_neg (hkey ▸ hne)]
          · rw [if_neg hkey]
  · rw [get?_append, get?_cons, if_neg hne]
    exact Option.or_none

/-- Deleting takes out the value that the key had. -/
theorem perm_delete (h : (map.map (·.1)).Nodup) :
    (map.map (·.2)).Perm ((delete map key).map (·.2) ++ (get? map key).toList) := by
  induction map with
  | nil => exact .refl _
  | cons pair map ih =>
      obtain ⟨hnew, hnodup⟩ := List.nodup_cons.mp h
      rw [get?_cons, delete, List.filter_cons, List.map_cons]
      by_cases heq : pair.1 = key
      · have hrest : delete map key = map := delete_of_notMem (heq ▸ hnew)
        rw [if_pos heq, if_neg (by simpa using heq), ← delete, hrest]
        exact (List.perm_append_singleton _ _).symm
      · rw [if_neg heq, if_pos (by simpa using heq), ← delete, List.map_cons, List.cons_append]
        exact (ih hnodup).cons _

theorem replace_of_notMem {value : ν} (h : key ∉ map.map (·.1)) :
    (map.map fun pair => if pair.1 = key then (key, value) else pair) = map := by
  have hid : (map.map fun pair => if pair.1 = key then (key, value) else pair) = map.map id := by
    apply List.map_congr_left
    intro pair hmem
    have hne : pair.1 ≠ key := fun heq => h (heq ▸ List.mem_map_of_mem hmem)
    exact if_neg hne
  rw [hid, List.map_id]

/-- Setting puts the value in and takes out the one that the key had. -/
theorem perm_set {value : ν} (h : (map.map (·.1)).Nodup) :
    (map.map (·.2) ++ [value]).Perm ((set map key value).map (·.2) ++ (get? map key).toList) := by
  by_cases hmem : key ∈ map.map (·.1)
  · rw [set, if_pos hmem]
    induction map with
    | nil => exact absurd hmem List.not_mem_nil
    | cons pair map ih =>
        obtain ⟨hnew, hnodup⟩ := List.nodup_cons.mp h
        rw [get?_cons, List.map_cons, List.map_cons, List.map_cons]
        by_cases heq : pair.1 = key
        · rw [if_pos heq, if_pos heq, replace_of_notMem (heq ▸ hnew)]
          exact ((List.perm_append_singleton _ _).cons _).trans
            ((List.Perm.swap _ _ _).trans ((List.perm_append_singleton _ _).symm.cons _))
        · rw [if_neg heq, if_neg heq]
          exact (ih hnodup ((List.mem_cons.mp hmem).resolve_left fun h => heq h.symm)).cons _
  · rw [set_of_notMem hmem, get?_eq_none hmem, List.map_append, Option.toList_none,
      List.append_nil]
    rfl

end Keys

end InsertionMap
