import Mathlib.Data.List.Basic

/-!
# Ordered multimaps

A list of entries in which a key may occur more than once. Setting a key changes
its first entry and removes the others. A loop that goes through the entries by
their positions and sets each one as it comes therefore keeps the first entry of
every key and never reaches the others.
-/

universe u v

namespace MultiMap

variable {κ : Type u} {α : Type v} [DecidableEq κ]

/-- The first entry of the key is changed and its other entries are removed. -/
def setFirst (key : κ) (value : α) : List (κ × α) → List (κ × α)
  | [] => []
  | (name, old) :: rest =>
      if name = key then (key, value) :: rest.filter (·.1 ≠ key)
      else (name, old) :: setFirst key value rest

/-- A key without an entry is added at the end. -/
def set (key : κ) (value : α) (entries : List (κ × α)) : List (κ × α) :=
  if key ∈ entries.map Prod.fst then setFirst key value entries else entries ++ [(key, value)]

theorem length_setFirst_le (key : κ) (value : α) (entries : List (κ × α)) :
    (setFirst key value entries).length ≤ entries.length := by
  induction entries with
  | nil => exact Nat.le_refl _
  | cons entry rest ih =>
      unfold setFirst
      split
      · exact Nat.succ_le_succ (List.length_filter_le _ _)
      · exact Nat.succ_le_succ ih

theorem length_set_le {key : κ} {value old : α} {entries : List (κ × α)} {i : Nat}
    (h : entries[i]? = some (key, old)) : (set key value entries).length ≤ entries.length := by
  rw [set, if_pos (List.mem_map.mpr ⟨_, List.mem_of_getElem? h, rfl⟩)]
  exact length_setFirst_le key value entries

/-- A loop over the positions that sets the key of each entry to a new value. -/
def setEach (f : κ → α → α) (index : Nat) (entries : List (κ × α)) : List (κ × α) :=
  match h : entries[index]? with
  | none => entries
  | some (key, value) => setEach f (index + 1) (set key (f key value) entries)
termination_by entries.length - index
decreasing_by
  have hle : (set key (f key value) entries).length ≤ entries.length := length_set_le h
  have hlt : index < entries.length := (List.getElem?_eq_some_iff.mp h).1
  omega

/-- The entries whose keys have not come before. -/
def firsts (seen : List κ) : List (κ × α) → List (κ × α)
  | [] => []
  | (key, value) :: rest =>
      if key ∈ seen then firsts seen rest else (key, value) :: firsts (key :: seen) rest

variable {key : κ} {value : α} {f : κ → α → α}

/-- An entry with its new value. -/
def update (f : κ → α → α) (entry : κ × α) : κ × α := (entry.1, f entry.1 entry.2)

theorem setEach_none {index : Nat} {entries : List (κ × α)} (h : entries[index]? = none) :
    setEach f index entries = entries := by
  rw [setEach]
  split
  · rfl
  · next hsome => cases h.symm.trans hsome

theorem setEach_some {index : Nat} {entries : List (κ × α)}
    (h : entries[index]? = some (key, value)) :
    setEach f index entries = setEach f (index + 1) (set key (f key value) entries) := by
  rw [setEach]
  split
  · next hnone => cases h.symm.trans hnone
  · next key' value' hsome =>
      obtain ⟨rfl, rfl⟩ := Prod.mk.inj (Option.some.inj (h.symm.trans hsome))
      rfl

theorem setFirst_append_cons {done : List (κ × α)} (h : key ∉ done.map Prod.fst) (old : α)
    (rest : List (κ × α)) :
    setFirst key value (done ++ (key, old) :: rest) =
      done ++ (key, value) :: rest.filter (·.1 ≠ key) := by
  induction done with
  | nil => rw [List.nil_append, setFirst, if_pos rfl, List.nil_append]
  | cons entry done ih =>
      rw [List.map_cons, List.mem_cons, not_or] at h
      rw [List.cons_append, setFirst, if_neg (Ne.symm h.1), ih h.2, List.cons_append]

/-- The loop at the first of the entries that it has not set yet. -/
theorem setEach_append {done rest : List (κ × α)} {seen : List κ}
    (hdone : ∀ entry ∈ done, entry.1 ∈ seen) :
    setEach f done.length (done ++ rest.filter (·.1 ∉ seen)) =
      done ++ (firsts seen rest).map (update f) := by
  induction rest generalizing done seen with
  | nil => exact setEach_none (by simp)
  | cons entry rest ih =>
      obtain ⟨key, value⟩ := entry
      by_cases hseen : key ∈ seen
      · rw [List.filter_cons_of_neg (by simpa using hseen), firsts, if_pos hseen]
        exact ih hdone
      · have hnew : key ∉ done.map Prod.fst := by
          intro hmem
          obtain ⟨entry, hentry, rfl⟩ := List.mem_map.mp hmem
          exact hseen (hdone entry hentry)
        have hget : (done ++ (key, value) :: rest.filter (·.1 ∉ seen))[done.length]? =
            some (key, value) := by
          rw [List.getElem?_append_right (Nat.le_refl _), Nat.sub_self]
          rfl
        have hfilter : (rest.filter (·.1 ∉ seen)).filter (·.1 ≠ key) =
            rest.filter (·.1 ∉ key :: seen) := by
          rw [List.filter_filter]
          refine List.filter_congr fun entry _ => ?_
          simp [not_or]
        have hmem : key ∈ (done ++ (key, value) :: rest.filter (·.1 ∉ seen)).map Prod.fst := by
          simp
        have hkeys : ∀ entry ∈ done ++ [(key, f key value)], entry.1 ∈ key :: seen := by
          intro entry hentry
          rcases List.mem_append.mp hentry with hentry | hentry
          · exact List.mem_cons_of_mem _ (hdone entry hentry)
          · rw [List.mem_singleton.mp hentry]
            exact List.mem_cons_self
        have hrest := ih hkeys
        rw [List.length_append, List.length_singleton, List.append_assoc, List.append_assoc,
          List.singleton_append, List.singleton_append] at hrest
        rw [List.filter_cons_of_pos (by simpa using hseen), firsts, if_neg hseen,
          setEach_some hget, set, if_pos hmem, setFirst_append_cons hnew, hfilter, hrest,
          List.map_cons]
        rfl

/-- The loop over all entries. -/
theorem setEach_eq (f : κ → α → α) (entries : List (κ × α)) :
    setEach f 0 entries = (firsts [] entries).map (update f) := by
  have hnil : ∀ entry ∈ ([] : List (κ × α)), entry.1 ∈ ([] : List κ) := List.forall_mem_nil _
  have h : setEach f 0 ([] ++ entries.filter (·.1 ∉ [])) =
      [] ++ (firsts [] entries).map (update f) := setEach_append hnil
  simpa using h

theorem setEach_ne_nil {entries : List (κ × α)} (h : entries ≠ []) : setEach f 0 entries ≠ [] := by
  rw [setEach_eq]
  cases entries with
  | nil => exact absurd rfl h
  | cons entry rest => simp [firsts]

theorem length_firsts_le (seen : List κ) (entries : List (κ × α)) :
    (firsts seen entries).length ≤ entries.length := by
  induction entries generalizing seen with
  | nil => exact Nat.le_refl _
  | cons entry rest ih =>
      unfold firsts
      split
      · exact Nat.le_trans (ih seen) (Nat.le_succ _)
      · exact Nat.succ_le_succ (ih _)

theorem firsts_eq_self {seen : List κ} {entries : List (κ × α)}
    (hnodup : (entries.map Prod.fst).Nodup) (hseen : ∀ entry ∈ entries, entry.1 ∉ seen) :
    firsts seen entries = entries := by
  induction entries generalizing seen with
  | nil => rfl
  | cons entry rest ih =>
      obtain ⟨key, value⟩ := entry
      rw [List.map_cons, List.nodup_cons] at hnodup
      rw [List.forall_mem_cons] at hseen
      have hrest : ∀ entry ∈ rest, entry.1 ∉ key :: seen := by
        intro entry hmem hcons
        rcases List.mem_cons.mp hcons with heq | hold
        · exact hnodup.1 (List.mem_map.mpr ⟨entry, hmem, heq⟩)
        · exact hseen.2 entry hmem hold
      rw [firsts, if_neg hseen.1, ih hnodup.2 hrest]

theorem nodup_of_length_firsts {seen : List κ} {entries : List (κ × α)}
    (h : (firsts seen entries).length = entries.length) :
    (entries.map Prod.fst).Nodup ∧ ∀ entry ∈ entries, entry.1 ∉ seen := by
  induction entries generalizing seen with
  | nil => exact ⟨List.nodup_nil, List.forall_mem_nil _⟩
  | cons entry rest ih =>
      obtain ⟨key, value⟩ := entry
      unfold firsts at h
      split at h
      · have hle := length_firsts_le seen rest
        rw [List.length_cons] at h
        omega
      · next hnew =>
          obtain ⟨hnodup, hrest⟩ := ih (Nat.succ.inj h)
          rw [List.map_cons, List.nodup_cons, List.forall_mem_cons]
          refine ⟨⟨?_, hnodup⟩, hnew, fun entry hmem hseen =>
            hrest entry hmem (List.mem_cons_of_mem _ hseen)⟩
          intro hmem
          obtain ⟨entry, hentry, heq⟩ := List.mem_map.mp hmem
          exact hrest entry hentry (heq ▸ List.mem_cons_self)

/-- The loop sets every entry exactly if no key has two. -/
theorem setEach_eq_map_iff (f : κ → α → α) (entries : List (κ × α)) :
    setEach f 0 entries = entries.map (update f) ↔ (entries.map Prod.fst).Nodup := by
  rw [setEach_eq]
  constructor
  · intro h
    have hlength := congrArg List.length h
    rw [List.length_map, List.length_map] at hlength
    exact (nodup_of_length_firsts hlength).1
  · intro hnodup
    rw [firsts_eq_self hnodup fun _ _ => List.not_mem_nil]

end MultiMap
