import Mathlib.Data.List.Flatten
import ErrorCore.Foundation.InsertionMap

/-!
# Directories

A directory maps names to files. A file is known by its number, so that it stays
the same file under another name, and can be written to when no name is left.
-/

universe u v

structure Directory (ν : Type u) (φ : Type v) where
  names : List (ν × Nat)
  files : List φ
  deriving DecidableEq, Repr

namespace Directory

variable {ν : Type u} {φ : Type v}

def modify (d : Directory ν φ) (f : Nat) (change : φ → φ) : Directory ν φ :=
  { d with files := d.files.modify f change }

/-- Every name is there once and belongs to a file. -/
structure WellFormed (d : Directory ν φ) : Prop where
  distinct : (d.names.map (·.1)).Nodup
  valid : ∀ name f, (name, f) ∈ d.names → f < d.files.length

@[simp] theorem modify_names (d : Directory ν φ) (f : Nat) (change : φ → φ) :
    (d.modify f change).names = d.names := rfl

theorem modify_getElem?_of_ne {d : Directory ν φ} {f g : Nat} {change : φ → φ} (h : g ≠ f) :
    (d.modify f change).files[g]? = d.files[g]? := by
  simp [modify, Ne.symm h]

theorem modify_getElem?_self {d : Directory ν φ} {f : Nat} {change : φ → φ} :
    (d.modify f change).files[f]? = (d.files[f]?).map change := by
  simp [modify]

theorem WellFormed.modify {d : Directory ν φ} (h : d.WellFormed) (f : Nat) (change : φ → φ) :
    (d.modify f change).WellFormed where
  distinct := h.distinct
  valid name g hmem := by
    rw [Directory.modify, List.length_modify]
    exact h.valid name g hmem

variable [DecidableEq ν]

def find? (d : Directory ν φ) (name : ν) : Option Nat := InsertionMap.get? d.names name

/-- The file of the name, which is created if there is none. -/
def openFile (d : Directory ν φ) (name : ν) (empty : φ) : Nat × Directory ν φ :=
  match d.find? name with
  | some f => (f, d)
  | none =>
      (d.files.length,
        { names := d.names ++ [(name, d.files.length)], files := d.files ++ [empty] })

/-- The file gets the other name, in the place of the file that had it. -/
def rename (d : Directory ν φ) (source target : ν) : Option (Directory ν φ) :=
  match d.find? source with
  | none => none
  | some f =>
      some { d with
        names := InsertionMap.delete (InsertionMap.delete d.names source) target ++ [(target, f)] }

def unlink (d : Directory ν φ) (name : ν) : Directory ν φ :=
  { d with names := InsertionMap.delete d.names name }

variable {d e : Directory ν φ} {name source target : ν} {f : Nat} {empty : φ}

theorem mem_of_find? (h : d.find? name = some f) : (name, f) ∈ d.names := by
  rw [find?, InsertionMap.get?, Option.map_eq_some_iff] at h
  obtain ⟨pair, hpair, rfl⟩ := h
  obtain rfl : pair.1 = name := by simpa using List.find?_some hpair
  exact List.mem_of_find?_eq_some hpair

theorem notMem_of_find? (h : d.find? name = none) (f : Nat) : (name, f) ∉ d.names := by
  rw [find?, InsertionMap.get?, Option.map_eq_none_iff, List.find?_eq_none] at h
  intro hmem
  exact h _ hmem (decide_eq_true rfl)

theorem WellFormed.find?_eq (h : d.WellFormed) (hmem : (name, f) ∈ d.names) :
    d.find? name = some f := by
  cases hfind : d.find? name with
  | none => exact absurd hmem (notMem_of_find? hfind f)
  | some g =>
      have hsame : (name, g) = (name, f) :=
        List.inj_on_of_nodup_map h.distinct (mem_of_find? hfind) hmem rfl
      rw [(Prod.mk.inj hsame).2]

theorem mem_unlink {pair : ν × Nat} :
    pair ∈ (d.unlink name).names ↔ pair ∈ d.names ∧ pair.1 ≠ name := by
  simp [unlink, InsertionMap.delete]

theorem WellFormed.unlink (h : d.WellFormed) (name : ν) : (d.unlink name).WellFormed where
  distinct := (List.filter_sublist.map _).nodup h.distinct
  valid other f hmem := h.valid other f (mem_unlink.mp hmem).1

theorem rename_eq_some_iff :
    d.rename source target = some e ↔ ∃ f, d.find? source = some f ∧
      e = { d with
        names := InsertionMap.delete (InsertionMap.delete d.names source) target ++
          [(target, f)] } := by
  rw [rename]
  cases d.find? source with
  | none => simp
  | some f => simp [eq_comm]

theorem rename_files (h : d.rename source target = some e) : e.files = d.files := by
  obtain ⟨f, -, rfl⟩ := rename_eq_some_iff.mp h
  rfl

/-- The names after a renaming. -/
theorem mem_rename {pair : ν × Nat} (hfind : d.find? source = some f)
    (h : d.rename source target = some e) :
    pair ∈ e.names ↔
      pair ∈ d.names ∧ pair.1 ≠ source ∧ pair.1 ≠ target ∨ pair = (target, f) := by
  obtain ⟨g, hfind', rfl⟩ := rename_eq_some_iff.mp h
  obtain rfl := Option.some.inj (hfind.symm.trans hfind')
  simp [InsertionMap.delete, and_comm]

theorem WellFormed.rename (h : d.WellFormed) (hrename : d.rename source target = some e) :
    e.WellFormed := by
  obtain ⟨f, hfind, rfl⟩ := rename_eq_some_iff.mp hrename
  refine ⟨?_, ?_⟩
  · have hsub : ((InsertionMap.delete (InsertionMap.delete d.names source) target).map
        (·.1)).Nodup :=
      (List.filter_sublist.map _).nodup ((List.filter_sublist.map _).nodup h.distinct)
    rw [List.map_append, List.nodup_append]
    refine ⟨hsub, List.nodup_singleton _, ?_⟩
    intro first hfirst second hsecond
    obtain rfl := List.mem_singleton.mp hsecond
    obtain ⟨pair, hpair, rfl⟩ := List.mem_map.mp hfirst
    simpa using (List.mem_filter.mp hpair).2
  · intro name g hmem
    rcases (mem_rename hfind hrename).mp hmem with ⟨hold, -⟩ | hnew
    · exact h.valid name g hold
    · obtain ⟨-, rfl⟩ := Prod.mk.inj hnew
      exact h.valid source g (mem_of_find? hfind)

/-- What opening a name does. -/
theorem openFile_cases (d : Directory ν φ) (name : ν) (empty : φ) :
    (d.find? name = some (d.openFile name empty).1 ∧ (d.openFile name empty).2 = d) ∨
      (d.find? name = none ∧ (d.openFile name empty).1 = d.files.length ∧
        (d.openFile name empty).2 =
          { names := d.names ++ [(name, d.files.length)], files := d.files ++ [empty] }) := by
  rw [openFile]
  cases d.find? name with
  | none => exact .inr ⟨rfl, rfl, rfl⟩
  | some f => exact .inl ⟨rfl, rfl⟩

theorem WellFormed.openFile (h : d.WellFormed) (name : ν) (empty : φ) :
    (d.openFile name empty).2.WellFormed := by
  rcases openFile_cases d name empty with ⟨-, heq⟩ | ⟨hfind, -, heq⟩
  · rw [heq]
    exact h
  · rw [heq]
    refine ⟨?_, ?_⟩
    · rw [List.map_append, List.nodup_append]
      refine ⟨h.distinct, List.nodup_singleton _, ?_⟩
      intro first hfirst second hsecond
      obtain rfl := List.mem_singleton.mp hsecond
      obtain ⟨⟨first, f⟩, hpair, rfl⟩ := List.mem_map.mp hfirst
      rintro rfl
      exact notMem_of_find? hfind f hpair
    · intro other f hmem
      rw [List.length_append, List.length_singleton]
      rcases List.mem_append.mp hmem with hold | hnew
      · exact Nat.lt_succ_of_lt (h.valid other f hold)
      · obtain ⟨-, rfl⟩ := Prod.mk.inj (List.mem_singleton.mp hnew)
        exact Nat.lt_succ_self _

/-- The opened file has the name. -/
theorem mem_openFile (d : Directory ν φ) (name : ν) (empty : φ) :
    (name, (d.openFile name empty).1) ∈ (d.openFile name empty).2.names := by
  rcases openFile_cases d name empty with ⟨hfind, heq⟩ | ⟨-, hnew, heq⟩
  · rw [heq]
    exact mem_of_find? hfind
  · rw [heq, hnew]
    exact List.mem_append_right _ List.mem_cons_self

end Directory
