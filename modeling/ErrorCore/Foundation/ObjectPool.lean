import Mathlib.Data.List.Nodup
import Mathlib.Logic.Function.Basic

/-!
# Object pools

Objects that are made once and used again. An owner takes an object from the
free list, or a new one when that is empty, and gives it back when done; a
bounded free list drops what it has no room for. Objects are numbered in the
order in which they are made.

`Exclusive` says that no object is in two places, `Complete` that none is in no
place. Both are kept by owners that give back what they own and take only while
they own nothing.
-/

namespace ObjectPool

universe u
variable {κ : Type u}

@[ext] structure Placement (κ : Type u) where
  free : List Nat
  owner : κ → Option Nat
  /-- How many objects were made. -/
  next : Nat

namespace Placement

/-- Each object is free once and owned by nobody, or not free and owned at most once. -/
structure Exclusive (p : Placement κ) : Prop where
  nodup : p.free.Nodup
  free_made : ∀ id ∈ p.free, id < p.next
  owned_made : ∀ k id, p.owner k = some id → id < p.next
  apart : ∀ k id, p.owner k = some id → id ∉ p.free
  unique : ∀ k k' id, p.owner k = some id → p.owner k' = some id → k = k'

def Complete (p : Placement κ) : Prop :=
  ∀ id < p.next, id ∈ p.free ∨ ∃ k, p.owner k = some id

/-- No object is in no place, unless the free list is full. -/
def Accounted (p : Placement κ) (room : Nat) : Prop := p.Complete ∨ room ≤ p.free.length

section Operations

variable [DecidableEq κ]

/-- The object that the next owner takes. -/
def taken (p : Placement κ) : Nat := p.free.headD p.next

def take (p : Placement κ) (k : κ) : Placement κ where
  free := p.free.tail
  owner := Function.update p.owner k (some p.taken)
  next := if p.free = [] then p.next + 1 else p.next

/-- Give an object back to a free list that keeps fewer than `room` others. -/
def give (p : Placement κ) (room : Nat) (k : κ) (id : Nat) : Placement κ where
  free := if p.free.length < room then id :: p.free else p.free
  owner := Function.update p.owner k none
  next := p.next

end Operations

variable {p : Placement κ} {k : κ} {id room : Nat}

/-- An owned object is owned by nobody else. -/
theorem Exclusive.eq_of_owner (h : p.Exclusive) {k' : κ} (hk : p.owner k = some id)
    (hk' : p.owner k' = some id) : k' = k :=
  h.unique k' k id hk' hk

theorem Exclusive.count_free (h : p.Exclusive) (hid : id ∈ p.free) : p.free.count id = 1 :=
  List.count_eq_one_of_mem h.nodup hid

theorem Exclusive.taken_not_owned (h : p.Exclusive) (k' : κ) : p.owner k' ≠ some p.taken := by
  intro hk'
  cases hfree : p.free with
  | nil =>
      have hlt : p.taken < p.next := h.owned_made k' _ hk'
      simp [taken, hfree] at hlt
  | cons head free =>
      apply h.apart k' _ hk'
      simp [taken, hfree]

variable [DecidableEq κ]

theorem mem_free_of_give {other : Nat} (h : other ∈ (p.give room k id).free) :
    other = id ∨ other ∈ p.free := by
  simp only [give] at h
  split at h
  · exact List.mem_cons.mp h
  · exact .inr h

theorem free_subset_give {other : Nat} (h : other ∈ p.free) : other ∈ (p.give room k id).free := by
  simp only [give]
  split
  · exact List.mem_cons_of_mem _ h
  · exact h

theorem owner_of_give {k' : κ} {other : Nat} (h : (p.give room k id).owner k' = some other) :
    k' ≠ k ∧ p.owner k' = some other := by
  simp only [give, Function.update_apply] at h
  split at h
  · contradiction
  · exact ⟨‹_›, h⟩

theorem Exclusive.give (h : p.Exclusive) (hk : p.owner k = some id) :
    (p.give room k id).Exclusive where
  nodup := by
    simp only [Placement.give]
    split
    · exact List.nodup_cons.mpr ⟨h.apart k id hk, h.nodup⟩
    · exact h.nodup
  free_made := by
    intro other hother
    rcases mem_free_of_give hother with rfl | hother
    · exact h.owned_made k other hk
    · exact h.free_made other hother
  owned_made := by
    intro k' other hother
    exact h.owned_made k' other (owner_of_give hother).2
  apart := by
    intro k' other hother hfree
    obtain ⟨hne, howner⟩ := owner_of_give hother
    rcases mem_free_of_give hfree with rfl | hfree
    · exact hne (h.eq_of_owner hk howner)
    · exact h.apart k' other howner hfree
  unique := by
    intro k' k'' other hk' hk''
    exact h.unique k' k'' other (owner_of_give hk').2 (owner_of_give hk'').2

theorem Complete.give (h : p.Complete) (hk : p.owner k = some id) (hroom : p.free.length < room) :
    (p.give room k id).Complete := by
  intro other hother
  rcases h other hother with hfree | ⟨k', hk'⟩
  · exact .inl (free_subset_give hfree)
  · by_cases hne : k' = k
    · have heq : other = id := by
        rw [hne, hk] at hk'
        exact (Option.some.inj hk').symm
      refine .inl ?_
      simp only [Placement.give, if_pos hroom]
      exact heq ▸ List.mem_cons_self
    · refine .inr ⟨k', ?_⟩
      simp only [Placement.give, Function.update_of_ne hne, hk']

theorem Accounted.give (h : p.Accounted room) (hk : p.owner k = some id) :
    (p.give room k id).Accounted room := by
  rcases Nat.lt_or_ge p.free.length room with hroom | hfull
  · rcases h with hcomplete | hfull
    · exact .inl (hcomplete.give hk hroom)
    · exact absurd hroom (Nat.not_lt.mpr hfull)
  · refine .inr ?_
    simpa only [Placement.give, if_neg (Nat.not_lt.mpr hfull)] using hfull

theorem owner_of_take {k' : κ} (h : (p.take k).owner k' = some id) :
    k' = k ∧ id = p.taken ∨ k' ≠ k ∧ p.owner k' = some id := by
  simp only [take, Function.update_apply] at h
  split at h
  · exact .inl ⟨‹_›, (Option.some.inj h).symm⟩
  · exact .inr ⟨‹_›, h⟩

theorem owner_take_self : (p.take k).owner k = some p.taken := by
  simp only [take, Function.update_self]

theorem owner_take_of_ne {k' : κ} (hne : k' ≠ k) : (p.take k).owner k' = p.owner k' := by
  simp only [take, Function.update_of_ne hne]

theorem mem_free_of_take (h : id ∈ (p.take k).free) : id ∈ p.free :=
  List.mem_of_mem_tail h

theorem next_le_take : p.next ≤ (p.take k).next := by
  simp only [take]
  split <;> omega

theorem taken_made (h : p.Exclusive) : p.taken < (p.take k).next := by
  cases hfree : p.free with
  | nil => simp [taken, take, hfree]
  | cons head free =>
      have hhead : head < p.next := h.free_made head (hfree ▸ List.mem_cons_self)
      simpa [taken, take, hfree] using hhead

theorem Exclusive.taken_not_free (h : p.Exclusive) : p.taken ∉ (p.take k).free := by
  cases hfree : p.free with
  | nil => simp [take, hfree]
  | cons head free =>
      have hnodup : (head :: free).Nodup := hfree ▸ h.nodup
      simpa [taken, take, hfree] using (List.nodup_cons.mp hnodup).1

theorem Exclusive.take (h : p.Exclusive) : (p.take k).Exclusive where
  nodup := h.nodup.tail
  free_made := by
    intro id hid
    exact Nat.lt_of_lt_of_le (h.free_made id (mem_free_of_take hid)) next_le_take
  owned_made := by
    intro k' id hid
    rcases owner_of_take hid with ⟨-, rfl⟩ | ⟨-, howner⟩
    · exact taken_made h
    · exact Nat.lt_of_lt_of_le (h.owned_made k' id howner) next_le_take
  apart := by
    intro k' id hid hfree
    rcases owner_of_take hid with ⟨-, rfl⟩ | ⟨-, howner⟩
    · exact h.taken_not_free hfree
    · exact h.apart k' id howner (mem_free_of_take hfree)
  unique := by
    intro k' k'' id hk' hk''
    rcases owner_of_take hk' with ⟨rfl, rfl⟩ | ⟨-, howner⟩
    · rcases owner_of_take hk'' with ⟨rfl, -⟩ | ⟨-, howner''⟩
      · rfl
      · exact absurd howner'' (h.taken_not_owned k'')
    · rcases owner_of_take hk'' with ⟨-, rfl⟩ | ⟨-, howner''⟩
      · exact absurd howner (h.taken_not_owned k')
      · exact h.unique k' k'' id howner howner''

theorem Complete.take (h : p.Complete) (hk : p.owner k = none) : (p.take k).Complete := by
  intro id hid
  by_cases htaken : id = p.taken
  · exact .inr ⟨k, htaken ▸ owner_take_self⟩
  · have hnext : id < p.next := by
      cases hfree : p.free with
      | nil =>
          simp only [taken, hfree, List.headD_nil] at htaken
          simp only [Placement.take, hfree, if_true] at hid
          omega
      | cons => simpa [Placement.take, hfree] using hid
    rcases h id hnext with hmem | ⟨k', hk'⟩
    · refine .inl ?_
      cases hfree : p.free with
      | nil => simp [hfree] at hmem
      | cons head free =>
          simp only [taken, hfree, List.headD_cons] at htaken
          rcases List.mem_cons.mp (hfree ▸ hmem) with hhead | htail
          · exact absurd hhead htaken
          · simpa [Placement.take, hfree] using htail
    · refine .inr ⟨k', ?_⟩
      have hne : k' ≠ k := by
        rintro rfl
        rw [hk] at hk'
        contradiction
      simp only [Placement.take, Function.update_of_ne hne, hk']

end Placement

end ObjectPool
