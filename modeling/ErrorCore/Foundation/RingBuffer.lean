import Mathlib.Data.List.Nodup
import Mathlib.Data.List.Perm.Basic
import Mathlib.Data.List.Range
import Mathlib.Data.Nat.ModEq

/-!
# A ring read through two growing cursors

A ring of `capacity` cells is written at `writeHead` and read from `readHead`;
both are cursors that only grow, and the cell of a cursor is its remainder. The
window is the range of cursors between the two heads. Cells can be emptied
anywhere, so the window may contain holes.

`Covered` says that every value still has a cursor in the window, `Fits` that no
two cursors of the window share a cell. A ring that is covered lists each of its
values; a ring that also fits lists each exactly once and in cursor order.
-/

universe u

structure RingBuffer (α : Type u) where
  capacity : Nat
  slots : Nat → Option α
  readHead : Nat
  writeHead : Nat

namespace RingBuffer

variable {α : Type u}

section Defs

variable (r : RingBuffer α)

/-- The content of a cursor's cell. -/
def get (cursor : Nat) : Option α := r.slots (cursor % r.capacity)

/-- The cursors a reader visits, oldest first. -/
def cursors : List Nat := List.range' r.readHead (r.writeHead - r.readHead)

/-- What a reader finds. -/
def live : List α := r.cursors.filterMap r.get

def Stored (x : α) : Prop := ∃ i, r.slots i = some x

/-- The values of the cells, by index. -/
def cells : List α := (List.range r.capacity).filterMap r.slots

/-- Empty one cell. -/
def erase (index : Nat) : RingBuffer α := { r with slots := Function.update r.slots index none }

/-- Move the read head. -/
def advance (cursor : Nat) : RingBuffer α := { r with readHead := cursor }

/-- Write at the write head. -/
def store (x : α) : RingBuffer α :=
  { r with
    slots := Function.update r.slots (r.writeHead % r.capacity) (some x)
    writeHead := r.writeHead + 1 }

structure Covered : Prop where
  capacity_pos : 0 < r.capacity
  heads : r.readHead ≤ r.writeHead
  cursor : ∀ i x, r.slots i = some x →
    ∃ c, r.readHead ≤ c ∧ c < r.writeHead ∧ c % r.capacity = i

def Fits : Prop := r.writeHead - r.readHead ≤ r.capacity

/-- Along the window the keys grow. -/
def Sorted (key : α → Nat) : Prop :=
  ∀ c c' x y, r.readHead ≤ c → c < c' → c' < r.writeHead →
    r.get c = some x → r.get c' = some y → key x < key y

/-- `r'` has lost values of `r` and gained none. -/
structure Shrinks (r r' : RingBuffer α) : Prop where
  capacity : r'.capacity = r.capacity
  writeHead : r'.writeHead = r.writeHead
  readHead : r.readHead ≤ r'.readHead
  slots : ∀ i x, r'.slots i = some x → r.slots i = some x

end Defs

variable {r r' r'' : RingBuffer α} {key : α → Nat} {x y : α}

theorem mem_cursors {c : Nat} (h : r.readHead ≤ r.writeHead) :
    c ∈ r.cursors ↔ r.readHead ≤ c ∧ c < r.writeHead := by
  rw [cursors, List.mem_range'_1]
  omega

theorem mem_live (h : r.readHead ≤ r.writeHead) :
    x ∈ r.live ↔ ∃ c, (r.readHead ≤ c ∧ c < r.writeHead) ∧ r.get c = some x := by
  simp only [live, List.mem_filterMap, mem_cursors h]

/-- The first occupied cursor has the first value of the window. -/
theorem head?_live {cursor : Nat} (hread : r.readHead ≤ cursor) (hwrite : cursor < r.writeHead)
    (hx : r.get cursor = some x) (first : ∀ c, r.readHead ≤ c → c < cursor → r.get c = none) :
    r.live.head? = some x := by
  have hsplit : r.cursors = List.range' r.readHead (cursor - r.readHead) ++
      cursor :: List.range' (cursor + 1) (r.writeHead - cursor - 1) := by
    have hlength : r.writeHead - r.readHead =
        cursor - r.readHead + (r.writeHead - cursor - 1 + 1) := by omega
    have hcursor : r.readHead + (cursor - r.readHead) = cursor := by omega
    rw [cursors, hlength, ← List.range'_append_1, hcursor, List.range'_succ]
  have hempty : (List.range' r.readHead (cursor - r.readHead)).filterMap r.get = [] := by
    rw [List.filterMap_eq_nil_iff]
    intro c hc
    rw [List.mem_range'_1] at hc
    exact first c hc.1 (by omega)
  rw [live, hsplit, List.filterMap_append, hempty, List.nil_append, List.filterMap_cons_some hx,
    List.head?_cons]

/-- A reader finds exactly what is stored. -/
theorem Covered.mem_live_iff (h : r.Covered) : x ∈ r.live ↔ r.Stored x := by
  rw [mem_live h.heads]
  constructor
  · rintro ⟨c, _, hget⟩
    exact ⟨c % r.capacity, hget⟩
  · rintro ⟨i, hi⟩
    obtain ⟨c, hle, hlt, rfl⟩ := h.cursor i x hi
    exact ⟨c, ⟨hle, hlt⟩, hi⟩

/-- The list a reader makes is sorted, and so has no duplicates. -/
theorem Sorted.pairwise_live (h : r.Sorted key) (heads : r.readHead ≤ r.writeHead) :
    r.live.Pairwise (fun x y => key x < key y) := by
  rw [live, List.pairwise_filterMap]
  have order : r.cursors.Pairwise (· < ·) := List.pairwise_lt_range'
  refine order.imp_of_mem ?_
  intro c c' hc hc' hlt x hx y hy
  exact h c c' x y ((mem_cursors heads).mp hc).1 hlt ((mem_cursors heads).mp hc').2 hx hy

/-- Conversely, a window that a reader finds sorted is sorted. -/
theorem sorted_of_pairwise_live (h : r.live.Pairwise (fun x y => key x < key y)) :
    r.Sorted key := by
  intro c c' x y hc hlt hc' hx hy
  rw [live, List.pairwise_filterMap, List.pairwise_iff_getElem] at h
  have hlength : r.cursors.length = r.writeHead - r.readHead := List.length_range'
  have cursor (k : Nat) (hk : k < r.cursors.length) : r.cursors[k] = r.readHead + k := by
    simp [cursors]
  refine h (c - r.readHead) (c' - r.readHead) (by omega) (by omega) (by omega) x ?_ y ?_
  · rwa [cursor, Nat.add_sub_cancel' hc]
  · rwa [cursor, Nat.add_sub_cancel' (by omega)]

theorem Fits.cursor_eq (h : r.Fits) {c c' : Nat} (hc : r.readHead ≤ c ∧ c < r.writeHead)
    (hc' : r.readHead ≤ c' ∧ c' < r.writeHead) (same : c % r.capacity = c' % r.capacity) :
    c = c' := by
  unfold Fits at h
  have close (a b : Nat) (hab : a ≤ b) (hb : b < a + r.capacity)
      (heq : a % r.capacity = b % r.capacity) : a = b := by
    have hmod : b - a ≡ 0 [MOD r.capacity] :=
      (Nat.modEq_iff_dvd' hab).mp heq |> fun hd => (Nat.modEq_zero_iff_dvd).mpr hd
    have hzero := Nat.eq_zero_of_dvd_of_lt ((Nat.modEq_zero_iff_dvd).mp hmod) (by omega)
    omega
  rcases Nat.le_total c c' with hle | hle
  · exact close c c' hle (by omega) same
  · exact (close c' c hle (by omega) same.symm).symm

/-! ## The cells -/

theorem Covered.index_lt (h : r.Covered) {i : Nat} (hi : r.slots i = some x) : i < r.capacity := by
  obtain ⟨c, _, _, rfl⟩ := h.cursor i x hi
  exact Nat.mod_lt c h.capacity_pos

theorem Covered.mem_cells_iff (h : r.Covered) : x ∈ r.cells ↔ r.Stored x := by
  rw [cells, List.mem_filterMap]
  constructor
  · rintro ⟨i, _, hi⟩
    exact ⟨i, hi⟩
  · rintro ⟨i, hi⟩
    exact ⟨i, List.mem_range.mpr (h.index_lt hi), hi⟩

/-- Changing one cell changes its own contribution only. -/
theorem filterMap_update_perm {n i : Nat} (hi : i < n) (f : Nat → Option α) (value : Option α) :
    ((List.range n).filterMap (Function.update f i value)).Perm
      (value.toList ++ ((List.range n).erase i).filterMap f) := by
  have split : (List.range n).Perm (i :: (List.range n).erase i) :=
    List.perm_cons_erase (List.mem_range.mpr hi)
  have rest : ((List.range n).erase i).filterMap (Function.update f i value) =
      ((List.range n).erase i).filterMap f := by
    refine List.filterMap_congr ?_
    intro j hj
    have hne : j ≠ i := ((List.nodup_range).mem_erase_iff.mp hj).1
    rw [Function.update_of_ne hne]
  refine (split.filterMap _).trans (List.Perm.of_eq ?_)
  rw [List.filterMap_cons, Function.update_self, rest]
  cases value <;> rfl

theorem cells_perm_of_some {i : Nat} (hi : i < r.capacity) (hx : r.slots i = some x) :
    r.cells.Perm (x :: ((List.range r.capacity).erase i).filterMap r.slots) := by
  have same : Function.update r.slots i (some x) = r.slots := by
    rw [← hx, Function.update_eq_self]
  have h := filterMap_update_perm hi r.slots (some x)
  rwa [same] at h

theorem cells_perm_of_none {i : Nat} (hi : i < r.capacity) (hx : r.slots i = none) :
    r.cells.Perm (((List.range r.capacity).erase i).filterMap r.slots) := by
  have same : Function.update r.slots i none = r.slots := by
    rw [← hx, Function.update_eq_self]
  have h := filterMap_update_perm hi r.slots none
  rwa [same] at h

/-- An emptied cell gives up exactly its value. -/
theorem cells_perm_erase {i : Nat} (hi : i < r.capacity) (hx : r.slots i = some x) :
    r.cells.Perm (x :: (r.erase i).cells) :=
  (cells_perm_of_some hi hx).trans ((filterMap_update_perm hi r.slots none).symm.cons x)

/-- A write to an empty cell adds exactly its value. -/
theorem cells_store_perm (h : 0 < r.capacity) (free : r.slots (r.writeHead % r.capacity) = none)
    (x : α) : (r.store x).cells.Perm (x :: r.cells) := by
  have hi : r.writeHead % r.capacity < r.capacity := Nat.mod_lt _ h
  exact (filterMap_update_perm hi r.slots (some x)).trans
    ((cells_perm_of_none hi free).symm.cons x)

theorem Sorted.congr {key' : α → Nat} (h : r.Sorted key)
    (same : ∀ x, r.Stored x → key' x = key x) : r.Sorted key' := by
  intro c c' x y hc hlt hc' hx hy
  rw [same x ⟨_, hx⟩, same y ⟨_, hy⟩]
  exact h c c' x y hc hlt hc' hx hy

/-! ## Emptying cells and moving the read head -/

@[simp] theorem erase_readHead (index : Nat) : (r.erase index).readHead = r.readHead := rfl

@[simp] theorem erase_writeHead (index : Nat) : (r.erase index).writeHead = r.writeHead := rfl

@[simp] theorem erase_capacity (index : Nat) : (r.erase index).capacity = r.capacity := rfl

theorem erase_slots_of_some {index i : Nat} (h : (r.erase index).slots i = some x) :
    i ≠ index ∧ r.slots i = some x := by
  by_cases hi : i = index
  · subst i
    simp only [erase, Function.update_self] at h
    exact nomatch h
  · simp only [erase, Function.update_of_ne hi] at h
    exact ⟨hi, h⟩

theorem Covered.erase (h : r.Covered) (index : Nat) : (r.erase index).Covered where
  capacity_pos := h.capacity_pos
  heads := h.heads
  cursor i x hi := h.cursor i x (erase_slots_of_some hi).2

/-- The read head may pass cursors whose cells are empty. -/
theorem Covered.advance (h : r.Covered) {cursor : Nat} (hle : cursor ≤ r.writeHead)
    (empty : ∀ c, r.readHead ≤ c → c < cursor → r.get c = none) : (r.advance cursor).Covered where
  capacity_pos := h.capacity_pos
  heads := hle
  cursor i x hi := by
    obtain ⟨c, hc, hlt, rfl⟩ := h.cursor i x hi
    refine ⟨c, ?_, hlt, rfl⟩
    by_contra hbefore
    have hnone := empty c hc (by simpa [RingBuffer.advance] using hbefore)
    rw [get] at hnone
    rw [RingBuffer.advance] at hi
    simp only at hi
    rw [hnone] at hi
    exact nomatch hi

/-- In a sorted ring the first value of the window has the smallest key. -/
theorem Sorted.le_of_first (h : r.Sorted key) (covered : r.Covered) {c : Nat}
    (hc : r.readHead ≤ c) (hget : r.get c = some x)
    (first : ∀ c', r.readHead ≤ c' → c' < c → r.get c' = none) (hy : r.Stored y) :
    key x ≤ key y := by
  obtain ⟨i, hi⟩ := hy
  obtain ⟨c', hc', hlt, rfl⟩ := covered.cursor i y hi
  rcases Nat.lt_trichotomy c c' with hlt' | rfl | hlt'
  · exact Nat.le_of_lt (h c c' x y hc hlt' hlt hget hi)
  · rw [get] at hget
    rw [hget] at hi
    exact Nat.le_of_eq (congrArg key (Option.some.inj hi))
  · have hnone := first c' hc' hlt'
    rw [get, hi] at hnone
    exact nomatch hnone

/-! ## Losing values -/

namespace Shrinks

theorem refl (r : RingBuffer α) : r.Shrinks r := ⟨rfl, rfl, Nat.le_refl _, fun _ _ h => h⟩

theorem trans (h : r.Shrinks r') (h' : r'.Shrinks r'') : r.Shrinks r'' where
  capacity := h'.capacity.trans h.capacity
  writeHead := h'.writeHead.trans h.writeHead
  readHead := Nat.le_trans h.readHead h'.readHead
  slots i x hi := h.slots i x (h'.slots i x hi)

theorem erase (r : RingBuffer α) (index : Nat) : r.Shrinks (r.erase index) :=
  ⟨rfl, rfl, Nat.le_refl _, fun _ _ h => (erase_slots_of_some h).2⟩

theorem advance {cursor : Nat} (hle : r.readHead ≤ cursor) : r.Shrinks (r.advance cursor) :=
  ⟨rfl, rfl, hle, fun _ _ h => h⟩

theorem get_of_some (h : r.Shrinks r') {c : Nat} (hget : r'.get c = some x) : r.get c = some x := by
  rw [get, h.capacity] at hget
  exact h.slots _ _ hget

theorem stored (h : r.Shrinks r') (hx : r'.Stored x) : r.Stored x := by
  obtain ⟨i, hi⟩ := hx
  exact ⟨i, h.slots i x hi⟩

theorem sorted (h : r.Shrinks r') (sorted : r.Sorted key) : r'.Sorted key := by
  intro c c' x y hc hlt hc' hx hy
  rw [h.writeHead] at hc'
  exact sorted c c' x y (Nat.le_trans h.readHead hc) hlt hc' (h.get_of_some hx) (h.get_of_some hy)

theorem fits (h : r.Shrinks r') (fits : r.Fits) : r'.Fits := by
  have hread := h.readHead
  unfold Fits at *
  rw [h.capacity, h.writeHead]
  omega

end Shrinks

/-! ## Writing -/

@[simp] theorem store_capacity (x : α) : (r.store x).capacity = r.capacity := rfl

theorem stored_store (h : (r.store x).Stored y) : y = x ∨ r.Stored y := by
  obtain ⟨i, hi⟩ := h
  by_cases hw : i = r.writeHead % r.capacity
  · rw [RingBuffer.store, hw] at hi
    simp only [Function.update_self, Option.some.injEq] at hi
    exact .inl hi.symm
  · rw [RingBuffer.store] at hi
    simp only [Function.update_of_ne hw] at hi
    exact .inr ⟨i, hi⟩

theorem Covered.store (h : r.Covered) (x : α) : (r.store x).Covered where
  capacity_pos := h.capacity_pos
  heads := Nat.le_succ_of_le h.heads
  cursor i y hi := by
    by_cases hw : i = r.writeHead % r.capacity
    · exact ⟨r.writeHead, h.heads, Nat.lt_succ_self _, hw.symm⟩
    · rw [RingBuffer.store] at hi
      simp only [Function.update_of_ne hw] at hi
      obtain ⟨c, hc, hlt, hmod⟩ := h.cursor i y hi
      exact ⟨c, hc, Nat.lt_succ_of_lt hlt, hmod⟩

theorem Fits.store (room : r.writeHead - r.readHead < r.capacity) (x : α) : (r.store x).Fits := by
  unfold Fits
  simp only [RingBuffer.store]
  omega

/-- While there is room the next cell is empty. -/
theorem Covered.free_of_room (h : r.Covered) (room : r.writeHead - r.readHead < r.capacity) :
    r.slots (r.writeHead % r.capacity) = none := by
  by_contra hsome
  obtain ⟨y, hy⟩ := Option.ne_none_iff_exists'.mp hsome
  obtain ⟨c, hc, hlt, hmod⟩ := h.cursor _ y hy
  have fits : (r.store y).Fits := Fits.store room y
  have heq : c = r.writeHead :=
    fits.cursor_eq ⟨hc, Nat.lt_succ_of_lt hlt⟩ ⟨h.heads, Nat.lt_succ_self _⟩ hmod
  omega

theorem store_get_writeHead (r : RingBuffer α) (x : α) : (r.store x).get r.writeHead = some x := by
  simp [get, RingBuffer.store]

theorem store_get_of_lt (room : r.writeHead - r.readHead < r.capacity) {c : Nat}
    (hc : r.readHead ≤ c) (hlt : c < r.writeHead) (x : α) : (r.store x).get c = r.get c := by
  have fits : (r.store x).Fits := Fits.store room x
  have hne : c % r.capacity ≠ r.writeHead % r.capacity := by
    intro same
    have heq : c = r.writeHead :=
      fits.cursor_eq ⟨hc, Nat.lt_succ_of_lt hlt⟩
        ⟨Nat.le_trans hc (Nat.le_of_lt hlt), Nat.lt_succ_self _⟩ same
    omega
  simp only [get, RingBuffer.store, Function.update_of_ne hne]

theorem Sorted.store (h : r.Sorted key) (room : r.writeHead - r.readHead < r.capacity)
    (newest : ∀ y, r.Stored y → key y < key x) : (r.store x).Sorted key := by
  intro c c' y z hc hlt hc' hy hz
  have hc'' : c' ≤ r.writeHead := Nat.le_of_lt_succ hc'
  rw [store_get_of_lt room hc (by omega)] at hy
  rcases Nat.lt_or_eq_of_le hc'' with hbefore | rfl
  · rw [store_get_of_lt room (by simp only [RingBuffer.store] at hc; omega) hbefore] at hz
    exact h c c' y z hc hlt hbefore hy hz
  · rw [store_get_writeHead] at hz
    obtain rfl := Option.some.inj hz
    exact newest y ⟨_, hy⟩

end RingBuffer
