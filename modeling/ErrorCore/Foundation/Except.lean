import Mathlib.Data.List.Forall2

/-!
# Computations that may throw

What the success of a computation in `Except` says about its steps.
-/

namespace Except

universe u v
variable {ε : Type u} {α β : Type v}

theorem bind_eq_ok {x : Except ε α} {f : α → Except ε β} {b : β} :
    x >>= f = .ok b ↔ ∃ a, x = .ok a ∧ f a = .ok b := by
  cases x with
  | error e =>
      constructor
      · intro h
        exact nomatch h
      · rintro ⟨a, h, -⟩
        exact nomatch h
  | ok a =>
      constructor
      · intro h
        exact ⟨a, rfl, h⟩
      · rintro ⟨a', h, hf⟩
        obtain rfl := Except.ok.inj h
        exact hf

theorem map_eq_ok {x : Except ε α} {f : α → β} {b : β} :
    x.map f = .ok b ↔ ∃ a, x = .ok a ∧ f a = b := by
  cases x with
  | error e =>
      constructor
      · intro h
        exact nomatch h
      · rintro ⟨a, h, -⟩
        exact nomatch h
  | ok a =>
      constructor
      · intro h
        exact ⟨a, rfl, Except.ok.inj h⟩
      · rintro ⟨a', h, rfl⟩
        obtain rfl := Except.ok.inj h
        rfl

@[simp] theorem ok_bind (a : α) (f : α → Except ε β) : (.ok a >>= f) = f a := rfl

theorem pure_eq_ok {a b : α} : (pure a : Except ε α) = .ok b ↔ a = b :=
  ⟨Except.ok.inj, congrArg Except.ok⟩

/-- A traversal that succeeds has the result of each element at its position. -/
theorem getElem?_mapM {f : α → Except ε β} {xs : List α} {ys : List β} (h : xs.mapM f = .ok ys)
    (i : Nat) : ys[i]? = none ∧ xs[i]? = none ∨
      ∃ x y, xs[i]? = some x ∧ ys[i]? = some y ∧ f x = .ok y := by
  induction xs generalizing ys i with
  | nil =>
      rw [List.mapM_nil, pure_eq_ok] at h
      exact .inl ⟨h ▸ rfl, rfl⟩
  | cons x xs ih =>
      rw [List.mapM_cons, bind_eq_ok] at h
      obtain ⟨y, hy, h⟩ := h
      obtain ⟨rest, hrest, h⟩ := bind_eq_ok.mp h
      obtain rfl := pure_eq_ok.mp h
      cases i with
      | zero => exact .inr ⟨x, y, rfl, rfl, hy⟩
      | succ i => exact ih hrest i

/-- A traversal that succeeds relates the elements to their results one by one. -/
theorem forall₂_of_mapM {f : α → Except ε β} {xs : List α} {ys : List β} (h : xs.mapM f = .ok ys) :
    List.Forall₂ (fun x y => f x = .ok y) xs ys := by
  induction xs generalizing ys with
  | nil =>
      rw [List.mapM_nil, pure_eq_ok] at h
      exact h ▸ .nil
  | cons x xs ih =>
      rw [List.mapM_cons, bind_eq_ok] at h
      obtain ⟨y, hy, h⟩ := h
      obtain ⟨rest, hrest, h⟩ := bind_eq_ok.mp h
      obtain rfl := pure_eq_ok.mp h
      exact .cons hy (ih hrest)

theorem mapM_of_forall₂ {f : α → Except ε β} {xs : List α} {ys : List β}
    (h : List.Forall₂ (fun x y => f x = .ok y) xs ys) : xs.mapM f = .ok ys := by
  induction h with
  | nil => rfl
  | cons hy _ ih =>
      rw [List.mapM_cons, hy, ih]
      rfl

/-- A traversal succeeds with related results when each element does. -/
theorem exists_mapM_iff {f : α → Except ε β} {R : α → β → Prop} {xs : List α} :
    (∃ ys, xs.mapM f = .ok ys ∧ List.Forall₂ R xs ys) ↔ ∀ x ∈ xs, ∃ y, f x = .ok y ∧ R x y := by
  induction xs with
  | nil => exact iff_of_true ⟨[], rfl, .nil⟩ (List.forall_mem_nil _)
  | cons x xs ih =>
      rw [List.forall_mem_cons, ← ih]
      constructor
      · rintro ⟨ys, hys, hrelated⟩
        cases forall₂_of_mapM hys with
        | cons hy hrest =>
            obtain ⟨hR, hmore⟩ := List.forall₂_cons.mp hrelated
            exact ⟨⟨_, hy, hR⟩, _, mapM_of_forall₂ hrest, hmore⟩
      · rintro ⟨⟨y, hy, hR⟩, ys, hys, hmore⟩
        exact ⟨y :: ys, mapM_of_forall₂ (.cons hy (forall₂_of_mapM hys)), .cons hR hmore⟩

theorem mapM_isOk {f : α → Except ε β} {xs : List α} (h : ∀ x ∈ xs, ∃ y, f x = .ok y) :
    ∃ ys, xs.mapM f = .ok ys := by
  induction xs with
  | nil => exact ⟨[], rfl⟩
  | cons x xs ih =>
      obtain ⟨y, hy⟩ := h x List.mem_cons_self
      obtain ⟨ys, hys⟩ := ih fun x hx => h x (List.mem_cons_of_mem _ hx)
      exact ⟨y :: ys, by rw [List.mapM_cons, hy, hys]; rfl⟩

/-- The computation does not throw. -/
def Succeeds (result : Except ε α) : Prop := ∃ a, result = .ok a

theorem succeeds_ok (a : α) : Succeeds (.ok a : Except ε α) := ⟨a, rfl⟩

theorem succeeds_bind {x : Except ε α} {f : α → Except ε β} :
    Succeeds (x >>= f) ↔ ∃ a, x = .ok a ∧ Succeeds (f a) := by
  constructor
  · rintro ⟨b, h⟩
    obtain ⟨a, ha, h⟩ := bind_eq_ok.mp h
    exact ⟨a, ha, b, h⟩
  · rintro ⟨a, ha, b, h⟩
    exact ⟨b, bind_eq_ok.mpr ⟨a, ha, h⟩⟩

/-- What follows may not depend on what the first computation gives. -/
theorem succeeds_bind_of_forall {x : Except ε α} {f : α → Except ε β} {P : Prop}
    (h : ∀ a, Succeeds (f a) ↔ P) : Succeeds (x >>= f) ↔ Succeeds x ∧ P := by
  rw [succeeds_bind]
  constructor
  · rintro ⟨a, ha, hf⟩
    exact ⟨⟨a, ha⟩, (h a).mp hf⟩
  · rintro ⟨⟨a, ha⟩, hP⟩
    exact ⟨a, ha, (h a).mpr hP⟩

/-- What follows cannot throw. -/
theorem succeeds_bind_of_succeeds {x : Except ε α} {f : α → Except ε β}
    (h : ∀ a, Succeeds (f a)) : Succeeds (x >>= f) ↔ Succeeds x :=
  (succeeds_bind_of_forall fun a => iff_true_intro (h a)).trans (and_iff_left trivial)

theorem succeeds_mapM {f : α → Except ε β} {l : List α} :
    Succeeds (l.mapM f) ↔ ∀ a ∈ l, Succeeds (f a) := by
  induction l with
  | nil => exact iff_of_true ⟨[], rfl⟩ fun a h => absurd h List.not_mem_nil
  | cons a l ih =>
      rw [List.mapM_cons, List.forall_mem_cons, ← ih]
      exact succeeds_bind_of_forall fun b => succeeds_bind_of_succeeds fun bs => succeeds_ok _

end Except
