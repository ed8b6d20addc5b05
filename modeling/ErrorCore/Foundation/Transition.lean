import Mathlib.Logic.Basic

/-!
# Guarded runs of a labelled transition system

A label resolves every choice of a step: which party moves, which message is
delivered, which outcome an operation of the environment has. A step is
therefore a partial function, and a run is the list of its labels.

A guard restricts single steps by the state they are taken in. `Guarded` says
that each step of a run meets the guard, `Always` that each visited state has
a property, and `Preserved` is the induction rule between the two.
-/

namespace Transition

universe u v
variable {σ : Type u} {α : Type v}

/-- A labelled transition system whose labels determine their effect. -/
structure System (σ : Type u) (α : Type v) where
  init : σ → Prop
  step : σ → α → Option σ

namespace System

/-- The state after the labels of a run, or `none` if one of them is not enabled. -/
def exec (S : System σ α) : σ → List α → Option σ
  | s, [] => some s
  | s, a :: as =>
      match S.step s a with
      | none => none
      | some t => S.exec t as

/-- Every step the run takes meets the guard in the state it starts from. -/
def Guarded (S : System σ α) (guard : σ → α → Prop) : σ → List α → Prop
  | _, [] => True
  | s, a :: as =>
      match S.step s a with
      | none => True
      | some t => guard s a ∧ S.Guarded guard t as

/-- Every state the run visits, the first and the last included, has the property. -/
def Always (S : System σ α) (P : σ → Prop) : σ → List α → Prop
  | s, [] => P s
  | s, a :: as =>
      P s ∧
        match S.step s a with
        | none => True
        | some t => S.Always P t as

instance decidableGuarded (S : System σ α) (guard : σ → α → Prop)
    [h : ∀ s a, Decidable (guard s a)] : ∀ s as, Decidable (S.Guarded guard s as)
  | _, [] => .isTrue trivial
  | s, a :: as =>
      match hstep : S.step s a with
      | none => .isTrue (by simp only [Guarded, hstep])
      | some t =>
          @decidable_of_iff _ (guard s a ∧ S.Guarded guard t as)
            (by simp only [Guarded, hstep])
            (@instDecidableAnd _ _ (h s a) (decidableGuarded S guard t as))

instance decidableAlways (S : System σ α) (P : σ → Prop) [h : ∀ s, Decidable (P s)] :
    ∀ s as, Decidable (S.Always P s as)
  | s, [] => h s
  | s, a :: as =>
      match hstep : S.step s a with
      | none => @decidable_of_iff _ (P s) (by simp only [Always, hstep, and_true]) (h s)
      | some t =>
          @decidable_of_iff _ (P s ∧ S.Always P t as) (by simp only [Always, hstep])
            (@instDecidableAnd _ _ (h s) (decidableAlways S P t as))

variable {S : System σ α} {guard : σ → α → Prop} {I P : σ → Prop}
variable {s t : σ} {a : α} {as bs : List α}

@[simp] theorem exec_nil : S.exec s [] = some s := rfl

theorem exec_cons (h : S.step s a = some t) : S.exec s (a :: as) = S.exec t as := by
  simp only [exec, h]

theorem exec_singleton : S.exec s [a] = S.step s a := by
  cases hstep : S.step s a with
  | none => simp only [exec, hstep]
  | some t => rw [exec_cons hstep, exec_nil]

theorem exec_append (h : S.exec s as = some t) : S.exec s (as ++ bs) = S.exec t bs := by
  induction as generalizing s with
  | nil =>
      simp only [exec_nil, Option.some.injEq] at h
      rw [h, List.nil_append]
  | cons a as ih =>
      cases hstep : S.step s a with
      | none => simp only [exec, hstep] at h; contradiction
      | some u =>
          rw [List.cons_append, exec_cons hstep]
          exact ih (by rwa [exec_cons hstep] at h)

/-- A run in two parts passes through a state between them. -/
theorem exec_split (run : S.exec s (as ++ bs) = some t) :
    ∃ u, S.exec s as = some u ∧ S.exec u bs = some t := by
  induction as generalizing s with
  | nil => exact ⟨s, rfl, run⟩
  | cons a as ih =>
      cases hstep : S.step s a with
      | none => simp only [List.cons_append, exec, hstep] at run; contradiction
      | some u =>
          rw [List.cons_append, exec_cons hstep] at run
          rw [exec_cons hstep]
          exact ih run

/-- A run is guarded when both of its parts are. -/
theorem guarded_append (first : S.Guarded guard s as) (run : S.exec s as = some t)
    (rest : S.Guarded guard t bs) : S.Guarded guard s (as ++ bs) := by
  induction as generalizing s with
  | nil =>
      simp only [exec_nil, Option.some.injEq] at run
      rwa [List.nil_append, run]
  | cons a as ih =>
      cases hstep : S.step s a with
      | none => simp only [exec, hstep] at run; contradiction
      | some u =>
          simp only [Guarded, hstep] at first
          simp only [List.cons_append, Guarded, hstep]
          exact ⟨first.1, ih first.2 (by rwa [exec_cons hstep] at run)⟩

theorem Always.head (h : S.Always P s as) : P s := by
  cases as with
  | nil => exact h
  | cons => exact h.1

theorem Always.final (h : S.Always P s as) (run : S.exec s as = some t) : P t := by
  induction as generalizing s with
  | nil => exact Option.some.inj run ▸ h
  | cons a as ih =>
      cases hstep : S.step s a with
      | none => simp only [exec, hstep] at run; contradiction
      | some u =>
          simp only [Always, hstep] at h
          exact ih h.2 (by rwa [exec_cons hstep] at run)

/-- What is left of a run after its first step. -/
theorem Always.tail (h : S.Always P s (a :: as)) (hstep : S.step s a = some t) :
    S.Always P t as := by
  simp only [Always, hstep] at h
  exact h.2

/-- What a guarded run meets after its first step. -/
theorem Guarded.tail (h : S.Guarded guard s (a :: as)) (hstep : S.step s a = some t) :
    S.Guarded guard t as := by
  simp only [Guarded, hstep] at h
  exact h.2

/-- What a guarded run meets in its first step. -/
theorem Guarded.head (h : S.Guarded guard s (a :: as)) (hstep : S.step s a = some t) :
    guard s a := by
  simp only [Guarded, hstep] at h
  exact h.1

theorem Always.mono (h : S.Always I s as) (sub : ∀ s, I s → P s) : S.Always P s as := by
  induction as generalizing s with
  | nil => exact sub s h
  | cons a as ih =>
      simp only [Always] at h ⊢
      refine ⟨sub s h.1, ?_⟩
      cases hstep : S.step s a with
      | none => trivial
      | some t =>
          simp only [hstep] at h
          exact ih h.2

theorem Guarded.mono {guard' : σ → α → Prop} (run : S.Guarded guard s as)
    (sub : ∀ s a, guard s a → guard' s a) : S.Guarded guard' s as := by
  induction as generalizing s with
  | nil => trivial
  | cons a as ih =>
      simp only [Guarded] at run ⊢
      cases hstep : S.step s a with
      | none => trivial
      | some t =>
          simp only [hstep] at run
          exact ⟨sub s a run.1, ih run.2⟩

/-- A guard can be joined with a property of the labels. -/
theorem Guarded.and_mem {Q : α → Prop} (run : S.Guarded guard s as) (h : ∀ a ∈ as, Q a) :
    S.Guarded (fun s a => guard s a ∧ Q a) s as := by
  induction as generalizing s with
  | nil => trivial
  | cons a as ih =>
      simp only [Guarded] at run ⊢
      cases hstep : S.step s a with
      | none => trivial
      | some t =>
          simp only [hstep] at run
          refine ⟨⟨run.1, h a List.mem_cons_self⟩, ?_⟩
          exact ih run.2 fun other hother => h other (List.mem_cons_of_mem _ hother)

/-- A property of all visited states restricts each step at both of its ends. -/
theorem Guarded.and_always (run : S.Guarded guard s as) (h : S.Always P s as) :
    S.Guarded (fun s a => guard s a ∧ P s ∧ ∀ t, S.step s a = some t → P t) s as := by
  induction as generalizing s with
  | nil => trivial
  | cons a as ih =>
      simp only [Always] at h
      simp only [Guarded] at run ⊢
      cases hstep : S.step s a with
      | none => trivial
      | some t =>
          simp only [hstep] at run h
          refine ⟨⟨run.1, h.1, ?_⟩, ih run.2 h.2⟩
          intro u hu
          rw [← Option.some.inj hu]
          exact h.2.head

/-- `I` holds initially and every step that meets the guard keeps it. -/
structure Preserved (S : System σ α) (guard : σ → α → Prop) (I : σ → Prop) : Prop where
  init : ∀ s, S.init s → I s
  step : ∀ s a t, I s → guard s a → S.step s a = some t → I t

namespace Preserved

theorem always (h : S.Preserved guard I) (hs : I s) (run : S.Guarded guard s as) :
    S.Always I s as := by
  induction as generalizing s with
  | nil => exact hs
  | cons a as ih =>
      simp only [Always]
      refine ⟨hs, ?_⟩
      cases hstep : S.step s a with
      | none => trivial
      | some t =>
          simp only [Guarded, hstep] at run
          exact ih (h.step s a t hs run.1 hstep) run.2

/-- A preserved property holds at the end of a guarded run that starts with it. -/
theorem exec_from (h : S.Preserved guard I) (hI : I s) (run : S.Guarded guard s as)
    (hrun : S.exec s as = some t) : I t := by
  induction as generalizing s with
  | nil =>
      simp only [exec_nil, Option.some.injEq] at hrun
      exact hrun ▸ hI
  | cons a as ih =>
      cases hstep : S.step s a with
      | none => simp only [System.exec, hstep] at hrun; contradiction
      | some u =>
          simp only [Guarded, hstep] at run
          exact ih (h.step s a u hI run.1 hstep) run.2 (by rwa [exec_cons hstep] at hrun)

/-- The induction rule: a preserved property holds at the end of a guarded run. -/
theorem exec (h : S.Preserved guard I) (hs : S.init s) (run : S.Guarded guard s as)
    (hrun : S.exec s as = some t) : I t :=
  h.exec_from (h.init s hs) run hrun

end Preserved

/-- A guard is exact for a property `P` of states and a property `R` of steps when, besides keeping
the invariant, a step misses it only by leading out of `P` or by lacking `R`. Then a run stays in
`P` by steps with `R` if and only if each of its steps meets the guard. -/
theorem always_and_guarded_iff {R : σ → α → Prop} (h : S.Preserved guard I)
    (sound : ∀ s, I s → P s)
    (steps : ∀ s a t, I s → S.step s a = some t → guard s a → R s a)
    (necessary : ∀ s a t, I s → S.step s a = some t → P t → R s a → guard s a)
    (hs : I s) : S.Always P s as ∧ S.Guarded R s as ↔ S.Guarded guard s as := by
  induction as generalizing s with
  | nil => exact ⟨fun _ => trivial, fun _ => ⟨sound s hs, trivial⟩⟩
  | cons a as ih =>
      cases hstep : S.step s a with
      | none =>
          simp only [Always, Guarded, hstep, and_true]
          exact ⟨fun _ => trivial, fun _ => sound s hs⟩
      | some t =>
          simp only [Always, Guarded, hstep]
          constructor
          · rintro ⟨⟨_, rest⟩, hR, restR⟩
            have first : P t := by
              cases as with
              | nil => exact rest
              | cons => exact rest.1
            have hg : guard s a := necessary s a t hs hstep first hR
            exact ⟨hg, (ih (h.step s a t hs hg hstep)).mp ⟨rest, restR⟩⟩
          · rintro ⟨hg, rest⟩
            obtain ⟨restP, restR⟩ := (ih (h.step s a t hs hg hstep)).mpr rest
            exact ⟨⟨sound s hs, restP⟩, steps s a t hs hstep hg, restR⟩

theorem guarded_true : S.Guarded (fun _ _ => True) s as := by
  induction as generalizing s with
  | nil => trivial
  | cons a as ih =>
      simp only [Guarded]
      cases S.step s a with
      | none => trivial
      | some t => exact ⟨trivial, ih⟩

/-- A guard that a step misses only by leading out of `P` is exact for the runs that stay in `P`. -/
theorem always_iff_guarded (h : S.Preserved guard I) (sound : ∀ s, I s → P s)
    (necessary : ∀ s a t, I s → S.step s a = some t → P t → guard s a) (hs : I s) :
    S.Always P s as ↔ S.Guarded guard s as := by
  have exact_iff : S.Always P s as ∧ S.Guarded (fun _ _ => True) s as ↔ S.Guarded guard s as :=
    always_and_guarded_iff h sound (fun _ _ _ _ _ _ => trivial)
      (fun s a t hI hstep hP _ => necessary s a t hI hstep hP) hs
  exact ⟨fun hP => exact_iff.mp ⟨hP, guarded_true⟩, fun hguard => (exact_iff.mpr hguard).1⟩

end System

end Transition
