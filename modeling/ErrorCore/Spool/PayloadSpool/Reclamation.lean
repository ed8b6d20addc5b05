import ErrorCore.Spool.PayloadSpool.Budgets

/-!
# Reclaiming the blobs of completed requests

`markRequestComplete` marks the entries a request has at that moment, and `sweep`
deletes only marked ones. A body of the request that is stored later starts
unmarked and stays: nothing marks the request a second time.
-/

namespace ErrorCore.PayloadSpool

variable {options : PayloadSpoolOptions} {s t : PayloadSpool} {requestId : Text}

namespace Action

/-- The readings of the clock that the call takes, in order. -/
def times : Action → List Int
  | .store sweptAt createdAtMs _ _ => [sweptAt, createdAtMs]
  | .markRequestComplete _ now | .sweep now => [now]

def completes (requestId : Text) : Action → Bool
  | .markRequestComplete completed _ => completed = requestId
  | .store _ _ _ _ | .sweep _ => false

/-- The call stores a body of the request or completes it. -/
def concerns (requestId : Text) : Action → Bool
  | .store _ _ _ input => input.requestId = some requestId
  | .markRequestComplete completed _ => completed = requestId
  | .sweep _ => false

end Action

def NoEntryOf (requestId : Text) (s : PayloadSpool) : Prop :=
  ∀ pair ∈ s.entries, pair.2.ref.requestId ≠ some requestId

instance : Decidable (NoEntryOf requestId s) :=
  inferInstanceAs (Decidable (∀ pair ∈ s.entries, pair.2.ref.requestId ≠ some requestId))

/-- A body of the request is kept as a preview only. -/
def PreviewsStoresOf (options : PayloadSpoolOptions) (requestId : Text) (s : PayloadSpool) :
    Action → Prop
  | .store sweptAt _ reading input =>
      input.requestId = some requestId →
        (s.sweep options sweptAt).previewReason options reading input ≠ none
  | .markRequestComplete _ _ | .sweep _ => True

/-- Each entry of the request was marked at `marked`. -/
def MarkedAt (requestId : Text) (marked : Int) (s : PayloadSpool) : Prop :=
  ∀ pair ∈ s.entries, pair.2.ref.requestId = some requestId →
    pair.2.state = .sweepable ∧ pair.2.completedAtMs = some marked

/-- An entry of the request was never marked. -/
def HasActive (requestId : Text) (s : PayloadSpool) : Prop :=
  ∃ pair ∈ s.entries, pair.2.ref.requestId = some requestId ∧ pair.2.state = .active

variable {marked now : Int} {a : Action} {before after : List Action}

/-! ## Marked entries -/

theorem MarkedAt.mark (requestId : Text) (now : Int) (s : PayloadSpool) :
    MarkedAt requestId now (s.markRequestComplete requestId now) := by
  intro pair hmem hrequest
  obtain ⟨old, -, rfl⟩ := List.mem_map.mp hmem
  simp only [completedEntry_ref] at hrequest
  simp [completedEntry, hrequest]

theorem MarkedAt.sweep (h : MarkedAt requestId marked s) (hkeyed : Keyed s) :
    MarkedAt requestId marked (s.sweep options now) := by
  intro pair hmem hrequest
  rw [sweep_entries hkeyed] at hmem
  exact h pair (List.mem_filter.mp hmem).1 hrequest

theorem MarkedAt.markOther (h : MarkedAt requestId marked s) {other : Text}
    (hother : other ≠ requestId) :
    MarkedAt requestId marked (s.markRequestComplete other now) := by
  intro pair hmem hrequest
  obtain ⟨old, hold, rfl⟩ := List.mem_map.mp hmem
  simp only [completedEntry_ref] at hrequest
  have hne : old.2.ref.requestId ≠ some other := by
    rw [hrequest]
    exact fun heq => hother (Option.some.inj heq).symm
  simp only [completedEntry, if_pos hne]
  exact h old hold hrequest

theorem MarkedAt.storeSwept (h : MarkedAt requestId marked s) (hkeyed : Keyed s)
    {createdAtMs : Int} {reading : PressureReading} {input : PayloadSpoolStoreInput}
    (hpreview : input.requestId = some requestId →
      s.previewReason options reading input ≠ none) :
    MarkedAt requestId marked (s.storeSwept options createdAtMs reading input).spool := by
  cases hreason : s.previewReason options reading input with
  | some reason =>
      rw [storeSwept_preview hreason]
      exact h
  | none =>
      rw [storeSwept_kept hkeyed hreason]
      intro pair hmem hrequest
      rcases List.mem_append.mp hmem with hold | hnew
      · exact h pair hold hrequest
      · obtain rfl := List.mem_singleton.mp hnew
        exact absurd hreason (hpreview hrequest)

/-- While bodies of the request are previewed, its entries are those that were marked. -/
theorem MarkedAt.step (h : MarkedAt requestId marked s) (hkeyed : Keyed s)
    (hcompletes : a.completes requestId = false)
    (hpreview : PreviewsStoresOf options requestId s a) :
    MarkedAt requestId marked (s.step options a) := by
  cases a with
  | store sweptAt createdAtMs reading input =>
      exact (h.sweep hkeyed).storeSwept hkeyed.sweep hpreview
  | markRequestComplete other now =>
      exact h.markOther (of_decide_eq_false hcompletes)
  | sweep now => exact h.sweep hkeyed

/-- A sweep that comes late enough takes every marked entry. -/
theorem MarkedAt.reclaimed (h : MarkedAt requestId marked s) (hkeyed : Keyed s)
    (late : (options.completedTtlMs : Int) < now - marked) :
    NoEntryOf requestId (s.sweep options now) := by
  intro pair hmem hrequest
  rw [sweep_entries hkeyed] at hmem
  obtain ⟨hentry, hsurvives⟩ := List.mem_filter.mp hmem
  obtain ⟨hstate, hcompleted⟩ := h pair hentry hrequest
  simp [expired, hstate, hcompleted, late] at hsurvives

/-! ## Entries that stay -/

theorem HasActive.sweep (h : HasActive requestId s) (hkeyed : Keyed s) :
    HasActive requestId (s.sweep options now) := by
  obtain ⟨pair, hmem, hrequest, hactive⟩ := h
  refine ⟨pair, ?_, hrequest, hactive⟩
  rw [sweep_entries hkeyed]
  exact List.mem_filter.mpr ⟨hmem, by simp [expired, hactive]⟩

theorem HasActive.markOther (h : HasActive requestId s) {other : Text}
    (hother : other ≠ requestId) : HasActive requestId (s.markRequestComplete other now) := by
  obtain ⟨pair, hmem, hrequest, hactive⟩ := h
  have hne : pair.2.ref.requestId ≠ some other := by
    rw [hrequest]
    exact fun heq => hother (Option.some.inj heq).symm
  refine ⟨_, List.mem_map_of_mem hmem, ?_, ?_⟩
  · simpa using hrequest
  · simpa only [completedEntry, if_pos hne] using hactive

theorem HasActive.storeSwept (h : HasActive requestId s) (hkeyed : Keyed s) {createdAtMs : Int}
    {reading : PressureReading} {input : PayloadSpoolStoreInput} :
    HasActive requestId (s.storeSwept options createdAtMs reading input).spool := by
  cases hreason : s.previewReason options reading input with
  | some reason =>
      rw [storeSwept_preview hreason]
      exact h
  | none =>
      rw [storeSwept_kept hkeyed hreason]
      obtain ⟨pair, hmem, hpair⟩ := h
      exact ⟨pair, List.mem_append_left _ hmem, hpair⟩

theorem HasActive.step (h : HasActive requestId s) (hkeyed : Keyed s)
    (hcompletes : a.completes requestId = false) : HasActive requestId (s.step options a) := by
  cases a with
  | store sweptAt createdAtMs reading input => exact (h.sweep hkeyed).storeSwept hkeyed.sweep
  | markRequestComplete other now => exact h.markOther (of_decide_eq_false hcompletes)
  | sweep now => exact h.sweep hkeyed

/-- A body of the request that is kept whole is not marked. -/
theorem hasActive_of_kept (hkeyed : Keyed s)
    (hkept : ¬ PreviewsStoresOf options requestId s a) :
    HasActive requestId (s.step options a) := by
  cases a with
  | store sweptAt createdAtMs reading input =>
      simp only [PreviewsStoresOf, Classical.not_imp, ne_eq, not_not] at hkept
      obtain ⟨hrequest, hreason⟩ := hkept
      have hkeyed' : Keyed (s.sweep options sweptAt) := hkeyed.sweep
      show HasActive requestId ((s.sweep options sweptAt).storeSwept options _ _ _).spool
      rw [storeSwept_kept hkeyed' hreason]
      exact ⟨_, List.mem_append_right _ List.mem_cons_self, hrequest, rfl⟩
  | markRequestComplete other now => exact absurd trivial hkept
  | sweep now => exact absurd trivial hkept

theorem HasActive.exec (h : HasActive requestId s) (hkeyed : Keyed s)
    (hafter : ∀ a ∈ after, a.completes requestId = false)
    (run : (system options).exec s after = some t) : HasActive requestId t ∧ Keyed t := by
  induction after generalizing s with
  | nil =>
      cases run
      exact ⟨h, hkeyed⟩
  | cons a after ih =>
      exact ih (h.step hkeyed (hafter a List.mem_cons_self)) (hkeyed.step a)
        (fun b hmem => hafter b (List.mem_cons_of_mem _ hmem)) run

theorem HasActive.not_reclaimed (h : HasActive requestId s) (hkeyed : Keyed s) :
    ¬ NoEntryOf requestId (s.sweep options now) := by
  obtain ⟨pair, hmem, hrequest, -⟩ := h.sweep hkeyed
  exact fun hnone => hnone pair hmem hrequest

/-! ## Runs -/

/-- The calls after the mark, by induction from the first of them. -/
theorem MarkedAt.sweep_reclaims_iff (h : MarkedAt requestId marked s) (hkeyed : Keyed s)
    (hafter : ∀ a ∈ after, a.completes requestId = false)
    (run : (system options).exec s after = some t)
    (late : (options.completedTtlMs : Int) < now - marked) :
    NoEntryOf requestId (t.sweep options now) ↔
      (system options).Guarded (PreviewsStoresOf options requestId) s after := by
  induction after generalizing s with
  | nil =>
      cases run
      exact ⟨fun _ => trivial, fun _ => h.reclaimed hkeyed late⟩
  | cons a after ih =>
      have hfirst : a.completes requestId = false := hafter a List.mem_cons_self
      have hrest : ∀ b ∈ after, b.completes requestId = false :=
        fun b hmem => hafter b (List.mem_cons_of_mem _ hmem)
      show NoEntryOf requestId (t.sweep options now) ↔
        PreviewsStoresOf options requestId s a ∧
          (system options).Guarded (PreviewsStoresOf options requestId) (s.step options a) after
      by_cases hpreview : PreviewsStoresOf options requestId s a
      · rw [ih (h.step hkeyed hfirst hpreview) (hkeyed.step a) hrest run]
        exact ⟨fun rest => ⟨hpreview, rest⟩, And.right⟩
      · have hactive := hasActive_of_kept hkeyed hpreview
        obtain ⟨hlast, hkeyed'⟩ := hactive.exec (hkeyed.step a) hrest run
        exact ⟨fun hnone => absurd hnone (hlast.not_reclaimed hkeyed'), fun hguard =>
          absurd hguard.1 hpreview⟩

/-- Whenever its bodies were stored, a sweep more than the time to live after the last completion
of a request leaves no entry of it exactly when each body stored after that completion was kept as
a preview only. -/
theorem reclaimed_iff (options : PayloadSpoolOptions) (requestId : Text)
    (run : (system options).exec new (before ++ [.markRequestComplete requestId marked]) = some s)
    (rest : (system options).exec s after = some t)
    (last : ∀ a ∈ after, a.completes requestId = false)
    (late : (options.completedTtlMs : Int) < now - marked) :
    NoEntryOf requestId (t.sweep options now) ↔
      (system options).Guarded (PreviewsStoresOf options requestId) s after := by
  obtain ⟨u, hbefore, hmark⟩ := Transition.System.exec_split run
  cases hmark
  have hkeyed : Keyed u :=
    (accounted_preserved.exec rfl Transition.System.guarded_true hbefore).1
  exact (MarkedAt.mark requestId marked u).sweep_reclaims_iff hkeyed.markRequestComplete last rest
    late

/-! ## A late capture -/

def lateOptions : PayloadSpoolOptions where
  globalMaxBytes := 64 * 1024 * 1024
  perRequestMaxBytes := 2 * 1024 * 1024
  perBlobMaxBytes := 512 * 1024
  previewBytes := 8 * 1024
  completedTtlMs := 60000

/-- A body of the request `r`. -/
def bodyOf (bytes : List UInt8) : PayloadSpoolStoreInput where
  requestId := some ("r" : Text)
  mimeType := none
  bytes := bytes
  originalSize := bytes.length
  sha256 := []
  complete := true

def storeAt (now : Int) : Action := .store now now ⟨1, 2, 0⟩ (bodyOf [1, 2, 3])

/-- The request is completed after its body was stored, and nothing is stored after that. -/
theorem completedRequest_reclaimed :
    ∃ s, (system lateOptions).exec new [storeAt 0, .markRequestComplete ("r" : Text) 10] = some s ∧
      (NoEntryOf ("r" : Text) (s.sweep lateOptions 60011) ↔
        (system lateOptions).Guarded (PreviewsStoresOf lateOptions ("r" : Text)) s []) :=
  have run : (system lateOptions).exec new
      ([storeAt 0] ++ [.markRequestComplete ("r" : Text) 10]) = some _ := rfl
  ⟨_, run, reclaimed_iff lateOptions ("r" : Text) run rfl nofun (by decide)⟩

/-- A capture after the completion stores another body, which every later sweep leaves. -/
theorem lateStore_not_reclaimed :
    ¬ ∀ (options : PayloadSpoolOptions) (requestId : Text) (run : List Action) (marked now : Int)
        (t : PayloadSpool),
        (system options).exec new run = some t →
        .markRequestComplete requestId marked ∈ run →
        (run.flatMap Action.times ++ [now]).Pairwise (· ≤ ·) →
        (∀ a ∈ run, a.concerns requestId = true →
          ∀ time ∈ a.times, (options.completedTtlMs : Int) < now - time) →
        NoEntryOf requestId (t.sweep options now) := by
  intro claim
  have hnone := claim lateOptions ("r" : Text)
    [storeAt 0, .markRequestComplete ("r" : Text) 10, storeAt 20] 10 60021 _ rfl
    (by simp) (by decide) (by decide)
  exact absurd hnone (by decide +kernel)

end ErrorCore.PayloadSpool
