import ErrorCore.Foundation.SlidingWindow
import ErrorCore.Security.RateLimiter

/-!
# Windows and drop counts of the rate limiter

What the limiter keeps is the recent part of its admissions, so that every
window of a run is bounded. Its counters are the numbers of the denials they
stand for, up to the largest safe integer, and each denial is in one summary or
still outstanding.
-/

namespace ErrorCore

namespace RateLimiter

open SlidingWindow

/-- What a counter shows of a number of events. -/
def shown (count : Nat) : Nat := min count maxSafeInteger

@[simp] theorem shown_zero : shown 0 = 0 := Nat.zero_min _

theorem saturate_shown (count : Nat) : saturate (shown count) = shown (count + 1) := by
  unfold saturate shown
  split <;> omega

theorem shown_le (count : Nat) : shown count ≤ count := Nat.min_le_left ..

theorem shown_eq_iff (count : Nat) : shown count = count ↔ count ≤ maxSafeInteger := by
  unfold shown
  omega

theorem shown_eq_zero_iff (count : Nat) : shown count = 0 ↔ count = 0 := by
  unfold shown maxSafeInteger
  omega

/-! ## Calls -/

section Calls

variable {config : Config} {limiter : Limiter} {now : Int}

theorem tryAcquire_of_room
    (hroom : (after (now - config.windowMs) limiter.timestamps).length < config.maxCaptures) :
    tryAcquire config limiter now =
      (true,
        { limiter with timestamps := after (now - config.windowMs) limiter.timestamps ++ [now] }) :=
  if_pos hroom

theorem tryAcquire_of_full
    (hfull : ¬(after (now - config.windowMs) limiter.timestamps).length < config.maxCaptures) :
    tryAcquire config limiter now =
      (false,
        { timestamps := after (now - config.windowMs) limiter.timestamps
          droppedCount := saturate limiter.droppedCount
          droppedSinceLastAcquire := saturate limiter.droppedSinceLastAcquire
          firstDropTimestamp := limiter.firstDropTimestamp.or (some now)
          lastDropTimestamp := some now }) :=
  if_neg hfull

theorem tryAcquire_denies_iff :
    (tryAcquire config limiter now).1 = false ↔
      config.maxCaptures ≤ (after (now - config.windowMs) limiter.timestamps).length := by
  by_cases hroom :
      (after (now - config.windowMs) limiter.timestamps).length < config.maxCaptures
  · simp only [tryAcquire_of_room hroom, Bool.true_eq_false, false_iff]
    omega
  · simp only [tryAcquire_of_full hroom, true_iff]
    omega

end Calls

/-! ## Invariant -/

/-- A summary counts the denials it covers and names the first and the last of them. -/
structure Covered.Faithful (covered : Covered) : Prop where
  nonempty : covered.denials ≠ []
  count : covered.summary.droppedCount = shown covered.denials.length
  first : covered.summary.firstDropMs = covered.denials.head?
  last : covered.summary.lastDropMs = covered.denials.getLast?

/-- The denials that the summaries cover, in order. -/
def State.coveredDenials (s : State) : List Int := s.summaries.flatMap Covered.denials

structure Accounts (s : State) : Prop where
  total : s.limiter.droppedCount = shown s.denied.length
  count : s.limiter.droppedSinceLastAcquire = shown s.outstanding.length
  first : s.limiter.firstDropTimestamp = s.outstanding.head?
  last : s.limiter.lastDropTimestamp = s.outstanding.getLast?
  faithful : ∀ covered ∈ s.summaries, covered.Faithful
  denied : s.coveredDenials ++ s.outstanding = s.denied

structure Invariant (config : Config) (s : State) : Prop where
  paced :
    Paced config.maxCaptures config.windowMs s.clock s.limiter.timestamps s.admitted
  accounts : Accounts s

theorem invariant_init (config : Config) (clock : Int) : Invariant config { clock } where
  paced := Paced.nil
  accounts :=
    { total := rfl
      count := rfl
      first := rfl
      last := rfl
      faithful := by intro covered hmem; cases hmem
      denied := rfl }

section Steps

variable {config : Config} {s : State} {now : Int}

/-- An admission changes no count. -/
theorem Invariant.acquire (h : Invariant config s) (hclock : s.clock ≤ now) :
    Invariant config (acquire config s now) := by
  by_cases hroom :
      (after (now - config.windowMs) s.limiter.timestamps).length < config.maxCaptures
  · unfold RateLimiter.acquire
    rw [tryAcquire_of_room hroom]
    exact ⟨h.paced.accept hclock hroom, ⟨h.accounts.total, h.accounts.count, h.accounts.first,
      h.accounts.last, h.accounts.faithful, h.accounts.denied⟩⟩
  · unfold RateLimiter.acquire
    rw [tryAcquire_of_full hroom]
    refine ⟨h.paced.deny hclock, ?_⟩
    constructor
    · simp only [h.accounts.total, saturate_shown, List.length_append, List.length_singleton]
    · simp only [h.accounts.count, saturate_shown, List.length_append, List.length_singleton]
    · simp only [h.accounts.first, List.head?_append, List.head?_cons]
    · simp only [List.getLast?_append, List.getLast?_singleton, Option.some_or]
    · exact h.accounts.faithful
    · have hdenied := h.accounts.denied
      simp only [State.coveredDenials] at hdenied ⊢
      rw [← List.append_assoc, hdenied]

/-- A summary takes over what is outstanding. -/
theorem Invariant.summarize (h : Invariant config s) : Invariant config (summarize s) := by
  unfold RateLimiter.summarize getAndResetDropSummary
  by_cases hzero : s.limiter.droppedSinceLastAcquire = 0
  · rw [if_pos hzero]
    exact h
  · rw [if_neg hzero]
    refine ⟨h.paced, ?_⟩
    have hnonempty : s.outstanding ≠ [] := by
      intro hnil
      rw [h.accounts.count, hnil] at hzero
      exact hzero rfl
    constructor
    · exact h.accounts.total
    · rfl
    · rfl
    · rfl
    · intro covered hmem
      rcases List.mem_append.mp hmem with hmem | hmem
      · exact h.accounts.faithful covered hmem
      · rw [List.mem_singleton.mp hmem]
        exact ⟨hnonempty, h.accounts.count, h.accounts.first, h.accounts.last⟩
    · have hdenied := h.accounts.denied
      simp only [State.coveredDenials, List.flatMap_append, List.flatMap_singleton,
        List.append_nil] at hdenied ⊢
      exact hdenied

end Steps

theorem preserved_invariant (config : Config) :
    (system config).Preserved (fun _ _ => True) (Invariant config) where
  init := by
    rintro s ⟨clock, rfl⟩
    exact invariant_init config clock
  step := by
    intro s call t h _ hstep
    cases call with
    | tryAcquire now =>
        by_cases hclock : s.clock ≤ now
        · have hnext : acquire config s now = t := by
            simpa only [system, step, hclock, if_true, Option.some.injEq] using hstep
          rw [← hnext]
          exact h.acquire hclock
        · simp only [system, step, hclock, if_false] at hstep
          contradiction
    | getAndResetDropSummary =>
        rw [← Option.some.inj hstep]
        exact h.summarize

/-! ## Totals -/

/-- The dropped counts of the summaries, added up. -/
def reported : List Covered → Nat
  | [] => 0
  | covered :: rest => covered.summary.droppedCount + reported rest

theorem reported_le {summaries : List Covered} (h : ∀ covered ∈ summaries, covered.Faithful) :
    reported summaries ≤ (summaries.flatMap Covered.denials).length := by
  induction summaries with
  | nil => exact Nat.le_refl 0
  | cons covered rest ih =>
      have hrest := ih fun other hmem => h other (List.mem_cons_of_mem _ hmem)
      have hcount := (h covered List.mem_cons_self).count
      have hle := shown_le covered.denials.length
      rw [List.flatMap_cons, List.length_append, reported]
      omega

/-- The summaries count every denial they cover unless a count was full. -/
theorem reported_eq_iff {summaries : List Covered}
    (h : ∀ covered ∈ summaries, covered.Faithful) :
    reported summaries = (summaries.flatMap Covered.denials).length ↔
      ∀ covered ∈ summaries, covered.denials.length ≤ maxSafeInteger := by
  induction summaries with
  | nil => simp [reported]
  | cons covered rest ih =>
      have hfaithful : ∀ other ∈ rest, other.Faithful :=
        fun other hmem => h other (List.mem_cons_of_mem _ hmem)
      have hcount := (h covered List.mem_cons_self).count
      have hle := shown_le covered.denials.length
      have hrest := reported_le hfaithful
      rw [List.forall_mem_cons, ← ih hfaithful, ← shown_eq_iff, List.flatMap_cons,
        List.length_append, reported]
      omega

theorem Accounts.reported_add_outstanding_iff {s : State} (h : Accounts s) :
    reported s.summaries + s.limiter.droppedSinceLastAcquire = s.denied.length ↔
      (∀ covered ∈ s.summaries, covered.denials.length ≤ maxSafeInteger) ∧
        s.outstanding.length ≤ maxSafeInteger := by
  have hle := reported_le h.faithful
  have hshown := shown_le s.outstanding.length
  have hdenied := congrArg List.length h.denied
  rw [List.length_append, State.coveredDenials] at hdenied
  rw [← reported_eq_iff h.faithful, ← shown_eq_iff s.outstanding.length, h.count]
  omega

/-! ## Every run -/

/-- Every window of a run is bounded, a call is denied exactly when the window that ends with it is
full, and the counts are those of the denials unless one of them is beyond the largest safe
integer. -/
theorem rateLimiter_bounds_and_accounts (config : Config) (clock : Int) (calls : List Call)
    (s : State) (run : (system config).exec { clock } calls = some s) :
    (∀ start, (window start config.windowMs s.admitted).length ≤ config.maxCaptures) ∧
      (∀ now, s.clock ≤ now →
        ((tryAcquire config s.limiter now).1 = false ↔
          (window (now - config.windowMs + 1) config.windowMs s.admitted).length =
            config.maxCaptures)) ∧
      (reported s.summaries + s.limiter.droppedSinceLastAcquire = s.denied.length ↔
        (∀ covered ∈ s.summaries, covered.denials.length ≤ maxSafeInteger) ∧
          s.outstanding.length ≤ maxSafeInteger) ∧
      s.coveredDenials ++ s.outstanding = s.denied ∧
      (∀ covered ∈ s.summaries,
        covered.summary.droppedCount = shown covered.denials.length ∧
          covered.summary.firstDropMs = covered.denials.head? ∧
          covered.summary.lastDropMs = covered.denials.getLast?) := by
  have h : Invariant config s :=
    (preserved_invariant config).exec ⟨clock, rfl⟩ Transition.System.guarded_true run
  refine ⟨h.paced.bounded, ?_, h.accounts.reported_add_outstanding_iff, h.accounts.denied, ?_⟩
  · intro now hclock
    have hbound := h.paced.bounded (now - config.windowMs + 1)
    rw [tryAcquire_denies_iff, h.paced.after_kept_eq_window hclock]
    omega
  · intro covered hmem
    have hfaithful := h.accounts.faithful covered hmem
    exact ⟨hfaithful.count, hfaithful.first, hfaithful.last⟩

/-- Two calls in one second with room for one, and a summary. -/
theorem rateLimiter_bounds_and_accounts_one :
    (∀ start, (window start 1000 [0]).length ≤ 1) ∧
      (∀ now : Int, 5 ≤ now →
        ((tryAcquire { maxCaptures := 1, windowMs := 1000 }
            { timestamps := [0], droppedCount := 1 } now).1 = false ↔
          (window (now - 1000 + 1) 1000 [0]).length = 1)) := by
  have h := rateLimiter_bounds_and_accounts { maxCaptures := 1, windowMs := 1000 } 0
    [.tryAcquire 0, .tryAcquire 5, .getAndResetDropSummary] _ rfl
  exact ⟨h.1, h.2.1⟩

/-! ## Full counters -/

section Denials

variable {config : Config} {s : State}

theorem acquire_of_full
    (hkept : after (s.clock - config.windowMs) s.limiter.timestamps = s.limiter.timestamps)
    (hfull : ¬s.limiter.timestamps.length < config.maxCaptures) :
    ∃ t, acquire config s s.clock = t ∧ t.clock = s.clock ∧
      t.limiter.timestamps = s.limiter.timestamps ∧
      t.outstanding = s.outstanding ++ [s.clock] := by
  unfold acquire
  rw [tryAcquire_of_full (by rwa [hkept]), hkept]
  exact ⟨_, rfl, rfl, rfl, rfl⟩

/-- A limiter without room denies any number of calls at one time. -/
theorem exec_denials (count : Nat)
    (hkept : after (s.clock - config.windowMs) s.limiter.timestamps = s.limiter.timestamps)
    (hfull : ¬s.limiter.timestamps.length < config.maxCaptures) :
    ∃ t, (system config).exec s (List.replicate count (.tryAcquire s.clock)) = some t ∧
      t.outstanding.length = s.outstanding.length + count := by
  induction count generalizing s with
  | zero => exact ⟨s, rfl, rfl⟩
  | succ count ih =>
      obtain ⟨t, hacquire, hclock, htimestamps, houtstanding⟩ := acquire_of_full hkept hfull
      have hstep : (system config).step s (.tryAcquire s.clock) = some t := by
        rw [← hacquire]
        exact if_pos (Int.le_refl _)
      rw [← hclock, ← htimestamps] at hkept
      rw [← htimestamps] at hfull
      obtain ⟨u, hrun, hlength⟩ := ih hkept hfull
      rw [hclock] at hrun
      rw [houtstanding, List.length_append, List.length_singleton] at hlength
      refine ⟨u, ?_, by omega⟩
      rw [List.replicate_succ, Transition.System.exec_cons hstep, hrun]

end Denials

/-- More denials than the largest safe integer between two summaries are not all counted. -/
theorem rateLimiter_counts_saturate :
    ∃ s, (system { maxCaptures := 1, windowMs := 1000 }).exec { clock := 0 }
        (.tryAcquire 0 :: List.replicate (maxSafeInteger + 1) (.tryAcquire 0)) = some s ∧
      reported s.summaries + s.limiter.droppedSinceLastAcquire ≠ s.denied.length := by
  let full : State := { limiter := { timestamps := [0] }, clock := 0, admitted := [0] }
  have hfirst : (system { maxCaptures := 1, windowMs := 1000 }).step { clock := 0 }
      (.tryAcquire 0) = some full := rfl
  have hkept : after (full.clock - 1000) full.limiter.timestamps = full.limiter.timestamps := rfl
  have hfull : ¬full.limiter.timestamps.length < 1 := by decide
  obtain ⟨s, hrun, hlength⟩ :
      ∃ s, (system { maxCaptures := 1, windowMs := 1000 }).exec full
          (List.replicate (maxSafeInteger + 1) (.tryAcquire 0)) = some s ∧
        s.outstanding.length = 0 + (maxSafeInteger + 1) :=
    exec_denials (maxSafeInteger + 1) hkept hfull
  have hwhole := (Transition.System.exec_cons hfirst).trans hrun
  have h := (preserved_invariant _).exec ⟨0, rfl⟩ Transition.System.guarded_true hwhole
  refine ⟨s, hwhole, ?_⟩
  rw [Ne, h.accounts.reported_add_outstanding_iff]
  intro hsafe
  have houtstanding := hsafe.2
  rw [hlength] at houtstanding
  omega

end RateLimiter

end ErrorCore
