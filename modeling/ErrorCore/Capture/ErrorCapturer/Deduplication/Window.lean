import ErrorCore.Capture.ErrorCapturer.Deduplication
import ErrorCore.Foundation.RecentKeys

/-!
# Window of the deduplication

A suppressed capture always has an admitted one with its key within the window.
The converse fails once an anchor that was refreshed in place is given up before
an older one; it holds in exactly the runs in which this does not happen.
-/

namespace ErrorCore

namespace Deduplication

open InsertionMap RecentKeys

section Calls

variable {config : RateLimiter.Config} {capturer : Capturer} {call : CaptureCall}
variable {recentCaptures : List (Text × Int)} {key : Text} {now : Int}

theorem isDuplicate_iff :
    isDuplicate recentCaptures key now = true ↔
      ∃ previousNs, get? recentCaptures key = some previousNs ∧
        now - previousNs < dedupWindowNs := by
  unfold isDuplicate
  cases get? recentCaptures key with
  | none => simp
  | some previousNs => simp

/-- The first key of a map with distinct keys is taken out as its first pair. -/
theorem register_eq (hnodup : (recentCaptures.map (·.1)).Nodup) :
    register recentCaptures key now = insertCapped dedupMaxEntries recentCaptures key now := by
  have hset : ((set recentCaptures key now).map (·.1)).Nodup := nodup_keys_set hnodup
  unfold insertCapped
  by_cases hfull : dedupMaxEntries < (set recentCaptures key now).length
  · unfold register
    simp only [if_pos hfull]
    cases hmap : set recentCaptures key now with
    | nil => rfl
    | cons oldest rest =>
        rw [hmap] at hset
        rw [← List.nil_append (oldest :: rest)] at hset ⊢
        exact delete_append_cons hset
  · rw [if_neg hfull]
    exact if_neg hfull

theorem acquire_ne_deduplicated {key : Option Text} :
    (acquire config capturer key call).1 ≠ .deduplicated := by
  unfold acquire
  split
  · intro h
    cases h
  · intro h
    cases h

theorem capture_deduplicated_iff :
    (capture config capturer call).1 = .deduplicated ↔
      ∃ key, dedupKey call = some key ∧
        isDuplicate capturer.recentCaptures key call.errorEventHrtimeNs = true := by
  unfold capture
  cases dedupKey call with
  | none => simp [acquire_ne_deduplicated]
  | some key =>
      by_cases hduplicate :
          isDuplicate capturer.recentCaptures key call.errorEventHrtimeNs = true
      · simp [hduplicate]
      · simp [hduplicate, acquire_ne_deduplicated]

/-- A call that becomes an anchor. -/
structure Anchors (config : RateLimiter.Config) (capturer : Capturer) (call : CaptureCall)
    (key : Text) : Prop where
  keyed : dedupKey call = some key
  fresh : isDuplicate capturer.recentCaptures key call.errorEventHrtimeNs = false
  acquired : (RateLimiter.tryAcquire config capturer.rateLimiter call.now).1 = true

/-- A call leaves the anchors and the log as they are, or adds its own to both. -/
theorem capture_cases (config : RateLimiter.Config) (capturer : Capturer) (call : CaptureCall) :
    (capture config capturer call).2.recentCaptures = capturer.recentCaptures ∧
        logged call (capture config capturer call).1 = [] ∧
        (∀ key, ¬Anchors config capturer call key) ∨
      ∃ key, Anchors config capturer call key ∧
        (capture config capturer call).2.recentCaptures =
          register capturer.recentCaptures key call.errorEventHrtimeNs ∧
        logged call (capture config capturer call).1 = [(key, call.errorEventHrtimeNs)] := by
  cases hkey : dedupKey call with
  | none =>
      left
      unfold capture acquire logged
      simp only [hkey]
      refine ⟨?_, ?_, fun key h => ?_⟩
      · split <;> rfl
      · split <;> rfl
      · cases hkey.symm.trans h.keyed
  | some key =>
      cases hduplicate : isDuplicate capturer.recentCaptures key call.errorEventHrtimeNs with
      | true =>
          left
          unfold capture logged
          simp only [hkey, hduplicate, if_true]
          refine ⟨trivial, trivial, fun other h => ?_⟩
          obtain rfl : key = other := Option.some.inj (hkey.symm.trans h.keyed)
          cases hduplicate.symm.trans h.fresh
      | false =>
          cases hacquire :
              RateLimiter.tryAcquire config capturer.rateLimiter call.now with
          | mk acquired rateLimiter =>
              cases acquired with
              | false =>
                  left
                  unfold capture acquire logged
                  simp only [hkey, hduplicate, hacquire, Bool.false_eq_true, if_false]
                  refine ⟨trivial, trivial, fun other h => ?_⟩
                  cases (congrArg Prod.fst hacquire).symm.trans h.acquired
              | true =>
                  right
                  refine ⟨key, ⟨hkey, hduplicate, congrArg Prod.fst hacquire⟩, ?_⟩
                  unfold capture acquire logged
                  simp only [hkey, hduplicate, hacquire, Bool.false_eq_true, if_false, true_and]

end Calls

/-! ## The two directions of the window -/

/-- A call whose key was admitted within the window, with fewer than 64 other keys since, is
suppressed. -/
def SuppressesRecent (config : RateLimiter.Config) (s : State) : Prop :=
  ∀ call key later time earlier, s.clock ≤ call.errorEventHrtimeNs → dedupKey call = some key →
    s.log = later ++ (key, time) :: earlier → call.errorEventHrtimeNs - time < dedupWindowNs →
    (later.filter fun entry => entry.1 ≠ key).length < dedupMaxEntries →
      (capture config s.capturer call).1 = .deduplicated

/-- A suppressed call has a key that was admitted within the window. -/
def SuppressesOnlyRecent (config : RateLimiter.Config) (s : State) : Prop :=
  ∀ call, s.clock ≤ call.errorEventHrtimeNs →
    (capture config s.capturer call).1 = .deduplicated →
      ∃ key time, dedupKey call = some key ∧ (key, time) ∈ s.log ∧
        call.errorEventHrtimeNs - time < dedupWindowNs

/-- Where an admission gives up the first anchor of the map, this one is older than the window, or
each other key of the map was admitted after it. -/
def GivesUpOldest (config : RateLimiter.Config) (s : State) (call : CaptureCall) : Prop :=
  ∀ key, Anchors config s.capturer call key →
    EvictsOldest dedupMaxEntries dedupWindowNs s.log key call.errorEventHrtimeNs
      s.capturer.recentCaptures

/-! ## Invariants -/

/-- What holds in every run. -/
structure Remembers (s : State) : Prop where
  anchored : Anchored dedupMaxEntries s.clock s.capturer.recentCaptures s.log
  keyed : ∀ entry ∈ s.log, ∃ call, dedupKey call = some entry.1

structure Invariant (s : State) : Prop extends Remembers s where
  complete :
    Complete dedupMaxEntries dedupWindowNs s.clock s.capturer.recentCaptures s.log

theorem step_eq_some {config : RateLimiter.Config} {s t : State} {call : CaptureCall}
    (hstep : (system config).step s call = some t) :
    s.clock ≤ call.errorEventHrtimeNs ∧
      t = { capturer := (capture config s.capturer call).2
            clock := call.errorEventHrtimeNs
            log := logged call (capture config s.capturer call).1 ++ s.log } := by
  simp only [system, step] at hstep
  split at hstep
  · next hclock => exact ⟨hclock, (Option.some.inj hstep).symm⟩
  · cases hstep

/-- A step adds nothing, or it adds an anchor and its entry of the log. -/
theorem step_cases {config : RateLimiter.Config} {s t : State} {call : CaptureCall}
    (hstep : (system config).step s call = some t) :
    s.clock ≤ call.errorEventHrtimeNs ∧ t.clock = call.errorEventHrtimeNs ∧
      (t.capturer.recentCaptures = s.capturer.recentCaptures ∧ t.log = s.log ∧
          (∀ key, ¬Anchors config s.capturer call key) ∨
        ∃ key, Anchors config s.capturer call key ∧
          t.capturer.recentCaptures =
            register s.capturer.recentCaptures key call.errorEventHrtimeNs ∧
          t.log = (key, call.errorEventHrtimeNs) :: s.log) := by
  obtain ⟨hclock, rfl⟩ := step_eq_some hstep
  refine ⟨hclock, rfl, ?_⟩
  rcases capture_cases config s.capturer call with ⟨hmap, hlog, hnone⟩ | ⟨key, h, hmap, hlog⟩
  · refine .inl ⟨hmap, ?_, hnone⟩
    simp only [hlog, List.nil_append]
  · refine .inr ⟨key, h, hmap, ?_⟩
    simp only [hlog, List.singleton_append]

section Steps

variable {config : RateLimiter.Config} {s t : State} {call : CaptureCall}

theorem dedupMaxEntries_pos : 0 < dedupMaxEntries := by decide

theorem Remembers.step (h : Remembers s) (hstep : (system config).step s call = some t) :
    Remembers t := by
  obtain ⟨hclock, hnow, ⟨hmap, hlog, -⟩ | ⟨key, hanchors, hmap, hlog⟩⟩ := step_cases hstep
  · constructor
    · rw [hmap, hlog, hnow]
      exact h.anchored.advance hclock
    · rw [hlog]
      exact h.keyed
  · constructor
    · rw [hmap, hlog, hnow, register_eq h.anchored.nodup]
      exact h.anchored.insert dedupMaxEntries_pos hclock
    · rw [hlog]
      intro entry hmem
      rcases List.mem_cons.mp hmem with rfl | hmem
      · exact ⟨call, hanchors.keyed⟩
      · exact h.keyed entry hmem

theorem Anchors.expired {key : Text} (h : Anchors config s.capturer call key) :
    ∀ time, get? s.capturer.recentCaptures key = some time →
      (dedupWindowNs : Int) ≤ call.errorEventHrtimeNs - time := by
  intro time htime
  by_contra hrecent
  have hduplicate := isDuplicate_iff.mpr ⟨time, htime, Int.not_le.mp hrecent⟩
  cases hduplicate.symm.trans h.fresh

theorem Invariant.step (h : Invariant s) (hguard : GivesUpOldest config s call)
    (hstep : (system config).step s call = some t) : Invariant t := by
  refine ⟨h.toRemembers.step hstep, ?_⟩
  obtain ⟨hclock, hnow, ⟨hmap, hlog, -⟩ | ⟨key, hanchors, hmap, hlog⟩⟩ := step_cases hstep
  · rw [hmap, hlog, hnow]
    exact h.complete.advance hclock
  · rw [hmap, hlog, hnow, register_eq h.anchored.nodup]
    exact h.complete.insert h.anchored dedupMaxEntries_pos hclock hanchors.expired
      (hguard key hanchors)

theorem Remembers.suppressesOnlyRecent (h : Remembers s) : SuppressesOnlyRecent config s := by
  intro call _ hdecision
  obtain ⟨key, hkey, hduplicate⟩ := capture_deduplicated_iff.mp hdecision
  obtain ⟨time, htime, hrecent⟩ := isDuplicate_iff.mp hduplicate
  have hlog := h.anchored.anchors (key, time) (mem_of_get?_eq_some htime)
  exact ⟨key, time, hkey, mem_of_get?_eq_some hlog, hrecent⟩

/-- A map that is complete knows every recent key. -/
theorem Invariant.suppressesRecent (h : Invariant s) : SuppressesRecent config s := by
  intro call key later time earlier hclock hkey hlog hrecent hfew
  have hsorted := h.anchored.sorted
  rw [hlog] at hsorted
  obtain ⟨last, hlast, hle, hlength⟩ := last_of_append hsorted
  rw [← hlog] at hlast hlength
  have hmem := (h.complete.advance hclock).kept key last hlast (by omega) (by omega)
  obtain ⟨pair, hpair, rfl⟩ := List.mem_map.mp hmem
  have hvalue : pair.2 = last :=
    Option.some.inj ((h.anchored.anchors pair hpair).symm.trans hlast)
  refine capture_deduplicated_iff.mpr ⟨pair.1, hkey, isDuplicate_iff.mpr ⟨pair.2, ?_, by omega⟩⟩
  exact get?_eq_some_of_mem h.anchored.nodup hpair

/-- A step after which every recent key is known gave up none before an older one. -/
theorem Invariant.givesUpOldest (h : Invariant s) (hstep : (system config).step s call = some t)
    (hafter : SuppressesRecent config t) : GivesUpOldest config s call := by
  intro key hanchors
  have hremembers := h.toRemembers.step hstep
  obtain ⟨hclock, hnow, ⟨-, -, hnone⟩ | ⟨other, hother, hmap, hlog⟩⟩ := step_cases hstep
  · exact absurd hanchors (hnone key)
  · obtain rfl : key = other := Option.some.inj (hanchors.keyed.symm.trans hother.keyed)
    rw [register_eq h.anchored.nodup] at hmap
    apply h.complete.evictsOldest_of_kept h.anchored dedupMaxEntries_pos hclock
    rw [← hlog, ← hmap]
    intro other time htime hrecent hlength
    obtain ⟨later, earlier, hsplit, hcount⟩ := exists_append_of_get? htime
    obtain ⟨source, hsource⟩ := hremembers.keyed _ (mem_of_get?_eq_some htime)
    have hdecision := hafter { source with errorEventHrtimeNs := call.errorEventHrtimeNs } other
      later time earlier (Int.le_of_eq hnow) hsource hsplit hrecent (hcount ▸ hlength)
    obtain ⟨found, hfound, hduplicate⟩ := capture_deduplicated_iff.mp hdecision
    obtain rfl : other = found := Option.some.inj (hsource.symm.trans hfound)
    obtain ⟨previous, hprevious, -⟩ := isDuplicate_iff.mp hduplicate
    exact List.mem_map_of_mem (mem_of_get?_eq_some hprevious)

end Steps

theorem invariant_init (clock : Int) : Invariant { clock } where
  anchored := Anchored.nil
  keyed := by intro entry hmem; cases hmem
  complete := Complete.nil

theorem preserved_invariant (config : RateLimiter.Config) :
    (system config).Preserved (GivesUpOldest config) Invariant where
  init := by
    rintro s ⟨clock, rfl⟩
    exact invariant_init clock
  step := fun _ _ _ h hguard hstep => h.step hguard hstep

theorem preserved_remembers (config : RateLimiter.Config) :
    (system config).Preserved (fun _ _ => True) Remembers where
  init := by
    rintro s ⟨clock, rfl⟩
    exact (invariant_init clock).toRemembers
  step := fun _ _ _ h _ hstep => h.step hstep

/-- Along every run a capture is suppressed only for a recent one, and it is always suppressed for
a recent one exactly when no admission gives up a recent anchor before an older one. -/
theorem capture_suppresses_iff (config : RateLimiter.Config) (clock : Int)
    (calls : List CaptureCall) :
    (system config).Always (SuppressesOnlyRecent config) { clock } calls ∧
      ((system config).Always (SuppressesRecent config) { clock } calls ↔
        (system config).Guarded (GivesUpOldest config) { clock } calls) := by
  have hinit : Invariant { clock } := invariant_init clock
  constructor
  · have h : (system config).Always Remembers { clock } calls :=
      (preserved_remembers config).always hinit.toRemembers Transition.System.guarded_true
    exact h.mono fun _ hs => hs.suppressesOnlyRecent
  · exact Transition.System.always_iff_guarded (preserved_invariant config)
      (fun _ h => h.suppressesRecent) (fun _ _ _ h hstep hafter => h.givesUpOldest hstep hafter)
      hinit

/-! ## A refreshed anchor -/

/-- A capture of one error in a request of its own, whose trace id starts with `name`. -/
def requestCapture (name seconds : Nat) : CaptureCall where
  context :=
    some
      { traceId :=
          Nat.digitChar (name / 16) :: Nat.digitChar (name % 16) :: List.replicate 30 'a'
        requestId := "1" }
  dedupFingerprint := some "8843d7f92416211d"
  errorEventHrtimeNs := seconds * 1000000000
  now := seconds * 1000

/-- Keys 0 to 63, ten seconds apart; key 0 again, which keeps its place; and a key that is new. -/
def refreshingCaptures : List CaptureCall :=
  (List.range 64).map (fun name => requestCapture name (10 * name)) ++
    [requestCapture 0 640, requestCapture 64 641]

theorem refreshingCaptures_run :
    ((system { maxCaptures := 60 }).exec { clock := 0 } refreshingCaptures).map
        (fun s => (s.clock, s.log.take 2,
          (capture { maxCaptures := 60 } s.capturer (requestCapture 0 642)).1)) =
      some (641000000000,
        [(("40aaaaaaaaaaaaaaaaaaaaaaaaaaaaaa|1|8843d7f92416211d" : Text), 641000000000),
          (("00aaaaaaaaaaaaaaaaaaaaaaaaaaaaaa|1|8843d7f92416211d" : Text), 640000000000)],
        Decision.admitted none) := by
  decide +kernel

/-- After these captures a second one with key 0 is admitted two seconds later. -/
theorem capture_admits_recent_duplicate :
    ∃ s, (system { maxCaptures := 60 }).exec { clock := 0 } refreshingCaptures = some s ∧
      ¬SuppressesRecent { maxCaptures := 60 } s := by
  obtain ⟨s, hrun, hend⟩ := Option.map_eq_some_iff.mp refreshingCaptures_run
  simp only [Prod.mk.injEq] at hend
  obtain ⟨hclock, hlog, hdecision⟩ := hend
  refine ⟨s, hrun, fun h => ?_⟩
  have hsuppressed := h (requestCapture 0 642)
    "00aaaaaaaaaaaaaaaaaaaaaaaaaaaaaa|1|8843d7f92416211d"
    [("40aaaaaaaaaaaaaaaaaaaaaaaaaaaaaa|1|8843d7f92416211d", 641000000000)] 640000000000
    (s.log.drop 2) (by rw [hclock]; decide) (by decide +kernel)
    (by rw [← List.take_append_drop 2 s.log, hlog]; rfl) (by decide) (by decide)
  cases hdecision.symm.trans hsuppressed

end Deduplication

end ErrorCore
