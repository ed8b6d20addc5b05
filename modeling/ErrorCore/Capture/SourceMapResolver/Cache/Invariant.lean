import ErrorCore.Capture.SourceMapResolver.Cache

/-!
# What the cache of source maps keeps

Every way to delete an entry goes through `deleteCacheKey`, which takes the
paths of the key with it, so that no path is left without its entry. A lookup
that has to load makes room before it adds.

The entry that a lookup returns has been looked at, or it was loaded, or it is
the one that another path has loaded under the same key. Only in the last case
nobody compares the recorded identity with the file: the key has the content.
-/

namespace ErrorCore.SourceMapResolver

namespace Cache

variable {C : Type} {rt : Runtime C} {c : Cache C}

/-! ## The invariant -/

/-- The two maps agree, and a consumer is under the path and the content of its map. -/
structure Kept (c : Cache C) : Prop where
  keys : (c.cache.map (·.1)).Nodup
  paths : (c.pathToCacheKey.map (·.1)).Nodup
  present : ∀ path key, (path, key) ∈ c.pathToCacheKey → key ∈ c.cache.map (·.1)
  keyed : ∀ key entry, (key, .consumer entry) ∈ c.cache →
    key = makeSourceMapCacheKey entry.mapPath entry.contentHash

/-- Besides, the cache is within its limits. -/
structure Sound (c : Cache C) : Prop extends Kept c where
  consumers : c.countConsumers ≤ MAX_CACHE_SIZE
  total : c.cache.length ≤ MAX_TOTAL_CACHE_ENTRIES

theorem sound_empty : (empty : Cache C).Sound where
  keys := List.nodup_nil
  paths := List.nodup_nil
  present _ _ hmem := by cases hmem
  keyed _ _ hmem := by cases hmem
  consumers := Nat.zero_le _
  total := Nat.zero_le _

/-! ## Deleting -/

theorem deleteCacheKey_sublist (cacheKey : Text) :
    (c.deleteCacheKey cacheKey).cache.Sublist c.cache :=
  List.filter_sublist

theorem Kept.deleteCacheKey (h : c.Kept) (cacheKey : Text) : (c.deleteCacheKey cacheKey).Kept where
  keys := h.keys.sublist ((deleteCacheKey_sublist cacheKey).map _)
  paths := h.paths.sublist (List.filter_sublist.map _)
  present path key hmem := by
    obtain ⟨hmem, hkey⟩ := List.mem_filter.mp hmem
    obtain ⟨pair, hpair, rfl⟩ := List.mem_map.mp (h.present path key hmem)
    exact List.mem_map_of_mem (List.mem_filter.mpr ⟨hpair, hkey⟩)
  keyed key entry hmem := h.keyed key entry ((deleteCacheKey_sublist cacheKey).subset hmem)

/-- What is deleted of a sound cache leaves a sound cache. -/
theorem Sound.of_sublist {c' : Cache C} (h : c.Sound) (hkept : c'.Kept)
    (hsub : c'.cache.Sublist c.cache) : c'.Sound where
  toKept := hkept
  consumers := Nat.le_trans hsub.countP_le h.consumers
  total := Nat.le_trans hsub.length_le h.total

theorem Sound.deleteCacheKey (h : c.Sound) (cacheKey : Text) : (c.deleteCacheKey cacheKey).Sound :=
  h.of_sublist (h.toKept.deleteCacheKey cacheKey) (deleteCacheKey_sublist cacheKey)

theorem length_deleteCacheKey_lt {cacheKey : Text} (h : cacheKey ∈ c.cache.map (·.1)) :
    (c.deleteCacheKey cacheKey).cache.length < c.cache.length := by
  obtain ⟨pair, hpair, rfl⟩ := List.mem_map.mp h
  apply List.length_filter_lt_length_iff_exists.mpr
  exact ⟨pair, hpair, by simp⟩

/-- A path whose key is not there any more is forgotten. -/
theorem Sound.deletePath (h : c.Sound) (filePath : Text) :
    Sound { c with pathToCacheKey := InsertionMap.delete c.pathToCacheKey filePath } where
  keys := h.keys
  paths := h.paths.sublist (List.filter_sublist.map _)
  present path key hmem := h.present path key (List.mem_filter.mp hmem).1
  keyed := h.keyed
  consumers := h.consumers
  total := h.total

/-! ## The sweep -/

theorem foldl_deleteCacheKey (pairs : List (Text × CacheEntry C)) (c : Cache C) :
    (pairs.foldl (fun c pair => c.deleteCacheKey pair.1) c).cache =
      c.cache.filter fun pair => pair.1 ∉ pairs.map (·.1) := by
  induction pairs generalizing c with
  | nil => simp
  | cons pair pairs ih =>
      rw [List.foldl_cons, ih]
      simp only [deleteCacheKey, InsertionMap.delete, List.filter_filter]
      apply List.filter_congr
      intro other _
      have hiff : other.1 ∉ (pair :: pairs).map (·.1) ↔
          other.1 ∉ pairs.map (·.1) ∧ other.1 ≠ pair.1 := by
        rw [List.map_cons, List.mem_cons, not_or, and_comm]
      rw [decide_eq_decide.mpr hiff, Bool.decide_and]

theorem Kept.foldl_deleteCacheKey (h : c.Kept) (pairs : List (Text × CacheEntry C)) :
    (pairs.foldl (fun c pair => c.deleteCacheKey pair.1) c).Kept := by
  induction pairs generalizing c with
  | nil => exact h
  | cons pair pairs ih => exact ih (h.deleteCacheKey pair.1)

/-- The sweep leaves the entries that have not expired. -/
theorem Kept.sweepCache_cache (h : c.Kept) (now : Int) :
    (c.sweepCache now).cache = c.cache.filter fun pair => !pair.2.isExpired now := by
  rw [sweepCache, Cache.foldl_deleteCacheKey]
  apply List.filter_congr
  intro pair hpair
  cases hexpired : pair.2.isExpired now with
  | true =>
      have hmem : pair.1 ∈ (c.cache.filter fun pair => pair.2.isExpired now).map (·.1) :=
        List.mem_map_of_mem (List.mem_filter.mpr ⟨hpair, hexpired⟩)
      simpa using hmem
  | false =>
      have hnotMem : pair.1 ∉ (c.cache.filter fun pair => pair.2.isExpired now).map (·.1) := by
        intro hmem
        obtain ⟨other, hother, hkey⟩ := List.mem_map.mp hmem
        obtain ⟨hother, hexpired'⟩ := List.mem_filter.mp hother
        obtain rfl := List.inj_on_of_nodup_map h.keys hother hpair hkey
        rw [hexpired] at hexpired'
        cases hexpired'
      simpa using hnotMem

theorem Sound.sweepCache (h : c.Sound) (now : Int) : (c.sweepCache now).Sound := by
  have hsub : (c.sweepCache now).cache.Sublist c.cache := by
    rw [h.toKept.sweepCache_cache now]
    exact List.filter_sublist
  exact h.of_sublist (h.toKept.foldl_deleteCacheKey _) hsub

/-! ## Touching -/

@[simp] theorem isConsumer_touch (entry : CacheEntry C) (now : Int) :
    (entry.touch now).isConsumer = entry.isConsumer := by
  cases entry <;> rfl

theorem touch_cache (cacheKey : Text) (now : Int) :
    (c.touch cacheKey now).cache = c.cache.map fun pair =>
      (pair.1, if pair.1 = cacheKey then pair.2.touch now else pair.2) := by
  apply List.map_congr_left
  intro pair _
  split <;> rfl

theorem keys_touch (cacheKey : Text) (now : Int) :
    (c.touch cacheKey now).cache.map (·.1) = c.cache.map (·.1) := by
  rw [touch_cache, List.map_map]
  rfl

theorem Sound.touch (h : c.Sound) (cacheKey : Text) (now : Int) : (c.touch cacheKey now).Sound where
  keys := by
    rw [keys_touch]
    exact h.keys
  paths := h.paths
  present path key hmem := by
    rw [keys_touch]
    exact h.present path key hmem
  keyed key entry hmem := by
    rw [touch_cache] at hmem
    obtain ⟨⟨other, old⟩, hold, hpair⟩ := List.mem_map.mp hmem
    obtain ⟨rfl, hentry⟩ := Prod.mk.inj hpair
    dsimp only at hentry
    split at hentry
    · cases old with
      | consumer old =>
          obtain rfl := CacheEntry.consumer.inj hentry
          exact h.keyed other old hold
      | missing old => cases hentry
      | corrupt old => cases hentry
    · exact h.keyed other entry (hentry ▸ hold)
  consumers := by
    have hcount : (c.touch cacheKey now).countConsumers = c.countConsumers := by
      rw [countConsumers, touch_cache, List.countP_map]
      apply List.countP_congr
      intro pair _
      simp only [Function.comp]
      split <;> simp
    rw [hcount]
    exact h.consumers
  total := by
    rw [touch_cache, List.length_map]
    exact h.total

/-! ## Evicting -/

/-- The search finds a key of the entries, unless it starts without one and there are none. -/
theorem foldl_older (entries : List (Text × CacheEntry C)) (oldest : Option (Text × Int)) :
    (entries.foldl older oldest = none ↔ oldest = none ∧ entries = []) ∧
      ∀ found, entries.foldl older oldest = some found →
        oldest.map (·.1) = some found.1 ∨ found.1 ∈ entries.map (·.1) := by
  induction entries generalizing oldest with
  | nil =>
      refine ⟨by simp, ?_⟩
      intro found hfound
      exact .inl (congrArg (Option.map (·.1)) hfound)
  | cons pair entries ih =>
      have hstep : ∃ key time, older oldest pair = some (key, time) ∧
          (oldest.map (·.1) = some key ∨ key = pair.1) := by
        cases oldest with
        | none => exact ⟨pair.1, pair.2.time, rfl, .inr rfl⟩
        | some old =>
            unfold older
            dsimp only
            split
            · exact ⟨pair.1, pair.2.time, rfl, .inr rfl⟩
            · exact ⟨old.1, old.2, rfl, .inl rfl⟩
      obtain ⟨key, time, holder, hkey⟩ := hstep
      obtain ⟨hnone, hsome⟩ := ih (some (key, time))
      rw [List.foldl_cons, holder]
      refine ⟨by simp [hnone], ?_⟩
      intro found hfound
      rcases hsome found hfound with hold | hlater
      · rcases hkey with hbefore | rfl
        · exact .inl (hbefore.trans hold)
        · exact .inr (List.mem_cons.mpr (.inl (Option.some.inj hold).symm))
      · exact .inr (List.mem_cons_of_mem _ hlater)

theorem oldestOf_mem {entries : List (Text × CacheEntry C)} {cacheKey : Text}
    (h : oldestOf entries = some cacheKey) : cacheKey ∈ entries.map (·.1) := by
  obtain ⟨found, hfound, rfl⟩ := Option.map_eq_some_iff.mp h
  exact ((foldl_older entries none).2 found hfound).resolve_left (by simp)

theorem oldestOf_eq_none {entries : List (Text × CacheEntry C)} (h : oldestOf entries = none) :
    entries = [] :=
  ((foldl_older entries none).1.mp (Option.map_eq_none_iff.mp h)).2

/-- The loop leaves a part of the cache, within the limit if it has rounds enough. -/
theorem enforceMaxEntries_spec (rounds : Nat) (h : c.Kept)
    (hrounds : c.cache.length ≤ MAX_TOTAL_CACHE_ENTRIES + rounds) :
    (enforceMaxEntries rounds c).Kept ∧ (enforceMaxEntries rounds c).cache.Sublist c.cache ∧
      (enforceMaxEntries rounds c).cache.length ≤ MAX_TOTAL_CACHE_ENTRIES := by
  induction rounds generalizing c with
  | zero => exact ⟨h, List.Sublist.refl _, hrounds⟩
  | succ rounds ih =>
      unfold enforceMaxEntries
      split
      · next hfull =>
          cases holdest : oldestOf c.cache with
          | none =>
              rw [oldestOf_eq_none holdest] at hfull
              cases hfull
          | some cacheKey =>
              have hlt := length_deleteCacheKey_lt (oldestOf_mem holdest)
              obtain ⟨hkept, hsub, hlength⟩ := ih (h.deleteCacheKey cacheKey) (by omega)
              exact ⟨hkept, hsub.trans (deleteCacheKey_sublist cacheKey), hlength⟩
      · next hfits => exact ⟨h, List.Sublist.refl _, Nat.le_of_not_lt hfits⟩

theorem evictOldest_sublist : c.evictOldest.cache.Sublist c.cache := by
  unfold evictOldest
  split
  · exact List.Sublist.refl _
  · exact deleteCacheKey_sublist _

/-- An eviction takes a consumer away where there is one. -/
theorem evictOldest_spec (h : c.Sound) :
    c.evictOldest.Sound ∧ c.evictOldest.countConsumers ≤ c.countConsumers - 1 := by
  unfold evictOldest
  cases holdest : oldestOf (c.cache.filter fun pair => pair.2.isConsumer) with
  | none =>
      have hnone : c.countConsumers = 0 := by
        rw [countConsumers, List.countP_eq_length_filter, oldestOf_eq_none holdest]
        rfl
      exact ⟨h, by dsimp only; omega⟩
  | some cacheKey =>
      refine ⟨h.deleteCacheKey cacheKey, ?_⟩
      obtain ⟨pair, hpair, hkey⟩ := List.mem_map.mp (oldestOf_mem holdest)
      have hlt : ((c.cache.filter fun pair => pair.2.isConsumer).filter
          fun pair => pair.1 ≠ cacheKey).length <
            (c.cache.filter fun pair => pair.2.isConsumer).length := by
        apply List.length_filter_lt_length_iff_exists.mpr
        exact ⟨pair, hpair, by simp [hkey]⟩
      have hcount : (c.deleteCacheKey cacheKey).countConsumers =
          ((c.cache.filter fun pair => pair.2.isConsumer).filter
            fun pair => pair.1 ≠ cacheKey).length := by
        rw [countConsumers, List.countP_eq_length_filter, deleteCacheKey, InsertionMap.delete,
          List.filter_filter, List.filter_filter]
        congr 1
        exact List.filter_congr fun _ _ => Bool.and_comm _ _
      have hbefore : c.countConsumers = (c.cache.filter fun pair => pair.2.isConsumer).length :=
        List.countP_eq_length_filter
      dsimp only
      omega

/-! ## Loading -/

/-- A consumer is loaded with the key of its map. -/
def Keyed (loaded : Loaded C) : Prop :=
  ∀ entry, loaded.entry = .consumer entry →
    loaded.cacheKey = makeSourceMapCacheKey entry.mapPath entry.contentHash

/-- What is loaded is fresh and has the identity that the file has. -/
structure Fresh (files : Files) (now : Int) (loaded : Loaded C) : Prop where
  keyed : Keyed loaded
  current : loaded.entry.isCacheIdentityCurrent files = true
  time : loaded.entry.time = now

section Load

variable {files : Files} {now : Int} {filePath mapPath url : Text}

theorem fresh_missing (what : Text) : Fresh files now (missing now filePath what : Loaded C) where
  keyed entry h := by cases h
  current := rfl
  time := rfl

/-- A corrupt entry whose identity is read when it is made. -/
theorem current_corrupt {entry : CorruptEntry} {path : Text}
    (hpath : entry.identityPath = some path) (hidentity : entry.mapIdentity = files.stat path) :
    (CacheEntry.corrupt entry : CacheEntry C).isCacheIdentityCurrent files = true := by
  unfold CacheEntry.isCacheIdentityCurrent CacheEntry.recorded
  dsimp only
  rw [hpath, hidentity]
  cases hstat : files.stat path with
  | none => rfl
  | some identity => exact decide_eq_true hstat

theorem fresh_inlineCorrupt (problem reason : Text) :
    Fresh files now (inlineCorrupt files now filePath problem reason : Loaded C) where
  keyed entry h := by cases h
  current := current_corrupt rfl rfl
  time := rfl

theorem fresh_loadText (identityPath raw : Text) :
    Fresh files now (loadText rt files now filePath mapPath identityPath raw) := by
  unfold loadText
  cases hparse : rt.parseMap raw with
  | error reason =>
      refine ⟨?_, current_corrupt rfl rfl, rfl⟩
      intro entry h
      cases h
  | ok consumer =>
      refine ⟨?_, ?_, rfl⟩
      · intro entry h
        obtain rfl := CacheEntry.consumer.inj h
        rfl
      · unfold CacheEntry.isCacheIdentityCurrent CacheEntry.recorded
        dsimp only
        cases hstat : files.stat identityPath with
        | none => rfl
        | some identity => exact decide_eq_true hstat

theorem fresh_loadMap : Fresh files now (loadMap rt files now filePath mapPath) := by
  unfold loadMap
  split
  · refine ⟨?_, current_corrupt rfl rfl, rfl⟩
    intro entry h
    cases h
  · exact fresh_loadText _ _

theorem fresh_loadInline : Fresh files now (loadInline rt files now filePath url) := by
  unfold loadInline
  split
  · exact fresh_inlineCorrupt _ _
  · split
    · exact fresh_inlineCorrupt _ _
    · exact fresh_loadText _ _

theorem fresh_loadReferenced : Fresh files now (loadReferenced rt files now filePath url) := by
  unfold loadReferenced
  dsimp only
  split
  · exact fresh_missing _
  · split
    · exact fresh_missing _
    · exact fresh_loadMap

theorem fresh_loadConsumer (thrown : Option Text) :
    Fresh files now (loadConsumer rt files now thrown filePath) := by
  unfold loadConsumer
  cases thrown with
  | some reason =>
      refine ⟨?_, rfl, rfl⟩
      intro entry h
      cases h
  | none =>
      dsimp only
      split
      · exact fresh_loadMap
      split
      · exact fresh_missing _
      split
      · exact fresh_missing _
      split
      · exact fresh_missing _
      split
      · exact fresh_loadInline
      · exact fresh_loadReferenced

end Load

/-! ## Lookups -/

/-- An entry under a new key enters a sound cache. -/
theorem Sound.insert (h : c.Sound) (filePath : Text) {loaded : Loaded C} (hkeyed : Keyed loaded)
    (hnew : loaded.cacheKey ∉ c.cache.map (·.1)) : (c.insert filePath loaded).Sound := by
  -- with the room that a consumer needs
  obtain ⟨d, hd, hsound, hsub, hroom⟩ : ∃ d : Cache C,
      (if loaded.entry.isConsumer && MAX_CACHE_SIZE ≤ c.countConsumers then c.evictOldest else c) =
        d ∧ d.Sound ∧ d.cache.Sublist c.cache ∧
      (loaded.entry.isConsumer = true → d.countConsumers < MAX_CACHE_SIZE) := by
    split
    · next hfull =>
        obtain ⟨hsound, hcount⟩ := evictOldest_spec h
        refine ⟨_, rfl, hsound, evictOldest_sublist, ?_⟩
        intro _
        have hle := h.consumers
        have hpos : 0 < MAX_CACHE_SIZE := by decide
        omega
    · next hroom =>
        refine ⟨_, rfl, h, List.Sublist.refl _, ?_⟩
        intro hconsumer
        simpa [hconsumer] using hroom
  have hnew' : loaded.cacheKey ∉ d.cache.map (·.1) := fun hmem =>
    hnew ((hsub.map _).subset hmem)
  unfold Cache.insert
  rw [hd]
  dsimp only
  rw [InsertionMap.set_of_notMem hnew']
  have hkept : Kept
      { cache := d.cache ++ [(loaded.cacheKey, loaded.entry)]
        pathToCacheKey := InsertionMap.set d.pathToCacheKey filePath loaded.cacheKey } := by
    refine ⟨?_, InsertionMap.nodup_keys_set hsound.paths, ?_, ?_⟩
    · rw [List.map_append]
      exact List.Nodup.append hsound.keys (List.nodup_singleton _)
        (List.disjoint_singleton.mpr hnew')
    · intro path key hmem
      rw [List.map_append]
      rcases InsertionMap.mem_set hmem with hpair | ⟨hold, -⟩
      · obtain ⟨-, rfl⟩ := Prod.mk.inj hpair
        exact List.mem_append_right _ List.mem_cons_self
      · exact List.mem_append_left _ (hsound.present path key hold)
    · intro key entry hmem
      rcases List.mem_append.mp hmem with hold | hlast
      · exact hsound.keyed key entry hold
      · obtain ⟨rfl, hentry⟩ := Prod.mk.inj (List.mem_singleton.mp hlast)
        exact hkeyed entry hentry.symm
  have hlength : (d.cache ++ [(loaded.cacheKey, loaded.entry)]).length ≤
      MAX_TOTAL_CACHE_ENTRIES + (d.cache ++ [(loaded.cacheKey, loaded.entry)]).length :=
    Nat.le_add_left _ _
  obtain ⟨hkept', hsub', htotal⟩ := enforceMaxEntries_spec _ hkept hlength
  refine ⟨hkept', ?_, htotal⟩
  have hcount : (d.cache ++ [(loaded.cacheKey, loaded.entry)]).countP (fun pair =>
      pair.2.isConsumer) ≤ MAX_CACHE_SIZE := by
    rw [List.countP_append, List.countP_singleton]
    split
    · next hconsumer => exact hroom hconsumer
    · exact hsound.consumers
  exact Nat.le_trans hsub'.countP_le hcount

theorem Sound.getCachedEntry (h : c.Sound) (files : Files) (clock : Clock) (filePath : Text) :
    (c.getCachedEntry files clock filePath).2.Sound := by
  have hswept := h.sweepCache clock.sweptAt
  unfold Cache.getCachedEntry
  dsimp only
  split
  · exact hswept
  · split
    · exact hswept.deletePath filePath
    · split
      · exact hswept.deleteCacheKey _
      · exact hswept.touch _ _

/-- No entry of a swept cache has expired at the time of the sweep. -/
theorem Kept.not_expired (h : c.Kept) {now : Int} {key : Text} {entry : CacheEntry C}
    (hmem : (key, entry) ∈ (c.sweepCache now).cache) : entry.isExpired now = false := by
  rw [h.sweepCache_cache now] at hmem
  simpa using (List.mem_filter.mp hmem).2

/-- Either nothing is returned and only deletions have followed the sweep, or what is returned was
compared with the clock and the file. -/
theorem getCachedEntry_cases (c : Cache C) (files : Files) (clock : Clock) (filePath : Text) :
    ((c.getCachedEntry files clock filePath).1 = none ∧
        (c.getCachedEntry files clock filePath).2.cache.Sublist
          (c.sweepCache clock.sweptAt).cache) ∨
      ∃ entry, (c.getCachedEntry files clock filePath).1 = some entry ∧
        entry.isExpired clock.checkedAt = false ∧ entry.isCacheIdentityCurrent files = true := by
  unfold Cache.getCachedEntry
  dsimp only
  split
  · exact .inl ⟨rfl, List.Sublist.refl _⟩
  · split
    · exact .inl ⟨rfl, List.Sublist.refl _⟩
    · next entry _ =>
        split
        · exact .inl ⟨rfl, deleteCacheKey_sublist _⟩
        · next hgood =>
            simp only [Bool.or_eq_true, Bool.not_eq_true', not_or, Bool.not_eq_true,
              Bool.not_eq_false] at hgood
            refine .inr ⟨_, rfl, ?_⟩
            cases entry with
            | consumer entry => exact ⟨rfl, hgood.2⟩
            | missing entry => exact hgood
            | corrupt entry => exact hgood

/-- What is promised of the entry that a lookup returns. It has not expired. Its recorded identity is
that of the file, or it is what the cache has under the key of what the lookup has loaded: for a
consumer, the one of the map's path and present content. -/
structure Returned (rt : Runtime C) (l : Lookup) (c : Cache C) (entry : CacheEntry C) : Prop where
  fresh : entry.isExpired l.clock.sweptAt = false
  current : entry.isCacheIdentityCurrent l.files = true ∨
    InsertionMap.get? c.cache (l.loaded rt).cacheKey = some entry ∧
      ∀ consumer, entry = .consumer consumer →
        (l.loaded rt).cacheKey = makeSourceMapCacheKey consumer.mapPath consumer.contentHash

theorem isExpired_mono {entry : CacheEntry C} {now later : Int} (hle : now ≤ later)
    (h : entry.isExpired later = false) : entry.isExpired now = false := by
  simp only [CacheEntry.isExpired, Bool.and_eq_false_iff, Bool.not_eq_false',
    decide_eq_false_iff_not, Int.not_lt] at h ⊢
  exact h.imp_right fun hle' => by omega

/-- The step lemma of a lookup. -/
theorem Sound.getConsumer (h : c.Sound) (rt : Runtime C) (l : Lookup) :
    (c.getConsumer rt l).2.Sound ∧ ∀ entry, (c.getConsumer rt l).1 = some entry →
      Returned rt l (c.getConsumer rt l).2 entry := by
  unfold Cache.getConsumer
  split
  · refine ⟨h, ?_⟩
    intro entry hentry
    cases hentry
  cases hcached : c.getCachedEntry l.files l.clock l.filePath with
  | mk cached d =>
      have hsound : d.Sound := by
        have := h.getCachedEntry l.files l.clock l.filePath
        rwa [hcached] at this
      have hcases := getCachedEntry_cases c l.files l.clock l.filePath
      rw [hcached] at hcases
      cases cached with
      | some old =>
          refine ⟨hsound, ?_⟩
          intro entry hentry
          obtain rfl := Option.some.inj hentry
          rcases hcases with ⟨hnone, -⟩ | ⟨found, hfound, hfresh, hcurrent⟩
          · cases hnone
          · obtain rfl := Option.some.inj hfound
            exact ⟨isExpired_mono l.clock.swept_le_checked hfresh, .inl hcurrent⟩
      | none =>
          have hfresh : Fresh l.files l.clock.loadedAt (l.loaded rt) := fresh_loadConsumer l.thrown
          have hsub : d.cache.Sublist (c.sweepCache l.clock.sweptAt).cache := by
            rcases hcases with ⟨-, hsub⟩ | ⟨found, hfound, -⟩
            · exact hsub
            · cases hfound
          dsimp only
          cases hexisting : InsertionMap.get? d.cache (l.loaded rt).cacheKey with
          | some existing =>
              have hmem := InsertionMap.mem_of_get?_eq_some hexisting
              refine ⟨⟨⟨hsound.keys, InsertionMap.nodup_keys_set hsound.paths, ?_, hsound.keyed⟩,
                hsound.consumers, hsound.total⟩, ?_⟩
              · intro path key hpair
                rcases InsertionMap.mem_set hpair with hnew | ⟨hold, -⟩
                · obtain ⟨-, rfl⟩ := Prod.mk.inj hnew
                  exact List.mem_map_of_mem hmem
                · exact hsound.present path key hold
              · intro entry hentry
                obtain rfl := Option.some.inj hentry
                refine ⟨?_, .inr ⟨hexisting, ?_⟩⟩
                · exact h.toKept.not_expired (hsub.subset hmem)
                · rintro consumer rfl
                  exact hsound.keyed _ consumer hmem
          | none =>
              have hnew : (l.loaded rt).cacheKey ∉ d.cache.map (·.1) := by
                intro hmem
                obtain ⟨pair, hpair, hkey⟩ := List.mem_map.mp hmem
                rw [← hkey, InsertionMap.get?_eq_some_of_mem hsound.keys hpair] at hexisting
                cases hexisting
              refine ⟨hsound.insert l.filePath hfresh.keyed hnew, ?_⟩
              intro entry hentry
              obtain rfl := Option.some.inj hentry
              refine ⟨?_, .inl hfresh.current⟩
              have htime : (l.loaded rt).entry.time = l.clock.loadedAt := hfresh.time
              have hswept := l.clock.swept_le_checked
              have hchecked := l.clock.checked_le_loaded
              have httl : (0 : Int) ≤ NEGATIVE_ENTRY_TTL_MS := by decide
              simp only [CacheEntry.isExpired, Bool.and_eq_false_iff, decide_eq_false_iff_not,
                Int.not_lt]
              right
              omega

/-! ## Runs -/

theorem sound_preserved (rt : Runtime C) :
    (system rt).Preserved (fun _ _ => True) Sound where
  init c hc := hc ▸ sound_empty
  step c a c' h _ hstep := by
    cases a with
    | getConsumer l =>
        obtain rfl := Option.some.inj hstep
        exact (h.getConsumer rt l).1
    | getCachedEntry files clock filePath =>
        obtain rfl := Option.some.inj hstep
        exact h.getCachedEntry files clock filePath
    | peekCachedEntry filePath =>
        obtain rfl := Option.some.inj hstep
        unfold Cache.peekCachedEntry
        split
        · exact h
        · split
          · exact h.deletePath filePath
          · exact h
    | sweepCache now =>
        obtain rfl := Option.some.inj hstep
        exact h.sweepCache now
    | touch cacheKey now =>
        obtain rfl := Option.some.inj hstep
        exact h.touch cacheKey now

/-- After any run and one more lookup, the cache is within its limits, every path has its entry and
the lookup has returned what is promised of it. -/
theorem getConsumer_keeps (rt : Runtime C) {run : List Action}
    (hrun : (system rt).exec empty run = some c) (l : Lookup) :
    (c.getConsumer rt l).2.Sound ∧ ∀ entry, (c.getConsumer rt l).1 = some entry →
      Returned rt l (c.getConsumer rt l).2 entry := by
  have hsound : c.Sound := (sound_preserved rt).exec rfl Transition.System.guarded_true hrun
  exact hsound.getConsumer rt l

/-! ## Two files of one map -/

def emptyMap : Text := "\x7b\"version\":3,\"sources\":[],\"names\":[],\"mappings\":\"\"\x7d"

/-- A runtime for files in one directory. -/
def flatRuntime : Runtime Unit where
  sha256Hex _ := "bba91168b8031003cc96ad9268cf613f0df3f39694a6b6dfa788d47ed5b30c18"
  parseMap _ := .ok ()
  decodeBase64 text := text
  baseDir _ := "/srv"
  resolve baseDir url := baseDir ++ '/' :: url
  relative baseDir mapPath := mapPath.drop (baseDir.length + 1)
  isAbsolute path := Text.startsWith path "/"
  sep := '/'

/-- Two generated files refer to one map, which was last modified at a time. -/
def sharedMap (mtimeMs : Rat) : Files where
  exists? path := path = "/srv/a.js" || path = "/srv/b.js" || path = "/srv/m.map"
  read path := some (if path = "/srv/m.map" then emptyMap else "//# sourceMappingURL=m.map")
  stat path := if path = "/srv/m.map" then some { size := 51, mtimeMs } else none

def stillClock (now : Int) : Clock where
  sweptAt := now
  checkedAt := now
  loadedAt := now
  swept_le_checked := Int.le_refl _
  checked_le_loaded := Int.le_refl _

def lookupOf (filePath : Text) (now : Int) (mtimeMs : Rat) : Lookup where
  filePath
  files := sharedMap mtimeMs
  clock := stillClock now
  thrown := none

theorem getConsumer_keeps_shared :
    let c := (empty.getConsumer flatRuntime (lookupOf "/srv/a.js" 0 1)).2
    (c.getConsumer flatRuntime (lookupOf "/srv/b.js" 10 2)).2.Sound :=
  (@getConsumer_keeps Unit _ flatRuntime [.getConsumer (lookupOf "/srv/a.js" 0 1)] rfl
    (lookupOf "/srv/b.js" 10 2)).1

/-- Between the lookups the map is written anew with the same content. The second file gets the
consumer of the first, with the time of the first writing. -/
theorem getConsumer_outdated : ¬ ∀ (run : List Action) (c : Cache Unit) (l : Lookup)
    (entry : CacheEntry Unit), (system flatRuntime).exec empty run = some c →
      (c.getConsumer flatRuntime l).1 = some entry →
      entry.isCacheIdentityCurrent l.files = true := by
  intro h
  have hreturned : (((empty.getConsumer flatRuntime (lookupOf "/srv/a.js" 0 1)).2.getConsumer
      flatRuntime (lookupOf "/srv/b.js" 10 2)).1.map
        fun entry => entry.isCacheIdentityCurrent (sharedMap 2)) = some false := by
    decide +kernel
  obtain ⟨entry, hentry, hstale⟩ := Option.map_eq_some_iff.mp hreturned
  have hcurrent := h [.getConsumer (lookupOf "/srv/a.js" 0 1)] _ (lookupOf "/srv/b.js" 10 2) entry
    rfl hentry
  exact Bool.noConfusion (hstale.symm.trans hcurrent)

end Cache

end ErrorCore.SourceMapResolver
