import ErrorCore.Capture.SourceMapResolver
import ErrorCore.Foundation.Transition

/-!
# The cache of source maps

`getConsumer` of `src/capture/source-map-resolver.ts` keeps what it has loaded
under a key of the map's path and content, and remembers the key of each path.
Paths whose maps are one file share the entry.

What the file system answers during a lookup is `Files`, and the readings of
the clock during one are `Clock`. `Runtime` has what other packages do: `C` are
the consumers that `source-map-js` makes of a parsed map.
-/

namespace ErrorCore.SourceMapResolver

def MAX_TOTAL_CACHE_ENTRIES : Nat := 256

def NEGATIVE_ENTRY_TTL_MS : Int := 60 * 60 * 1000

structure SourceMapFileIdentity where
  size : Nat
  mtimeMs : Rat
  deriving DecidableEq, Repr

/-- `existsSync`, `readFileSync` and `statSync`, with `none` where they throw. -/
structure Files where
  exists? : Text → Bool
  read : Text → Option Text
  stat : Text → Option SourceMapFileIdentity

/-- The clock when the sweep reads it, when the cached entry is looked at and when an entry is made. -/
structure Clock where
  sweptAt : Int
  checkedAt : Int
  loadedAt : Int
  swept_le_checked : sweptAt ≤ checkedAt
  checked_le_loaded : checkedAt ≤ loadedAt

structure Runtime (C : Type) where
  sha256Hex : Text → Text
  /-- `new SourceMapConsumer(JSON.parse(raw))`, or the text of what it throws. -/
  parseMap : Text → Except Text C
  /-- `Buffer.from(text, 'base64').toString('utf8')`. -/
  decodeBase64 : Text → Text
  /-- `path.resolve(path.dirname(filePath))`. -/
  baseDir : Text → Text
  resolve : Text → Text → Text
  relative : Text → Text → Text
  isAbsolute : Text → Bool
  sep : Char

structure ConsumerEntry (C : Type) where
  consumer : C
  usedAt : Int
  filePath : Text
  mapPath : Text
  identityPath : Text
  contentHash : Text
  mapIdentity : Option SourceMapFileIdentity
  deriving DecidableEq, Repr

structure MissingEntry where
  cachedAt : Int
  filePath : Text
  deriving DecidableEq, Repr

structure CorruptEntry where
  reason : Text
  cachedAt : Int
  filePath : Text
  mapPath : Option Text := none
  identityPath : Option Text := none
  contentHash : Option Text := none
  mapIdentity : Option SourceMapFileIdentity := none
  deriving DecidableEq, Repr

inductive CacheEntry (C : Type)
  | consumer (entry : ConsumerEntry C)
  | missing (entry : MissingEntry)
  | corrupt (entry : CorruptEntry)
  deriving DecidableEq, Repr

namespace CacheEntry

variable {C : Type} (entry : CacheEntry C)

def isConsumer : Bool :=
  match entry with
  | .consumer _ => true
  | .missing _ | .corrupt _ => false

/-- `getEntryTime`. -/
def time : Int :=
  match entry with
  | .consumer entry => entry.usedAt
  | .missing entry => entry.cachedAt
  | .corrupt entry => entry.cachedAt

/-- A negative entry that has outlived its time. -/
def isExpired (now : Int) : Bool :=
  !entry.isConsumer && NEGATIVE_ENTRY_TTL_MS < now - entry.time

/-- The file whose identity is recorded, and the identity. -/
def recorded : Option (Text × SourceMapFileIdentity) :=
  match entry with
  | .consumer entry => entry.mapIdentity.map (entry.identityPath, ·)
  | .missing _ => none
  | .corrupt entry =>
      match entry.identityPath, entry.mapIdentity with
      | some path, some identity => some (path, identity)
      | _, _ => none

def isCacheIdentityCurrent (files : Files) : Bool :=
  match entry.recorded with
  | none => true
  | some (path, identity) => files.stat path = some identity

/-- `entry.usedAt = now`. -/
def touch (now : Int) : CacheEntry C :=
  match entry with
  | .consumer entry => .consumer { entry with usedAt := now }
  | .missing entry => .missing entry
  | .corrupt entry => .corrupt entry

end CacheEntry

/-! ## The URL of a map -/

/-- The end of a text that has at most so many code units. -/
def takeUnits : Nat → Text → Text
  | _, [] => []
  | count, c :: text =>
      let width := if c.toNat < 0x10000 then 1 else 2
      if width ≤ count then c :: takeUnits (count - width) text else []

/-- `source.slice(-512)`, but for half a character at its start. -/
def lastUnits (source : Text) : Text := (takeUnits 512 source.reverse).reverse

/-- What follows a text that starts with the given one. -/
def after? (start text : Text) : Option Text :=
  if Text.startsWith text start then some (text.drop start.length) else none

/-- `SOURCEMAP_URL_RE` at the start of a text. -/
def urlAtStart (text : Text) : Option Text := do
  let rest ← (after? "//#" text).or (after? "//@" text)
  let rest ← after? "sourceMappingURL" (rest.dropWhile Text.isWhitespace)
  let rest ← after? "=" (rest.dropWhile Text.isWhitespace)
  let target := rest.dropWhile Text.isWhitespace
  let url := target.takeWhile (!Text.isWhitespace ·)
  if url = [] then none
  if (target.dropWhile (!Text.isWhitespace ·)).all Text.isWhitespace then some url else none

/-- `SOURCEMAP_URL_RE.exec(lastLines)`. -/
def sourceMappingUrl (lastLines : Text) : Option Text := lastLines.tails.findSome? urlAtStart

/-- `/base64,(.+)/.exec(url)` for a URL, which has no line terminators. -/
def base64Payload (url : Text) : Option Text :=
  url.tails.findSome? fun tail => (after? "base64," tail).filter (· ≠ [])

/-! ## Loading -/

/-- A key with the entry that belongs to it. -/
structure Loaded (C : Type) where
  cacheKey : Text
  entry : CacheEntry C

section Load

variable {C : Type} (rt : Runtime C) (files : Files) (now : Int)

def makeSourceMapCacheKey (mapPath contentHash : Text) : Text := mapPath ++ ':' :: contentHash

/-- A map whose text is there: its consumer, or what is wrong with it. -/
def loadText (filePath mapPath identityPath raw : Text) : Loaded C :=
  let contentHash := rt.sha256Hex raw
  match rt.parseMap raw with
  | .ok consumer =>
      { cacheKey := makeSourceMapCacheKey mapPath contentHash
        entry := .consumer
          { consumer, usedAt := now, filePath, mapPath, identityPath, contentHash
            mapIdentity := files.stat identityPath } }
  | .error reason =>
      { cacheKey := ("corrupt:" : Text) ++ mapPath ++ ':' :: contentHash
        entry := .corrupt
          { reason, cachedAt := now, filePath, mapPath := some mapPath
            identityPath := some identityPath, contentHash := some contentHash
            mapIdentity := files.stat identityPath } }

/-- A map in a file of its own. -/
def loadMap (filePath mapPath : Text) : Loaded C :=
  match readIfWithinSize (files.read mapPath) with
  | none =>
      { cacheKey := ("corrupt:" : Text) ++ mapPath ++ (":unreadable" : Text)
        entry := .corrupt
          { reason := "map file too large or unreadable", cachedAt := now, filePath
            mapPath := some mapPath, identityPath := some mapPath
            mapIdentity := files.stat mapPath } }
  | some raw => loadText rt files now filePath mapPath mapPath raw

/-- `missing:` with what is missing. -/
def missing (filePath what : Text) : Loaded C where
  cacheKey := ("missing:" : Text) ++ what
  entry := .missing { cachedAt := now, filePath }

def inlineCorrupt (filePath problem reason : Text) : Loaded C where
  cacheKey := ("corrupt:" : Text) ++ filePath ++ (":inline-" : Text) ++ problem
  entry := .corrupt
    { reason, cachedAt := now, filePath, mapPath := some (filePath ++ ("#inline" : Text))
      identityPath := some filePath, mapIdentity := files.stat filePath }

/-- A map in a `data:` URL. -/
def loadInline (filePath url : Text) : Loaded C :=
  match base64Payload url with
  | none => inlineCorrupt files now filePath "missing-base64" "data: URL missing base64 payload"
  | some payload =>
      if MAX_SOURCE_READ_BYTES < Text.utf16Length payload then
        inlineCorrupt files now filePath "too-large" "inline source map exceeds size limit"
      else
        loadText rt files now filePath (filePath ++ ("#inline" : Text)) filePath
          (rt.decodeBase64 payload)

/-- The map that a URL names, where it is below the directory of the file. -/
def loadReferenced (filePath url : Text) : Loaded C :=
  let baseDir := rt.baseDir filePath
  let mapPath := rt.resolve baseDir url
  let rel := rt.relative baseDir mapPath
  if Text.startsWith rel ("..".toList ++ [rt.sep]) || rel = "..".toList || rt.isAbsolute rel then
    missing now filePath (filePath ++ (":traversal" : Text))
  else if !files.exists? mapPath then missing now filePath mapPath
  else loadMap rt files now filePath mapPath

/-- `thrown` is what the calls outside of this file throw, if they do. -/
def loadConsumer (thrown : Option Text) (filePath : Text) : Loaded C :=
  match thrown with
  | some reason =>
      { cacheKey := ("corrupt:" : Text) ++ filePath ++ (":exception" : Text)
        entry := .corrupt { reason, cachedAt := now, filePath } }
  | none =>
      let adjacentMap := filePath ++ (".map" : Text)
      if files.exists? adjacentMap then loadMap rt files now filePath adjacentMap
      else if !files.exists? filePath then missing now filePath filePath
      else
        match readIfWithinSize (files.read filePath) with
        | none => missing now filePath (filePath ++ (":unreadable" : Text))
        | some source =>
            match sourceMappingUrl (lastUnits source) with
            | none => missing now filePath (filePath ++ (":no-url" : Text))
            | some url =>
                if Text.startsWith url "data:" then loadInline rt files now filePath url
                else loadReferenced rt files now filePath url

end Load

/-! ## The cache -/

/-- `cache` and `pathToCacheKey`. -/
structure Cache (C : Type) where
  cache : List (Text × CacheEntry C)
  pathToCacheKey : List (Text × Text)
  deriving DecidableEq, Repr

namespace Cache

variable {C : Type} (c : Cache C)

def empty : Cache C where
  cache := []
  pathToCacheKey := []

def peekCachedEntry (filePath : Text) : Option (CacheEntry C) × Cache C :=
  match InsertionMap.get? c.pathToCacheKey filePath with
  | none => (none, c)
  | some cacheKey =>
      match InsertionMap.get? c.cache cacheKey with
      | none => (none, { c with pathToCacheKey := InsertionMap.delete c.pathToCacheKey filePath })
      | some entry => (some entry, c)

def deleteCacheKey (cacheKey : Text) : Cache C where
  cache := InsertionMap.delete c.cache cacheKey
  pathToCacheKey := c.pathToCacheKey.filter fun pair => pair.2 ≠ cacheKey

/-- `_sweepCache`. -/
def sweepCache (now : Int) : Cache C :=
  (c.cache.filter fun pair => pair.2.isExpired now).foldl (fun c pair => c.deleteCacheKey pair.1) c

/-- `entry.usedAt = now` for the entry of a key, if it is still there. -/
def touch (cacheKey : Text) (now : Int) : Cache C :=
  { c with
    cache := c.cache.map fun pair =>
      if pair.1 = cacheKey then (pair.1, pair.2.touch now) else pair }

def getCachedEntry (files : Files) (clock : Clock) (filePath : Text) :
    Option (CacheEntry C) × Cache C :=
  let c := c.sweepCache clock.sweptAt
  match InsertionMap.get? c.pathToCacheKey filePath with
  | none => (none, c)
  | some cacheKey =>
      match InsertionMap.get? c.cache cacheKey with
      | none => (none, { c with pathToCacheKey := InsertionMap.delete c.pathToCacheKey filePath })
      | some entry =>
          if entry.isExpired clock.checkedAt || !entry.isCacheIdentityCurrent files then
            (none, c.deleteCacheKey cacheKey)
          else (some (entry.touch clock.checkedAt), c.touch cacheKey clock.checkedAt)

/-- One step of the search for the entry with the least time: the first of them stays. -/
def older (oldest : Option (Text × Int)) (pair : Text × CacheEntry C) : Option (Text × Int) :=
  match oldest with
  | none => some (pair.1, pair.2.time)
  | some (key, time) => if pair.2.time < time then some (pair.1, pair.2.time) else some (key, time)

def oldestOf (entries : List (Text × CacheEntry C)) : Option Text :=
  (entries.foldl older none).map (·.1)

/-- `enforceMaxEntries`, whose loop deletes an entry each time. -/
def enforceMaxEntries : Nat → Cache C → Cache C
  | 0, c => c
  | rounds + 1, c =>
      if MAX_TOTAL_CACHE_ENTRIES < c.cache.length then
        match oldestOf c.cache with
        | none => c
        | some cacheKey => enforceMaxEntries rounds (c.deleteCacheKey cacheKey)
      else c

/-- `_countConsumers`. -/
def countConsumers : Nat := c.cache.countP fun pair => pair.2.isConsumer

/-- The least recently used consumer goes. -/
def evictOldest : Cache C :=
  match oldestOf (c.cache.filter fun pair => pair.2.isConsumer) with
  | none => c
  | some cacheKey => c.deleteCacheKey cacheKey

/-- A lookup: the files, the clock and what is thrown while it is made. -/
structure Lookup where
  filePath : Text
  files : Files
  clock : Clock
  thrown : Option Text

/-- A loaded entry enters the cache. -/
def insert (filePath : Text) (loaded : Loaded C) : Cache C :=
  let c := if loaded.entry.isConsumer && MAX_CACHE_SIZE ≤ c.countConsumers then c.evictOldest else c
  let added : Cache C :=
    { cache := InsertionMap.set c.cache loaded.cacheKey loaded.entry
      pathToCacheKey := InsertionMap.set c.pathToCacheKey filePath loaded.cacheKey }
  enforceMaxEntries added.cache.length added

/-- What `loadConsumer` comes to in a lookup. -/
def Lookup.loaded (rt : Runtime C) (l : Lookup) : Loaded C :=
  loadConsumer rt l.files l.clock.loadedAt l.thrown l.filePath

def getConsumer (rt : Runtime C) (l : Lookup) : Option (CacheEntry C) × Cache C :=
  if l.filePath = [] then (none, c)
  else
    match c.getCachedEntry l.files l.clock l.filePath with
    | (some entry, c) => (some entry, c)
    | (none, c) =>
        let loaded := l.loaded rt
        match InsertionMap.get? c.cache loaded.cacheKey with
        | some existing =>
            (some existing,
              { c with
                pathToCacheKey :=
                  InsertionMap.set c.pathToCacheKey l.filePath loaded.cacheKey })
        | none => (some loaded.entry, c.insert l.filePath loaded)

/-- What the resolver does with its cache. -/
inductive Action
  | getConsumer (l : Lookup)
  | getCachedEntry (files : Files) (clock : Clock) (filePath : Text)
  | peekCachedEntry (filePath : Text)
  | sweepCache (now : Int)
  /-- A frame is resolved with the consumer that was returned. -/
  | touch (cacheKey : Text) (now : Int)

def step (rt : Runtime C) (c : Cache C) : Action → Option (Cache C)
  | .getConsumer l => some (c.getConsumer rt l).2
  | .getCachedEntry files clock filePath => some (c.getCachedEntry files clock filePath).2
  | .peekCachedEntry filePath => some (c.peekCachedEntry filePath).2
  | .sweepCache now => some (c.sweepCache now)
  | .touch cacheKey now => some (c.touch cacheKey now)

def system (rt : Runtime C) : Transition.System (Cache C) Action where
  init c := c = empty
  step := step rt

end Cache

end ErrorCore.SourceMapResolver
