import ErrorCore.Context.TraceContext
import ErrorCore.Foundation.Bytes
import ErrorCore.Foundation.Json.RoundTrip

/-!
# `traceparent` headers from hop to hop

`parseTraceparent` accepts the headers of the W3C grammar and no others, and the
header that a materialized request context sends is one of them: it carries the
trace of the context, which is that of the inbound header if there was one.

The ids of a new trace are cut out of pools of random bytes until one of them is
not zero; `fuel` bounds the attempts.
-/

namespace ErrorCore

/-! ## The grammar -/

/-- What follows the flags: nothing, or more fields of a version after 00. -/
def IsTail (version tail : Text) : Prop :=
  tail = [] ∨ version ≠ ['0', '0'] ∧ ∃ more, tail = '-' :: more

/-- The header has a version other than ff, the ids, two digits with the flags, and a tail. -/
def IsTraceparent (header : Text) (parsed : Traceparent) : Prop :=
  ∃ version flags tail,
    header = version ++ '-' :: (parsed.traceId.text ++ '-' :: (parsed.parentSpanId.text ++
      '-' :: (flags ++ tail))) ∧
    isHexByte version = true ∧ version ≠ ['f', 'f'] ∧ isHexByte flags = true ∧
    parsed.traceFlags = parseHex flags ∧ IsTail version tail

theorem isHexByte_notMem {text : Text} (h : isHexByte text = true) : '-' ∉ text := by
  intro hmem
  rw [isHexByte, Bool.and_eq_true] at h
  exact isLowerHex_ne (List.all_eq_true.mp h.2 '-' hmem) rfl

theorem TraceField.of?_eq_some {count : Nat} {text : Text} {field : TraceField count} :
    TraceField.of? count text = some field ↔ text = field.text := by
  constructor
  · intro h
    unfold TraceField.of? at h
    split at h
    · rw [← Option.some.inj h]
    · cases h
  · rintro rfl
    exact field.of?_text

/-- The fields of an accepted header. -/
theorem parseTraceparent_eq_some {header : Text} {parsed : Traceparent} :
    parseTraceparent (some header) = some parsed ↔
      ∃ version flags rest,
        Text.split '-' header =
          version :: parsed.traceId.text :: parsed.parentSpanId.text :: flags :: rest ∧
        isHexByte version = true ∧ version ≠ ['f', 'f'] ∧ isHexByte flags = true ∧
        parsed.traceFlags = parseHex flags ∧ (version = ['0', '0'] → rest = []) := by
  unfold parseTraceparent
  rw [Option.map_some, Option.getD_some]
  constructor
  · intro h
    split at h
    · rename_i version traceId parentSpanId flags rest hsplit
      dsimp only at h
      by_cases hversion : ¬isHexByte version = true ∨ version = ['f', 'f']
      · rw [if_pos hversion] at h
        cases h
      rw [if_neg hversion] at h
      by_cases hrest : version = ['0', '0'] ∧ rest ≠ []
      · rw [if_pos hrest] at h
        cases h
      rw [if_neg hrest] at h
      obtain ⟨trace, htrace, h⟩ := Option.bind_eq_some_iff.mp h
      obtain ⟨parent, hparent, h⟩ := Option.bind_eq_some_iff.mp h
      by_cases hflags : ¬isHexByte flags = true
      · rw [if_pos hflags] at h
        cases h
      rw [if_neg hflags] at h
      obtain rfl := Option.some.inj h
      rw [not_or, not_not] at hversion
      refine ⟨version, flags, rest, ?_, hversion.1, hversion.2, not_not.mp hflags, rfl, ?_⟩
      · rw [hsplit, TraceField.of?_eq_some.mp htrace, TraceField.of?_eq_some.mp hparent]
      · intro hzero
        exact not_not.mp fun hne => hrest ⟨hzero, hne⟩
    · cases h
  · rintro ⟨version, flags, rest, hsplit, hversion, hff, hflags, hparsed, hrest⟩
    rw [hsplit]
    dsimp only
    rw [if_neg (not_or.mpr ⟨not_not.mpr hversion, hff⟩), if_neg fun h => h.2 (hrest h.1),
      parsed.traceId.of?_text, parsed.parentSpanId.of?_text]
    refine Option.bind_eq_some_iff.mpr ⟨_, rfl, Option.bind_eq_some_iff.mpr ⟨_, rfl, ?_⟩⟩
    rw [if_neg (not_not.mpr hflags), ← hparsed]
    rfl

/-- The fields are joined again. -/
theorem join_split (header : Text) : Text.join ['-'] (Text.split '-' header) = header :=
  List.intercalate_splitOn '-'

/-- The parser accepts the headers of the grammar and reads their parts. -/
theorem parseTraceparent_iff {header : Text} {parsed : Traceparent} :
    parseTraceparent (some header) = some parsed ↔ IsTraceparent header parsed := by
  rw [parseTraceparent_eq_some]
  constructor
  · rintro ⟨version, flags, rest, hsplit, hversion, hff, hflags, hparsed, hrest⟩
    have hheader := join_split header
    rw [hsplit] at hheader
    cases rest with
    | nil =>
        refine ⟨version, flags, [], ?_, hversion, hff, hflags, hparsed, .inl rfl⟩
        rw [← hheader]
        simp [Text.join, List.intercalate_cons_cons]
    | cons field fields =>
        refine ⟨version, flags, '-' :: Text.join ['-'] (field :: fields), ?_, hversion, hff, hflags,
          hparsed, .inr ⟨fun hzero => absurd (hrest hzero) (List.cons_ne_nil _ _), _, rfl⟩⟩
        rw [← hheader]
        simp [Text.join, List.intercalate_cons_cons]
  · rintro ⟨version, flags, tail, rfl, hversion, hff, hflags, hparsed, htail⟩
    have hstart (more : Text) : Text.split '-' (version ++ '-' :: (parsed.traceId.text ++
        '-' :: (parsed.parentSpanId.text ++ '-' :: more))) =
          version :: parsed.traceId.text :: parsed.parentSpanId.text :: Text.split '-' more := by
      unfold Text.split
      rw [List.splitOn_append_cons_self_of_not_mem (isHexByte_notMem hversion),
        List.splitOn_append_cons_self_of_not_mem parsed.traceId.not_mem,
        List.splitOn_append_cons_self_of_not_mem parsed.parentSpanId.not_mem]
    obtain rfl | ⟨hfuture, more, rfl⟩ := htail
    · refine ⟨version, flags, [], ?_, hversion, hff, hflags, hparsed, fun _ => rfl⟩
      rw [hstart, List.append_nil, Text.split, List.splitOn_eq_singleton (isHexByte_notMem hflags)]
    · refine ⟨version, flags, Text.split '-' more, ?_, hversion, hff, hflags, hparsed,
        fun hzero => absurd hzero hfuture⟩
      rw [hstart, Text.split,
        List.splitOn_append_cons_self_of_not_mem (isHexByte_notMem hflags)]
      rfl

/-! ## Random ids -/

def ENTROPY_POOL_BYTES : Nat := 4096

/-- The results of `randomBytes(ENTROPY_POOL_BYTES)`, one after the other. -/
structure EntropySource where
  randomBytes : Nat → Bytes
  length_eq : ∀ draw, (randomBytes draw).length = ENTROPY_POOL_BYTES

structure EntropyPool where
  entropyPool : Bytes := []
  entropyOffset : Nat := 0
  draws : Nat := 0

section Entropy

variable (source : EntropySource)

/-- A pool with too few bytes left is replaced. -/
def EntropyPool.refill (s : EntropyPool) (byteLength : Nat) : EntropyPool :=
  if s.entropyPool.length - s.entropyOffset < byteLength then
    { entropyPool := source.randomBytes s.draws
      entropyOffset := 0
      draws := s.draws + 1 }
  else s

def readEntropy (s : EntropyPool) (byteLength : Nat) : Text × EntropyPool :=
  let s := s.refill source byteLength
  (Bytes.toHex ((s.entropyPool.drop s.entropyOffset).take byteLength),
    { s with entropyOffset := s.entropyOffset + byteLength })

/-- The first id that is not zero, if there is one among so many. -/
def generateNonZeroHex (byteLength : Nat) : Nat → EntropyPool → Option (Text × EntropyPool)
  | 0, _ => none
  | fuel + 1, s =>
      let hex := readEntropy source s byteLength
      if hex.1 ≠ List.replicate (2 * byteLength) '0' then some hex
      else generateNonZeroHex byteLength fuel hex.2

theorem isLowerHex_toHex (bytes : Bytes) : (Bytes.toHex bytes).all isLowerHex = true := by
  rw [List.all_eq_true]
  intro c hc
  obtain ⟨b, -, hc⟩ := List.mem_flatMap.mp hc
  have hb := b.toNat_lt
  obtain rfl | rfl : c = _ ∨ c = _ := by simpa using hc
  · exact isLowerHex_hexDigit _ (by omega)
  · exact isLowerHex_hexDigit _ (by omega)

theorem length_toHex (bytes : Bytes) : (Bytes.toHex bytes).length = 2 * bytes.length := by
  induction bytes with
  | nil => rfl
  | cons b bytes ih =>
      rw [Bytes.toHex, List.flatMap_cons, List.length_append, ← Bytes.toHex, ih, List.length_cons]
      simp
      omega

theorem length_readEntropy {s : EntropyPool} {byteLength : Nat}
    (h : byteLength ≤ ENTROPY_POOL_BYTES) :
    (readEntropy source s byteLength).1.length = 2 * byteLength := by
  have hroom : byteLength ≤ ((s.refill source byteLength).entropyPool.drop
      (s.refill source byteLength).entropyOffset).length := by
    rw [List.length_drop]
    unfold EntropyPool.refill
    split
    · rw [source.length_eq, Nat.sub_zero]
      exact h
    · rename_i henough
      exact Nat.not_lt.mp henough
  unfold readEntropy
  rw [length_toHex, List.length_take, Nat.min_eq_left hroom]

/-- An id has its length, lowercase digits, and is not zero. -/
theorem generateNonZeroHex_isTraceField {byteLength fuel : Nat} {s t : EntropyPool} {hex : Text}
    (hlength : byteLength ≤ ENTROPY_POOL_BYTES)
    (h : generateNonZeroHex source byteLength fuel s = some (hex, t)) :
    isTraceField (2 * byteLength) hex = true := by
  induction fuel generalizing s with
  | zero => cases h
  | succ fuel ih =>
      unfold generateNonZeroHex at h
      dsimp only at h
      split at h
      · rename_i hne
        rw [Option.some.inj h] at hne
        have hhex : hex = (readEntropy source s byteLength).1 :=
          (congrArg Prod.fst (Option.some.inj h)).symm
        rw [isTraceField, Bool.and_eq_true, Bool.and_eq_true, decide_eq_true_eq, decide_eq_true_eq]
        refine ⟨⟨?_, ?_⟩, hne⟩
        · rw [hhex, length_readEntropy source hlength]
        · rw [hhex]
          exact isLowerHex_toHex _
      · exact ih h

/-- The pool after so many attempts. -/
def EntropyPool.after (byteLength : Nat) : Nat → EntropyPool → EntropyPool
  | 0, s => s
  | attempts + 1, s => after byteLength attempts (readEntropy source s byteLength).2

/-- The loop ends once an attempt reads an id that is not zero. -/
theorem generateNonZeroHex_isSome {byteLength attempts : Nat} {s : EntropyPool}
    (h : (readEntropy source (s.after source byteLength attempts) byteLength).1 ≠
      List.replicate (2 * byteLength) '0') :
    (generateNonZeroHex source byteLength (attempts + 1) s).isSome = true := by
  induction attempts generalizing s with
  | zero =>
      rw [EntropyPool.after] at h
      rw [generateNonZeroHex, if_pos h]
      rfl
  | succ attempts ih =>
      rw [generateNonZeroHex]
      split
      · rfl
      · exact ih h

def generateField (byteLength : Nat) (hlength : byteLength ≤ ENTROPY_POOL_BYTES) (fuel : Nat)
    (s : EntropyPool) : Option (TraceField (2 * byteLength) × EntropyPool) :=
  match h : generateNonZeroHex source byteLength fuel s with
  | none => none
  | some (hex, t) => some (⟨hex, generateNonZeroHex_isTraceField source hlength h⟩, t)

def generateTraceId (fuel : Nat) (s : EntropyPool) : Option (TraceField 32 × EntropyPool) :=
  generateField source 16 (by decide) fuel s

def generateSpanId (fuel : Nat) (s : EntropyPool) : Option (TraceField 16 × EntropyPool) :=
  generateField source 8 (by decide) fuel s

/-- The ids that a context draws: a trace id only where no header has brought one. -/
def drawIds (fuel : Nat) (s : EntropyPool) (context : LazyRequestContext) :
    Option (FreshIds × EntropyPool) :=
  match parseTraceparent context.rawTraceparent with
  | some parsed =>
      (generateSpanId source fuel s).map fun (spanId, s) =>
        ({ traceId := parsed.traceId, spanId }, s)
  | none =>
      (generateTraceId source fuel s).bind fun (traceId, s) =>
        (generateSpanId source fuel s).map fun (spanId, s) => ({ traceId, spanId }, s)

/-- The trace of a new request context, with the ids drawn from the pool. -/
def materializeTrace (fuel : Nat) (s : EntropyPool) (traceparent tracestate : Option Text)
    (vendorKey : VendorKey) (clock : EventClock) : Option (MaterializedTrace × EntropyPool) :=
  let context : LazyRequestContext :=
    { rawTraceparent := traceparent
      rawTracestate := tracestate }
  (drawIds source fuel s context).map fun (ids, s) =>
    ((context.ensureTraceMaterialized vendorKey ids clock).1, s)

end Entropy

/-! ## Propagation -/

theorem parseHex_formatFlags {flags : Nat} (h : flags < 256) :
    parseHex (formatFlags flags) = flags := by
  rw [parseHex, formatFlags, List.foldl_cons, List.foldl_cons, List.foldl_nil,
    Json.hexValue_hexDigit _ (by omega), Json.hexValue_hexDigit _ (by omega), Option.getD_some,
    Option.getD_some]
  omega

theorem hexValue_lt (c : Char) : (Json.hexValue c).getD 0 < 16 := by
  unfold Json.hexValue
  split_ifs with hdigit hlower hupper
  · have hle : c.toNat ≤ 57 := hdigit.2
    rw [Option.getD_some]
    omega
  · have hle : c.toNat ≤ 102 := hlower.2
    rw [Option.getD_some]
    omega
  · have hle : c.toNat ≤ 70 := hupper.2
    rw [Option.getD_some]
    omega
  · decide

theorem parseHex_lt {text : Text} (h : isHexByte text = true) : parseHex text < 256 := by
  rw [isHexByte, Bool.and_eq_true, decide_eq_true_eq] at h
  obtain ⟨a, b, rfl⟩ := List.length_eq_two.mp h.1
  have ha := hexValue_lt a
  have hb := hexValue_lt b
  rw [parseHex, List.foldl_cons, List.foldl_cons, List.foldl_nil]
  omega

/-- The header of a trace whose flags are a byte is read back. -/
theorem parseTraceparent_format {trace : MaterializedTrace} (h : trace.traceFlags < 256) :
    parseTraceparent (some (formatTraceparent trace)) =
      some ⟨trace.traceId, trace.spanId, trace.traceFlags⟩ := by
  rw [parseTraceparent_iff]
  refine ⟨['0', '0'], formatFlags trace.traceFlags, [], ?_, by decide, by decide,
    isHexByte_formatFlags _, (parseHex_formatFlags h).symm, .inl rfl⟩
  simp [formatTraceparent, Text.join, List.intercalate_cons_cons]

/-- The trace of a new context is that of the inbound header, if there is one. -/
theorem readTrace_spec (context : LazyRequestContext) (vendorKey : VendorKey) (ids : FreshIds) :
    (context.readTrace vendorKey ids).2.traceFlags < 256 ∧
      ∀ parsed, parseTraceparent context.rawTraceparent = some parsed →
        (context.readTrace vendorKey ids).2.traceId = parsed.traceId ∧
          (context.readTrace vendorKey ids).2.traceFlags = parsed.traceFlags := by
  unfold LazyRequestContext.readTrace
  dsimp only
  cases hparsed : parseTraceparent context.rawTraceparent with
  | none => exact ⟨by decide, fun parsed h => absurd h.symm (Option.some_ne_none _)⟩
  | some parsed =>
      refine ⟨?_, fun other h => ?_⟩
      · cases hheader : context.rawTraceparent with
        | none =>
            rw [hheader] at hparsed
            cases hparsed
        | some header =>
            rw [hheader] at hparsed
            obtain ⟨_, flags, _, -, -, -, hflags, heq, -⟩ := parseTraceparent_iff.mp hparsed
            exact Nat.lt_of_le_of_lt (Nat.le_of_eq heq) (parseHex_lt hflags)
      · obtain rfl := Option.some.inj h
        exact ⟨rfl, rfl⟩

/-- The parser accepts the grammar, and the header that a context sends carries its trace, which is
that of the inbound header. -/
theorem traceparent_propagates {source : EntropySource} {fuel : Nat} {s t : EntropyPool}
    {traceparent tracestate : Option Text} {vendorKey : VendorKey} {clock : EventClock}
    {trace : MaterializedTrace}
    (h : materializeTrace source fuel s traceparent tracestate vendorKey clock = some (trace, t)) :
    (∀ header parsed,
      parseTraceparent (some header) = some parsed ↔ IsTraceparent header parsed) ∧
      parseTraceparent none = none ∧
      parseTraceparent (some (formatTraceparent trace)) =
        some ⟨trace.traceId, trace.spanId, trace.traceFlags⟩ ∧
      ∀ parsed, parseTraceparent traceparent = some parsed →
        trace.traceId = parsed.traceId ∧ trace.traceFlags = parsed.traceFlags := by
  obtain ⟨⟨ids, pool⟩, -, htrace⟩ := Option.map_eq_some_iff.mp h
  obtain ⟨hflags, hinbound⟩ := readTrace_spec
    { rawTraceparent := traceparent
      rawTracestate := tracestate } vendorKey ids
  obtain rfl := (Prod.mk.inj htrace).1
  exact ⟨fun header parsed => parseTraceparent_iff, rfl, parseTraceparent_format hflags, hinbound⟩

/-- A source of ones. -/
def ones : EntropySource where
  randomBytes _ := List.replicate ENTROPY_POOL_BYTES 1
  length_eq _ := List.length_replicate

/-- A context that continues a trace with the flags 03. -/
theorem traceparent_propagates_ones :
    ∃ trace t, materializeTrace ones 1 {}
        (some "00-0af7651916cd43dd8448eb211c80319c-b7ad6b7169203331-03".toList) none
        ⟨"ec", by decide, by decide, by decide⟩ ⟨0⟩ = some (trace, t) ∧
      parseTraceparent (some (formatTraceparent trace)) =
        some ⟨trace.traceId, trace.spanId, trace.traceFlags⟩ := by
  have hsome : (materializeTrace ones 1 {}
      (some "00-0af7651916cd43dd8448eb211c80319c-b7ad6b7169203331-03".toList) none
      ⟨"ec", by decide, by decide, by decide⟩ ⟨0⟩).isSome = true := by
    decide
  obtain ⟨⟨trace, t⟩, h⟩ := Option.isSome_iff_exists.mp hsome
  exact ⟨trace, t, h, (traceparent_propagates h).2.2.1⟩

end ErrorCore
