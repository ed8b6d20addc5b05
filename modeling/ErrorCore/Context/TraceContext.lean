import ErrorCore.Context.EventClock
import ErrorCore.Foundation.Json
import ErrorCore.Foundation.Text

/-!
# Trace contexts

`src/context/tracestate.ts` and the trace part of `src/context/als-manager.ts`:
the two W3C headers, and the lazy request context that reads them on the first
use of its trace. The random ids of a new trace are arguments.
-/

namespace ErrorCore

/-! ## The `tracestate` header -/

def W3C_MAX_ENTRIES : Nat := 32

def W3C_MAX_TOTAL_LENGTH : Nat := 512

def isVendorChar (c : Char) : Bool :=
  ('a' ≤ c ∧ c ≤ 'z') || c.isDigit || c = '_' || c = '-' || c = '*' || c = '/'

/-- A key that the configuration accepts: `/^[a-z0-9_\-*\/]\x7b1,256\x7d$/`. -/
structure VendorKey where
  text : Text
  nonempty : text ≠ []
  length_le : text.length ≤ 256
  valid : text.all isVendorChar = true
  deriving DecidableEq, Repr

structure ParsedTracestate where
  receivedSeq : Option Nat := none
  inheritedEntries : List Text := []
  deriving DecidableEq, Repr

/-- The text before the first `=` and the text after it. -/
def cutAtEquals (entry : Text) : Option (Text × Text) :=
  match entry.dropWhile (· ≠ '=') with
  | [] => none
  | _ :: rest => some (entry.takeWhile (· ≠ '='), rest)

/-- The number in `clk:<n>`, unless it is 0 or not a safe integer. -/
def clockValue? (value : Text) : Option Nat :=
  match value with
  | 'c' :: 'l' :: 'k' :: ':' :: digits =>
      if digits ≠ [] ∧ digits.length ≤ 16 ∧ digits.all Char.isDigit then
        let n := Nat.ofDigitChars 10 digits 0
        if n ≤ maxSafeInteger ∧ 0 < n then some n else none
      else none
  | _ => none

/-- One entry of the header. The first valid number under the own key wins. -/
def parseEntry (vendorKey : VendorKey) (result : ParsedTracestate) (raw : Text) :
    ParsedTracestate :=
  let trimmed := Text.trim raw
  match cutAtEquals trimmed with
  | none => result
  | some (before, after) =>
      let key := Text.trim before
      let value := Text.trim after
      if before = [] ∨ key = [] then result
      else if key = vendorKey.text then
        { result with receivedSeq := result.receivedSeq.or (clockValue? value) }
      else
        { result with inheritedEntries := result.inheritedEntries ++ [trimmed] }

def parseTracestate (header : Option Text) (vendorKey : VendorKey) : ParsedTracestate :=
  match header with
  | none | some [] => {}
  | some header => (Text.split ',' header).foldl (parseEntry vendorKey) {}

/-- The last entries are dropped while the header is too long, except for the first one. -/
def capLength (list : List Text) : List Text :=
  if _h : W3C_MAX_TOTAL_LENGTH < Text.utf16Length (Text.join [','] list) ∧ 1 < list.length then
    capLength list.dropLast
  else
    list
termination_by list.length
decreasing_by
  rw [List.length_dropLast]
  omega

def ownEntry (currentSeq : Nat) (vendorKey : VendorKey) : Text :=
  vendorKey.text ++ (("=clk:" : Text) ++ Nat.toDigits 10 currentSeq)

def formatTracestate (currentSeq : Nat) (inherited : Option (List Text)) (vendorKey : VendorKey) :
    Text :=
  let list := ownEntry currentSeq vendorKey :: inherited.getD []
  Text.join [','] (capLength (list.take W3C_MAX_ENTRIES))

/-! ## The `traceparent` header -/

def isLowerHex (c : Char) : Bool := c.isDigit || ('a' ≤ c ∧ c ≤ 'f')

/-- So many lowercase hexadecimal digits, not all zero. -/
def isTraceField (count : Nat) (text : Text) : Bool :=
  text.length = count && text.all isLowerHex && text ≠ List.replicate count '0'

structure TraceField (count : Nat) where
  text : Text
  valid : isTraceField count text = true
  deriving DecidableEq, Repr

/-- `isTraceField` as a check that keeps what it found. -/
def TraceField.of? (count : Nat) (text : Text) : Option (TraceField count) :=
  if h : isTraceField count text = true then some ⟨text, h⟩ else none

structure Traceparent where
  traceId : TraceField 32
  parentSpanId : TraceField 16
  traceFlags : Nat
  deriving DecidableEq, Repr

def isHexByte (text : Text) : Bool := text.length = 2 && text.all isLowerHex

/-- `parseInt(text, 16)`. -/
def parseHex (text : Text) : Nat := text.foldl (fun n c => 16 * n + (Json.hexValue c).getD 0) 0

def parseTraceparent (header : Option Text) : Option Traceparent :=
  match (header.map (Text.split '-')).getD [] with
  | version :: traceId :: parentSpanId :: flags :: rest => do
      if ¬ isHexByte version ∨ version = ['f', 'f'] then none
      if version = ['0', '0'] ∧ rest ≠ [] then none
      let traceId ← TraceField.of? 32 traceId
      let parentSpanId ← TraceField.of? 16 parentSpanId
      if ¬ isHexByte flags then none
      return { traceId, parentSpanId, traceFlags := parseHex flags }
  | _ => none

/-! ## Request contexts -/

structure MaterializedTrace where
  traceId : TraceField 32
  spanId : TraceField 16
  parentSpanId : Option (TraceField 16)
  traceFlags : Nat
  inboundTracestate : Option Text
  inheritedTracestate : Option (List Text)
  isEntrySpan : Bool
  deriving DecidableEq, Repr

/-- What `generateTraceId` and `generateSpanId` return. -/
structure FreshIds where
  traceId : TraceField 32
  spanId : TraceField 16
  deriving DecidableEq, Repr

structure LazyRequestContext where
  rawTraceparent : Option Text
  rawTracestate : Option Text
  materializedTrace : Option MaterializedTrace := none
  deriving DecidableEq, Repr

namespace LazyRequestContext

/-- The received number and the trace of a context that is used for the first time. -/
def readTrace (context : LazyRequestContext) (vendorKey : VendorKey) (ids : FreshIds) :
    Option Nat × MaterializedTrace :=
  let parsed := parseTraceparent context.rawTraceparent
  let acceptedTracestate := if parsed.isSome then context.rawTracestate else none
  let parsedTracestate := parseTracestate acceptedTracestate vendorKey
  (parsedTracestate.receivedSeq,
    { traceId := (parsed.map (·.traceId)).getD ids.traceId
      spanId := ids.spanId
      parentSpanId := parsed.map (·.parentSpanId)
      traceFlags := (parsed.map (·.traceFlags)).getD 1
      inboundTracestate := acceptedTracestate
      inheritedTracestate :=
        if parsedTracestate.inheritedEntries = [] then none
        else some parsedTracestate.inheritedEntries
      isEntrySpan := parsed.isNone })

/-- The trace of the context, and the clock after the merge of the received number. -/
def ensureTraceMaterialized (context : LazyRequestContext) (vendorKey : VendorKey)
    (ids : FreshIds) (clock : EventClock) : MaterializedTrace × EventClock :=
  match context.materializedTrace with
  | some trace => (trace, clock)
  | none =>
      let (receivedSeq, trace) := context.readTrace vendorKey ids
      (trace, (receivedSeq.map clock.merge).getD clock)

end LazyRequestContext

/-- The last two hexadecimal digits of the flags. -/
def formatFlags (traceFlags : Nat) : Text :=
  [Json.hexDigit (traceFlags % 256 / 16), Json.hexDigit (traceFlags % 16)]

def formatTraceparent (trace : MaterializedTrace) : Text :=
  Text.join ['-'] ["00", trace.traceId.text, trace.spanId.text, formatFlags trace.traceFlags]

structure TraceHeaders where
  traceparent : Text
  tracestate : Text
  deriving DecidableEq, Repr

def getTraceHeaders (trace : MaterializedTrace) (clock : EventClock) (vendorKey : VendorKey) :
    TraceHeaders where
  traceparent := formatTraceparent trace
  tracestate := formatTracestate clock.value trace.inheritedTracestate vendorKey

/-! ## Reading back what was written -/

/-- The characters of the own entry around which nothing is cut or trimmed. -/
structure IsPlain (c : Char) : Prop where
  comma : c ≠ ','
  space : Text.isWhitespace c = false

theorem isWhitespace_eq_false {c : Char} (hlow : 0x20 < c.toNat) (hhigh : c.toNat < 0x80) :
    Text.isWhitespace c = false := by
  rw [Text.isWhitespace, Bool.eq_false_iff]
  generalize c.toNat = n at hlow hhigh
  intro hspace
  simp only [Bool.or_eq_true, Bool.and_eq_true, decide_eq_true_eq] at hspace
  omega

theorem isPlain_of_isDigit {c : Char} (h : c.isDigit = true) : IsPlain c := by
  have hrange : '0'.toNat ≤ c.toNat ∧ c.toNat ≤ '9'.toNat := by
    rw [Char.isDigit, Bool.and_eq_true, decide_eq_true_eq, decide_eq_true_eq] at h
    exact h
  have hlow : 48 ≤ c.toNat := hrange.1
  have hhigh : c.toNat ≤ 57 := hrange.2
  constructor
  · rintro rfl
    exact absurd hlow (by decide)
  · exact isWhitespace_eq_false (by omega) (by omega)

theorem VendorKey.isPlain {vendorKey : VendorKey} {c : Char} (h : c ∈ vendorKey.text) :
    IsPlain c ∧ c ≠ '=' := by
  have hvalid : isVendorChar c = true := List.all_eq_true.mp vendorKey.valid c h
  simp only [isVendorChar, Bool.or_eq_true, decide_eq_true_eq] at hvalid
  obtain ((((⟨ha, hz⟩ | hdigit) | rfl) | rfl) | rfl) | rfl := hvalid
  · have hlow : 97 ≤ c.toNat := ha
    have hhigh : c.toNat ≤ 122 := hz
    refine ⟨⟨?_, isWhitespace_eq_false (by omega) (by omega)⟩, ?_⟩
    · rintro rfl
      exact absurd hlow (by decide)
    · rintro rfl
      exact absurd hlow (by decide)
  · refine ⟨isPlain_of_isDigit hdigit, ?_⟩
    rintro rfl
    exact absurd hdigit (by decide)
  · exact ⟨⟨by decide, by decide⟩, by decide⟩
  · exact ⟨⟨by decide, by decide⟩, by decide⟩
  · exact ⟨⟨by decide, by decide⟩, by decide⟩
  · exact ⟨⟨by decide, by decide⟩, by decide⟩

theorem trim_of_isPlain {text : Text} (h : ∀ c ∈ text, IsPlain c) : Text.trim text = text := by
  have hkeep : ∀ {text : Text}, (∀ c ∈ text, IsPlain c) →
      text.dropWhile Text.isWhitespace = text := by
    intro text htext
    cases text with
    | nil => rfl
    | cons c rest =>
        rw [List.dropWhile_cons, (htext c List.mem_cons_self).space, if_neg Bool.false_ne_true]
  rw [Text.trim, hkeep h, hkeep, List.reverse_reverse]
  intro c hc
  exact h c (List.mem_reverse.mp hc)

theorem ownEntry_isPlain {currentSeq : Nat} {vendorKey : VendorKey} {c : Char}
    (h : c ∈ ownEntry currentSeq vendorKey) : IsPlain c := by
  rw [ownEntry, List.mem_append, List.mem_append] at h
  obtain hkey | hmark | hdigit := h
  · exact (VendorKey.isPlain hkey).1
  · have hplain : ("=clk:" : Text).all (fun c => c ≠ ',' && !Text.isWhitespace c) = true := by
      decide
    have hc := List.all_eq_true.mp hplain c hmark
    rw [Bool.and_eq_true, decide_eq_true_eq, Bool.not_eq_true'] at hc
    exact ⟨hc.1, hc.2⟩
  · exact isPlain_of_isDigit (Nat.isDigit_of_mem_toDigits (by decide) (by decide) hdigit)

theorem cutAtEquals_append {before after : Text} (h : '=' ∉ before) :
    cutAtEquals (before ++ '=' :: after) = some (before, after) := by
  have hne : ∀ c ∈ before, decide (c ≠ '=') = true := by
    intro c hc
    exact decide_eq_true fun heq => h (heq ▸ hc)
  rw [cutAtEquals, List.dropWhile_append_of_pos hne, List.takeWhile_append_of_pos hne]
  simp

/-- A positive safe integer is read from its digits. -/
theorem clockValue?_toDigits {n : Nat} (hpos : 0 < n) (hle : n ≤ maxSafeInteger) :
    clockValue? ('c' :: 'l' :: 'k' :: ':' :: Nat.toDigits 10 n) = some n := by
  have hlength : (Nat.toDigits 10 n).length ≤ 16 := by
    apply (Nat.length_toDigits_le_iff (by decide) (by decide)).mpr
    exact Nat.lt_of_le_of_lt hle (by decide)
  have hdigits : (Nat.toDigits 10 n).all Char.isDigit = true := by
    apply List.all_eq_true.mpr
    intro c hc
    exact Nat.isDigit_of_mem_toDigits (by decide) (by decide) hc
  rw [clockValue?, if_pos ⟨Nat.toDigits_ne_nil, hlength, hdigits⟩]
  dsimp only
  rw [Nat.ofDigitChars_ten_toDigits, if_pos ⟨hle, hpos⟩]

theorem parseEntry_ownEntry {vendorKey : VendorKey} {n : Nat} (hpos : 0 < n)
    (hle : n ≤ maxSafeInteger) :
    parseEntry vendorKey {} (ownEntry n vendorKey) = { receivedSeq := some n } := by
  have hplain : ∀ c ∈ vendorKey.text, IsPlain c := fun c hc => (VendorKey.isPlain hc).1
  have hdigits : ∀ c ∈ 'c' :: 'l' :: 'k' :: ':' :: Nat.toDigits 10 n, IsPlain c := by
    intro c hc
    have hmem : c ∈ ownEntry n vendorKey := by
      rw [ownEntry]
      exact List.mem_append_right _ (List.mem_cons_of_mem '=' hc)
    exact ownEntry_isPlain hmem
  have hcut : cutAtEquals (ownEntry n vendorKey) =
      some (vendorKey.text, 'c' :: 'l' :: 'k' :: ':' :: Nat.toDigits 10 n) :=
    cutAtEquals_append fun hmem => (VendorKey.isPlain hmem).2 rfl
  rw [parseEntry, trim_of_isPlain fun c hc => ownEntry_isPlain hc]
  dsimp only
  rw [hcut]
  dsimp only
  rw [trim_of_isPlain hplain, trim_of_isPlain hdigits,
    if_neg (not_or.mpr ⟨vendorKey.nonempty, vendorKey.nonempty⟩), if_pos rfl,
    clockValue?_toDigits hpos hle]
  rfl

/-- Later entries do not change the received number. -/
theorem parseEntry_of_received {vendorKey : VendorKey} {result : ParsedTracestate} {n : Nat}
    (h : result.receivedSeq = some n) (raw : Text) :
    (parseEntry vendorKey result raw).receivedSeq = some n := by
  rw [parseEntry]
  dsimp only
  split
  · exact h
  · split_ifs
    · exact h
    · dsimp only
      rw [h, Option.some_or]
    · exact h

theorem foldl_parseEntry_of_received {vendorKey : VendorKey} {result : ParsedTracestate} {n : Nat}
    (h : result.receivedSeq = some n) (entries : List Text) :
    (entries.foldl (parseEntry vendorKey) result).receivedSeq = some n := by
  induction entries generalizing result with
  | nil => exact h
  | cons raw rest ih => exact ih (parseEntry_of_received h raw)

/-- The cap keeps the first entry. -/
theorem capLength_cons (entry : Text) (list : List Text) :
    ∃ rest, capLength (entry :: list) = entry :: rest := by
  rw [capLength]
  split
  · next hlong =>
      cases list with
      | nil => exact absurd hlong.2 (Nat.lt_irrefl 1)
      | cons next list =>
          rw [List.dropLast_cons_of_ne_nil (List.cons_ne_nil next list)]
          exact capLength_cons entry (next :: list).dropLast
  · exact ⟨list, rfl⟩
termination_by list.length
decreasing_by
  rw [List.length_dropLast]
  simp

theorem split_join_cons {entry : Text} (h : ',' ∉ entry) (rest : List Text) :
    ∃ entries, Text.split ',' (Text.join [','] (entry :: rest)) = entry :: entries := by
  rw [Text.split, Text.join]
  cases rest with
  | nil =>
      rw [List.intercalate_singleton, List.splitOn_eq_singleton h]
      exact ⟨[], rfl⟩
  | cons next rest =>
      rw [List.intercalate_cons_cons, List.append_assoc, List.singleton_append,
        List.splitOn_append_cons_self_of_not_mem h]
      exact ⟨_, rfl⟩

/-- A receiver reads the number that the sender wrote, unless that is 0. -/
theorem parseTracestate_formatTracestate {vendorKey : VendorKey} {n : Nat} (hpos : 0 < n)
    (hle : n ≤ maxSafeInteger) (inherited : Option (List Text)) :
    (parseTracestate (some (formatTracestate n inherited vendorKey)) vendorKey).receivedSeq =
      some n := by
  rw [formatTracestate, W3C_MAX_ENTRIES, List.take_succ_cons]
  obtain ⟨rest, hcap⟩ := capLength_cons (ownEntry n vendorKey) ((inherited.getD []).take 31)
  rw [hcap]
  have hcomma : ',' ∉ ownEntry n vendorKey := fun hmem => (ownEntry_isPlain hmem).comma rfl
  obtain ⟨entries, hsplit⟩ := split_join_cons hcomma rest
  rw [parseTracestate, hsplit, List.foldl_cons]
  · rw [parseEntry_ownEntry hpos hle]
    exact foldl_parseEntry_of_received rfl entries
  · intro hempty
    rw [hempty] at hsplit
    have hown : ownEntry n vendorKey = [] := (List.cons.inj hsplit).1.symm
    exact absurd (List.append_eq_nil_iff.mp hown).1 vendorKey.nonempty

theorem isLowerHex_ne {c : Char} (h : isLowerHex c = true) : c ≠ '-' := by
  rintro rfl
  exact absurd h (by decide)

theorem isLowerHex_hexDigit : ∀ n, n < 16 → isLowerHex (Json.hexDigit n) = true := by decide

theorem isHexByte_formatFlags (traceFlags : Nat) : isHexByte (formatFlags traceFlags) = true := by
  have hhigh : isLowerHex (Json.hexDigit (traceFlags % 256 / 16)) = true :=
    isLowerHex_hexDigit _ (by omega)
  have hlow : isLowerHex (Json.hexDigit (traceFlags % 16)) = true :=
    isLowerHex_hexDigit _ (by omega)
  simp [isHexByte, formatFlags, hhigh, hlow]

theorem TraceField.of?_text {count : Nat} (field : TraceField count) :
    TraceField.of? count field.text = some field := by
  rw [TraceField.of?, dif_pos field.valid]

theorem TraceField.not_mem {count : Nat} (field : TraceField count) : '-' ∉ field.text := by
  intro hmem
  have hvalid : isTraceField count field.text = true := field.valid
  rw [isTraceField, Bool.and_eq_true, Bool.and_eq_true] at hvalid
  exact isLowerHex_ne (List.all_eq_true.mp hvalid.1.2 '-' hmem) rfl

/-- A receiver accepts every `traceparent` that a sender writes. -/
theorem parseTraceparent_formatTraceparent (trace : MaterializedTrace) :
    (parseTraceparent (some (formatTraceparent trace))).isSome = true := by
  have hflags : '-' ∉ formatFlags trace.traceFlags := by
    intro hmem
    have hbyte := isHexByte_formatFlags trace.traceFlags
    rw [isHexByte, Bool.and_eq_true] at hbyte
    exact isLowerHex_ne (List.all_eq_true.mp hbyte.2 '-' hmem) rfl
  have hsplit : Text.split '-' (formatTraceparent trace) =
      [['0', '0'], trace.traceId.text, trace.spanId.text, formatFlags trace.traceFlags] := by
    rw [Text.split, formatTraceparent, Text.join, List.splitOn_intercalate]
    · rfl
    · intro part hpart
      simp only [List.mem_cons, List.not_mem_nil, or_false] at hpart
      obtain rfl | rfl | rfl | rfl := hpart
      · decide
      · exact trace.traceId.not_mem
      · exact trace.spanId.not_mem
      · exact hflags
    · exact List.cons_ne_nil _ _
  have hversion : isHexByte ['0', '0'] = true := by decide
  rw [parseTraceparent, Option.map_some, Option.getD_some, hsplit]
  simp [hversion, TraceField.of?_text, isHexByte_formatFlags]

end ErrorCore
