import ErrorCore.Context.TraceContext
import ErrorCore.Foundation.Lines
import Mathlib.Data.List.Induction

/-!
# `tracestate` round trips

A header that `formatTracestate` has written is read back by the own key: the
number comes back, and so do as many of the inherited entries as the two bounds
leave room for. What `parseTracestate` inherits is trimmed, has a key and no
comma, and its key is not the own one, so that it goes through both functions
unchanged.
-/

namespace Text

theorem not_of_dropWhile_eq_cons {p : Char → Bool} {text : Text} {c : Char} {rest : Text}
    (h : text.dropWhile p = c :: rest) : p c = false := by
  have hhead := List.head?_dropWhile_not p text
  rw [h] at hhead
  exact hhead

/-- Trimming cuts off white space at both ends. -/
theorem trim_subset {text : Text} {c : Char} (h : c ∈ trim text) : c ∈ text := by
  rw [trim, List.mem_reverse] at h
  have hdropped := (List.dropWhile_suffix isWhitespace).subset h
  exact (List.dropWhile_suffix isWhitespace).subset (List.mem_reverse.mp hdropped)

theorem dropWhile_dropWhile (p : Char → Bool) (text : Text) :
    (text.dropWhile p).dropWhile p = text.dropWhile p := by
  cases h : text.dropWhile p with
  | nil => rfl
  | cons c rest =>
      rw [List.dropWhile_cons, not_of_dropWhile_eq_cons h, if_neg Bool.false_ne_true]

/-- Cutting off at the end leaves a text that starts without white space as it starts. -/
theorem dropWhile_trimEnd {p : Char → Bool} {text : Text} (h : text.dropWhile p = text) :
    (text.reverse.dropWhile p).reverse.dropWhile p = (text.reverse.dropWhile p).reverse := by
  have hprefix : (text.reverse.dropWhile p).reverse <+: text := by
    have hsuffix := List.reverse_prefix.mpr (List.dropWhile_suffix (l := text.reverse) p)
    rwa [List.reverse_reverse] at hsuffix
  cases hcut : (text.reverse.dropWhile p).reverse with
  | nil => rfl
  | cons c rest =>
      rw [hcut] at hprefix
      obtain ⟨more, rfl⟩ := hprefix
      rw [List.dropWhile_cons, not_of_dropWhile_eq_cons h, if_neg Bool.false_ne_true]

@[simp] theorem trim_trim (text : Text) : trim (trim text) = trim text := by
  unfold trim
  rw [dropWhile_trimEnd (dropWhile_dropWhile isWhitespace text), List.reverse_reverse,
    dropWhile_dropWhile]

end Text

namespace ErrorCore

variable {vendorKey : VendorKey}

/-! ## Inherited entries -/

/-- An entry that is inherited: it is trimmed and has a key, which is not the own one. -/
structure IsInherited (vendorKey : VendorKey) (entry : Text) : Prop where
  comma : ',' ∉ entry
  trimmed : Text.trim entry = entry
  foreign : ∃ before after, cutAtEquals entry = some (before, after) ∧ before ≠ [] ∧
    Text.trim before ≠ [] ∧ Text.trim before ≠ vendorKey.text

/-- What an entry of the header adds to the result. -/
theorem parseEntry_cases (vendorKey : VendorKey) (result : ParsedTracestate) (raw : Text) :
    (parseEntry vendorKey result raw).inheritedEntries = result.inheritedEntries ∨
      (parseEntry vendorKey result raw =
          { result with inheritedEntries := result.inheritedEntries ++ [Text.trim raw] } ∧
        ∃ before after, cutAtEquals (Text.trim raw) = some (before, after) ∧ before ≠ [] ∧
          Text.trim before ≠ [] ∧ Text.trim before ≠ vendorKey.text) := by
  unfold parseEntry
  dsimp only
  split
  · exact .inl rfl
  · rename_i before after hcut
    split_ifs with hempty hown
    · exact .inl rfl
    · exact .inl rfl
    · rw [not_or] at hempty
      exact .inr ⟨rfl, before, after, hcut, hempty.1, hempty.2, hown⟩

theorem parseEntry_isInherited {result : ParsedTracestate} {entry : Text}
    (h : IsInherited vendorKey entry) :
    parseEntry vendorKey result entry =
      { result with inheritedEntries := result.inheritedEntries ++ [entry] } := by
  obtain ⟨before, after, hcut, hbefore, hkey, hforeign⟩ := h.foreign
  rw [parseEntry, h.trimmed]
  dsimp only
  rw [hcut]
  dsimp only
  rw [if_neg (not_or.mpr ⟨hbefore, hkey⟩), if_neg hforeign]

theorem foldl_parseEntry_isInherited {result : ParsedTracestate} {entries : List Text}
    (h : ∀ entry ∈ entries, IsInherited vendorKey entry) :
    entries.foldl (parseEntry vendorKey) result =
      { result with inheritedEntries := result.inheritedEntries ++ entries } := by
  induction entries generalizing result with
  | nil => rw [List.foldl_nil, List.append_nil]
  | cons entry rest ih =>
      rw [List.foldl_cons, parseEntry_isInherited (h entry List.mem_cons_self),
        ih fun other hother => h other (List.mem_cons_of_mem _ hother)]
      dsimp only
      rw [List.append_assoc, List.singleton_append]

theorem foldl_inherits {entries : List Text} (hcomma : ∀ raw ∈ entries, ',' ∉ raw)
    {result : ParsedTracestate}
    (h : ∀ entry ∈ result.inheritedEntries, IsInherited vendorKey entry) :
    ∀ entry ∈ (entries.foldl (parseEntry vendorKey) result).inheritedEntries,
      IsInherited vendorKey entry := by
  induction entries generalizing result with
  | nil => exact h
  | cons raw rest ih =>
      refine ih (fun other hother => hcomma other (List.mem_cons_of_mem _ hother)) ?_
      obtain hsame | ⟨hpush, hforeign⟩ := parseEntry_cases vendorKey result raw
      · rw [hsame]
        exact h
      · rw [hpush]
        intro entry hentry
        obtain hold | hnew := List.mem_append.mp hentry
        · exact h entry hold
        · rw [List.mem_singleton.mp hnew]
          refine ⟨fun hmem => ?_, Text.trim_trim raw, hforeign⟩
          exact hcomma raw List.mem_cons_self (Text.trim_subset hmem)

/-- Every entry that a header leaves to be inherited is trimmed and foreign. -/
theorem parseTracestate_inherits (header : Option Text) :
    ∀ entry ∈ (parseTracestate header vendorKey).inheritedEntries, IsInherited vendorKey entry := by
  unfold parseTracestate
  split
  · intro entry h
    exact absurd h List.not_mem_nil
  · intro entry h
    exact absurd h List.not_mem_nil
  · exact foldl_inherits (fun raw hraw => Text.notMem_of_mem_split hraw)
      fun entry h => absurd h List.not_mem_nil

/-! ## The two bounds -/

def FitsHeader (list : List Text) : Prop :=
  Text.utf16Length (Text.join [','] list) ≤ W3C_MAX_TOTAL_LENGTH

theorem digit_lt {c : Char} (h : c.isDigit = true) : c.toNat < 0x10000 := by
  have hrange : '0'.toNat ≤ c.toNat ∧ c.toNat ≤ '9'.toNat := by
    rw [Char.isDigit, Bool.and_eq_true, decide_eq_true_eq, decide_eq_true_eq] at h
    exact h
  exact Nat.lt_of_le_of_lt hrange.2 (by decide)

theorem vendorChar_lt {c : Char} (h : isVendorChar c = true) : c.toNat < 0x10000 := by
  simp only [isVendorChar, Bool.or_eq_true, decide_eq_true_eq] at h
  obtain ((((⟨-, hz⟩ | hdigit) | rfl) | rfl) | rfl) | rfl := h
  · have hhigh : c.toNat ≤ 122 := hz
    omega
  · exact digit_lt hdigit
  · decide
  · decide
  · decide
  · decide

/-- The own entry alone fits. -/
theorem fitsHeader_ownEntry {n : Nat} (hle : n ≤ maxSafeInteger) (vendorKey : VendorKey) :
    FitsHeader [ownEntry n vendorKey] := by
  have hlength : (Nat.toDigits 10 n).length ≤ 16 := by
    apply (Nat.length_toDigits_le_iff (by decide) (by decide)).mpr
    exact Nat.lt_of_le_of_lt hle (by decide)
  have hkey := vendorKey.length_le
  have hsmall : ∀ c ∈ ownEntry n vendorKey, c.toNat < 0x10000 := by
    intro c hc
    rw [ownEntry, List.mem_append, List.mem_append] at hc
    obtain hkey | hmark | hdigit := hc
    · exact vendorChar_lt (List.all_eq_true.mp vendorKey.valid c hkey)
    · have hall : ("=clk:" : Text).all (fun c => c.toNat < 0x10000) = true := by decide
      exact of_decide_eq_true (List.all_eq_true.mp hall c hmark)
    · exact digit_lt (Nat.isDigit_of_mem_toDigits (by decide) (by decide) hdigit)
  have hmark : ("=clk:" : Text).length = 5 := rfl
  rw [FitsHeader, Text.join, List.intercalate_singleton, Text.utf16Length_of_lt hsmall, ownEntry,
    List.length_append, List.length_append, hmark, W3C_MAX_TOTAL_LENGTH]
  omega

/-- The cap drops the shortest suffix that makes the list fit. -/
theorem capLength_spec (own : Text) (list : List Text) :
    ∃ k, k ≤ list.length ∧ capLength (own :: list) = own :: list.take k ∧
      (k = 0 ∨ FitsHeader (own :: list.take k)) ∧
        ∀ j, k < j → j ≤ list.length → ¬ FitsHeader (own :: list.take j) := by
  induction list using List.reverseRecOn with
  | nil =>
      refine ⟨0, Nat.le_refl 0, ?_, .inl rfl, fun j hj hle => absurd hle (Nat.not_le.mpr hj)⟩
      rw [capLength, dif_neg fun h => absurd h.2 (Nat.lt_irrefl 1)]
      rfl
  | append_singleton list last ih =>
      rw [capLength]
      split
      · rename_i hlong
        obtain ⟨k, hk, hcap, hfits, hmax⟩ := ih
        rw [List.length_append, List.length_singleton]
        refine ⟨k, Nat.le_succ_of_le hk, ?_, ?_, fun j hj hle => ?_⟩
        · rw [← List.cons_append, List.dropLast_concat, hcap,
            List.take_append_of_le_length hk]
        · rwa [List.take_append_of_le_length hk]
        · obtain hlt | heq := Nat.lt_or_eq_of_le hle
          · rw [List.take_append_of_le_length (Nat.le_of_lt_succ hlt)]
            exact hmax j hj (Nat.le_of_lt_succ hlt)
          · have htake : (list ++ [last]).take j = list ++ [last] := by
              rw [heq]
              exact List.take_of_length_le (by simp)
            rw [htake]
            exact Nat.not_le.mpr hlong.1
      · rename_i hshort
        refine ⟨(list ++ [last]).length, Nat.le_refl _, ?_, .inr ?_, fun j hj hle => ?_⟩
        · rw [List.take_length]
        · rw [List.take_length]
          refine Nat.not_lt.mp fun hlong => hshort ⟨hlong, ?_⟩
          simp
        · exact absurd hle (Nat.not_le.mpr hj)

/-! ## The round trip -/

theorem split_join_own {n : Nat} {entries : List Text}
    (h : ∀ entry ∈ entries, IsInherited vendorKey entry) :
    Text.split ',' (Text.join [','] (ownEntry n vendorKey :: entries)) =
      ownEntry n vendorKey :: entries := by
  refine List.splitOn_intercalate ',' (fun entry hentry => ?_) (List.cons_ne_nil _ _)
  obtain rfl | hmem := List.mem_cons.mp hentry
  · exact fun hmem => (ownEntry_isPlain hmem).comma rfl
  · exact (h entry hmem).comma

/-- A receiver reads the number and the entries that fit. -/
theorem parseTracestate_join {n : Nat} (hpos : 0 < n) (hle : n ≤ maxSafeInteger)
    {entries : List Text} (h : ∀ entry ∈ entries, IsInherited vendorKey entry) :
    parseTracestate (some (Text.join [','] (ownEntry n vendorKey :: entries))) vendorKey =
      { receivedSeq := some n, inheritedEntries := entries } := by
  have hsplit := split_join_own (n := n) h
  rw [parseTracestate, hsplit, List.foldl_cons, parseEntry_ownEntry hpos hle,
    foldl_parseEntry_isInherited h, List.nil_append]
  intro hempty
  rw [hempty] at hsplit
  have hown : ownEntry n vendorKey = [] := (List.cons.inj hsplit).1.symm
  exact absurd (List.append_eq_nil_iff.mp hown).1 vendorKey.nonempty

/-- The header for these inherited entries is read back with the first `k` of them, and there is
no room for one more. -/
structure RoundTrip (vendorKey : VendorKey) (n : Nat) (inherited : List Text) (k : Nat) :
    Prop where
  parsed : parseTracestate (some (formatTracestate n (some inherited) vendorKey)) vendorKey =
    { receivedSeq := some n, inheritedEntries := inherited.take k }
  entries : (Text.split ',' (formatTracestate n (some inherited) vendorKey)).length ≤
    W3C_MAX_ENTRIES
  length : Text.utf16Length (formatTracestate n (some inherited) vendorKey) ≤
    W3C_MAX_TOTAL_LENGTH
  maximal : ∀ j, k < j → j ≤ inherited.length →
    W3C_MAX_ENTRIES < j + 1 ∨ ¬ FitsHeader (ownEntry n vendorKey :: inherited.take j)

theorem formatTracestate_spec (vendorKey : VendorKey) {n : Nat} (hle : n ≤ maxSafeInteger)
    (inherited : List Text) :
    ∃ k, k ≤ inherited.length ∧ k + 1 ≤ W3C_MAX_ENTRIES ∧
      formatTracestate n (some inherited) vendorKey =
        Text.join [','] (ownEntry n vendorKey :: inherited.take k) ∧
      FitsHeader (ownEntry n vendorKey :: inherited.take k) ∧
        ∀ j, k < j → j ≤ inherited.length →
          W3C_MAX_ENTRIES < j + 1 ∨ ¬ FitsHeader (ownEntry n vendorKey :: inherited.take j) := by
  obtain ⟨k, hk, hcap, hfits, hmax⟩ := capLength_spec (ownEntry n vendorKey) (inherited.take 31)
  rw [List.length_take] at hk hmax
  have htake : (inherited.take 31).take k = inherited.take k := by
    rw [List.take_take, Nat.min_eq_left (Nat.le_trans hk (Nat.min_le_left ..))]
  rw [htake] at hcap hfits
  refine ⟨k, Nat.le_trans hk (Nat.min_le_right ..), ?_, ?_, ?_, fun j hj hjle => ?_⟩
  · have := Nat.le_trans hk (Nat.min_le_left ..)
    rw [W3C_MAX_ENTRIES]
    omega
  · rw [formatTracestate, Option.getD_some, W3C_MAX_ENTRIES, List.take_succ_cons, hcap]
  · obtain rfl | hfits := hfits
    · exact fitsHeader_ownEntry hle vendorKey
    · exact hfits
  · by_cases hcount : W3C_MAX_ENTRIES < j + 1
    · exact .inl hcount
    · rw [W3C_MAX_ENTRIES] at hcount
      have hroom := hmax j hj (by omega)
      rw [List.take_take, Nat.min_eq_left (by omega)] at hroom
      exact .inr hroom

/-- What a hop inherits it passes on, as far as the two bounds leave room for it, and no header
leaves an own entry to be inherited. -/
theorem tracestate_roundTrip (vendorKey : VendorKey) {n : Nat} (hpos : 0 < n)
    (hle : n ≤ maxSafeInteger) (header : Option Text) :
    (∃ k, RoundTrip vendorKey n (parseTracestate header vendorKey).inheritedEntries k) ∧
      ∀ entry ∈ (parseTracestate header vendorKey).inheritedEntries,
        ∀ before after, cutAtEquals entry = some (before, after) →
          Text.trim before ≠ vendorKey.text := by
  have hinherited : ∀ entry ∈ (parseTracestate header vendorKey).inheritedEntries,
      IsInherited vendorKey entry := parseTracestate_inherits header
  constructor
  · generalize (parseTracestate header vendorKey).inheritedEntries = inherited at hinherited
    obtain ⟨k, -, hcount, hformat, hfits, hmax⟩ := formatTracestate_spec vendorKey hle inherited
    have htake : ∀ entry ∈ inherited.take k, IsInherited vendorKey entry := fun entry hentry =>
      hinherited entry (List.mem_of_mem_take hentry)
    refine ⟨k, ?_, ?_, ?_, hmax⟩
    · rw [hformat, parseTracestate_join hpos hle htake]
    · have hsplit : Text.split ',' (Text.join [','] (ownEntry n vendorKey :: inherited.take k)) =
          ownEntry n vendorKey :: inherited.take k :=
        split_join_own htake
      rw [hformat, hsplit, List.length_cons]
      exact Nat.le_trans (Nat.succ_le_succ (List.length_take_le k inherited)) hcount
    · rw [hformat]
      exact hfits
  · intro entry hentry before after hcut
    obtain ⟨before', after', hcut', -, -, hforeign⟩ := (hinherited entry hentry).foreign
    rw [hcut] at hcut'
    rw [(Prod.mk.inj (Option.some.inj hcut')).1]
    exact hforeign

/-- The default of the configuration. -/
def defaultVendorKey : VendorKey where
  text := "ec"
  nonempty := by decide
  length_le := by decide
  valid := by decide

theorem tracestate_roundTrip_seven :
    (∃ k, RoundTrip defaultVendorKey 7
        (parseTracestate (some "a=1, ec=clk:5 ,b = 2".toList) defaultVendorKey).inheritedEntries k) ∧
      ∀ entry ∈ (parseTracestate (some "a=1, ec=clk:5 ,b = 2".toList)
          defaultVendorKey).inheritedEntries,
        ∀ before after, cutAtEquals entry = some (before, after) →
          Text.trim before ≠ defaultVendorKey.text :=
  tracestate_roundTrip defaultVendorKey (by decide) (by decide) (some "a=1, ec=clk:5 ,b = 2".toList)

end ErrorCore
