import Mathlib.Data.List.Nodup
import Mathlib.Tactic.IntervalCases
import ErrorCore.Foundation.Json

/-!
# Parsing what was serialized

A value is canonical when its numbers are texts that read back as themselves
and no object has two fields of one name. `JSON.parse` returns a canonical value
from its own text. The number texts are the only part that depends on how the
runtime prints floating point, so they are described by what the parser does
with them.
-/

namespace Json

open Value

/-- What may follow a value inside a document. -/
def Delimited (rest : Text) : Prop :=
  ∀ c ∈ rest.head?, c = ',' ∨ c = ']' ∨ c = '\x7d'

/-- A text that reads back as the number it prints. -/
structure NumberText (formatNumber : Text → Text) (text : Text) : Prop where
  printed : formatNumber text = text
  start : ∃ c cs, text = c :: cs ∧ (c = '-' ∨ isDigit c = true)
  reads : ∀ rest, Delimited rest → parseNumber (text ++ rest) = some (text, rest)

theorem takeDigits_append {ds rest : Text} (digits : ∀ d ∈ ds, isDigit d = true)
    (stop : ∀ d ∈ rest.head?, isDigit d = false) : takeDigits (ds ++ rest) = (ds, rest) := by
  rw [takeDigits, List.takeWhile_append_of_pos digits, List.dropWhile_append_of_pos digits]
  cases rest with
  | nil => simp
  | cons c rest => simp [stop c rfl]

theorem Delimited.stops {rest : Text} (h : Delimited rest) :
    ∀ d ∈ rest.head?, isDigit d = false ∧ d ≠ '.' ∧ d ≠ 'e' ∧ d ≠ 'E' := by
  intro d hd
  rcases h d hd with rfl | rfl | rfl <;> decide

theorem parseFraction_delimited {rest : Text} (h : Delimited rest) :
    parseFraction rest = some ([], rest) := by
  unfold parseFraction
  split
  case h_1 rest => exact absurd rfl (h.stops '.' rfl).2.1
  case h_2 => rfl

theorem parseExponent_delimited {rest : Text} (h : Delimited rest) :
    parseExponent rest = some ([], rest) := by
  unfold parseExponent
  split
  case h_7 => rfl
  all_goals first
    | exact absurd rfl (h.stops 'e' rfl).2.2.1
    | exact absurd rfl (h.stops 'E' rfl).2.2.2

/-- A decimal natural number without leading zeros reads back. -/
theorem parseNumber_digits {c : Char} {cs : Text} (hc : isDigit c = true)
    (hcs : ∀ d ∈ cs, isDigit d = true) (leading : c ≠ '0' ∨ cs = []) {rest : Text}
    (delimited : Delimited rest) : parseNumber (c :: cs ++ rest) = some (c :: cs, rest) := by
  have whole : parseIntegerPart (c :: cs ++ rest) = some (c :: cs, rest) := by
    unfold parseIntegerPart
    split
    case h_1 tail heq =>
      obtain ⟨rfl, rfl⟩ := List.cons.inj heq
      rcases leading with h | rfl
      · exact absurd rfl h
      · rfl
    case h_2 =>
      rw [takeDigits_append (by simpa [hc] using hcs) (fun d hd => (delimited.stops d hd).1)]
  unfold parseNumber
  split
  case h_1 tail heq =>
    have minus : c = '-' := (List.cons.inj heq).1
    rw [minus] at hc
    exact absurd hc (by decide)
  case h_2 =>
    simp only [parseUnsignedNumber, whole, Option.bind_eq_bind, Option.bind_some,
      parseFraction_delimited delimited, parseExponent_delimited delimited, Option.pure_def,
      List.append_nil]

theorem NumberFormat.numberText_digit (numbers : NumberFormat) {n : Nat} (h : n < 10) :
    NumberText numbers.print (Nat.toDigits 10 n) := by
  have digit : ∃ c, Nat.toDigits 10 n = [c] ∧ isDigit c = true := by
    interval_cases n <;> exact ⟨_, rfl, by decide⟩
  obtain ⟨c, hc, hdigit⟩ := digit
  refine ⟨numbers.print_nat n (by omega), ⟨c, [], hc, .inr hdigit⟩, fun rest delimited => ?_⟩
  rw [hc]
  exact parseNumber_digits hdigit (by simp) (.inr rfl) delimited

/-- The digits of a positive number do not start with a zero. -/
theorem toDigits_leading (n : Nat) :
    ∃ c cs, Nat.toDigits 10 n = c :: cs ∧ isDigit c = true ∧ (∀ d ∈ cs, isDigit d = true) ∧
      (n = 0 ∧ cs = [] ∨ c ≠ '0') := by
  induction n using Nat.strongRecOn with
  | ind n ih =>
      have hlast : isDigit (n % 10).digitChar = true := by
        have hmod : n % 10 < 10 := Nat.mod_lt _ (by decide)
        interval_cases n % 10 <;> decide
      by_cases hsmall : n < 10
      · refine ⟨n.digitChar, [], Nat.toDigits_of_lt_base hsmall, ?_, List.forall_mem_nil _, ?_⟩
        · rwa [Nat.mod_eq_of_lt hsmall] at hlast
        · interval_cases n
          · exact .inl ⟨rfl, rfl⟩
          all_goals exact .inr (by decide)
      · obtain ⟨c, cs, hdigits, hc, hcs, hleading⟩ := ih (n / 10) (by omega)
        refine ⟨c, cs ++ [(n % 10).digitChar], ?_, hc, ?_, .inr ?_⟩
        · rw [Nat.toDigits_of_base_le (by decide) (by omega), hdigits, List.cons_append]
        · intro d hd
          cases List.mem_append.mp hd with
          | inl hmem => exact hcs d hmem
          | inr hmem => exact List.mem_singleton.mp hmem ▸ hlast
        · cases hleading with
          | inl hzero => omega
          | inr hne => exact hne

/-- A safe integer reads back. -/
theorem NumberFormat.numberText_nat (numbers : NumberFormat) {n : Nat}
    (h : n < 9007199254740992) : NumberText numbers.print (Nat.toDigits 10 n) := by
  obtain ⟨c, cs, hdigits, hc, hcs, hleading⟩ := toDigits_leading n
  refine ⟨numbers.print_nat n h, ⟨c, cs, hdigits, .inr hc⟩, ?_⟩
  intro rest delimited
  rw [hdigits]
  apply parseNumber_digits hc hcs _ delimited
  cases hleading with
  | inl hzero => exact .inr hzero.2
  | inr hne => exact .inl hne

section Canonical

variable (formatNumber : Text → Text)

mutual

def Canonical : Value → Prop
  | .null | .bool _ | .string _ => True
  | .number text => NumberText formatNumber text
  | .array items => CanonicalItems items
  | .object fields => (fields.map Prod.fst).Nodup ∧ CanonicalFields fields

def CanonicalItems : List Value → Prop
  | [] => True
  | item :: rest => Canonical item ∧ CanonicalItems rest

def CanonicalFields : List (Text × Value) → Prop
  | [] => True
  | (_, value) :: rest => Canonical value ∧ CanonicalFields rest

end

theorem canonicalItems_iff {items : List Value} :
    CanonicalItems formatNumber items ↔ ∀ item ∈ items, Canonical formatNumber item := by
  induction items with
  | nil => exact iff_of_true trivial (List.forall_mem_nil _)
  | cons item items ih => rw [CanonicalItems, List.forall_mem_cons, ih]

theorem canonicalFields_iff {fields : List (Text × Value)} :
    CanonicalFields formatNumber fields ↔ ∀ field ∈ fields, Canonical formatNumber field.2 := by
  induction fields with
  | nil => exact iff_of_true trivial (List.forall_mem_nil _)
  | cons field fields ih => rw [CanonicalFields, List.forall_mem_cons, ih]

end Canonical

/-! ## Strings -/

theorem hexValue_hexDigit : ∀ n, n < 16 → hexValue (hexDigit n) = some n := by decide

theorem hexUnit_escapeUnicode {n : Nat} (h : n < 65536) :
    hexUnit (hexDigit (n / 4096 % 16)) (hexDigit (n / 256 % 16)) (hexDigit (n / 16 % 16))
      (hexDigit (n % 16)) = some n := by
  have digit (m : Nat) : hexValue (hexDigit (m % 16)) = some (m % 16) :=
    hexValue_hexDigit _ (Nat.mod_lt _ (by omega))
  simp only [hexUnit, digit, Option.bind_eq_bind, Option.bind_some, Option.pure_def,
    Option.some.injEq]
  omega

/-- The piece the parser reads back for a character. -/
def escapedPiece (c : Char) : Piece :=
  if c.toNat < 32 ∧ c ≠ '\n' ∧ c ≠ '\r' ∧ c ≠ '\t' ∧ c ≠ '\x08' ∧ c ≠ '\x0c' then
    .unit c.toNat
  else
    .char c

theorem parsePieces_escapeChar (c : Char) (rest : Text) :
    parsePieces (escapeChar c ++ rest) =
      (parsePieces rest).map fun (pieces, after) => (escapedPiece c :: pieces, after) := by
  unfold escapeChar
  split
  case h_8 quote backslash newline carriage tab backspace feed =>
    split
    case isTrue control =>
      have piece : escapedPiece c = .unit c.toNat :=
        if_pos ⟨control, newline, carriage, tab, backspace, feed⟩
      simp only [escapeUnicode, List.cons_append, List.nil_append]
      rw [parsePieces.eq_def]
      simp only [Char.reduceEq, ↓reduceIte, hexUnit_escapeUnicode (show c.toNat < 65536 by omega),
        piece]
      cases parsePieces rest <;> rfl
    case isFalse printable =>
      have piece : escapedPiece c = .char c := if_neg (fun h => printable h.1)
      simp only [List.cons_append, List.nil_append]
      rw [parsePieces.eq_def]
      simp only [if_neg quote, if_neg backslash, if_neg printable, piece]
      cases parsePieces rest <;> rfl
  all_goals
    simp only [List.cons_append, List.nil_append]
    rw [parsePieces.eq_def]
    simp only [Char.reduceEq, ↓reduceIte, unescape]
    cases parsePieces rest <;> rfl

theorem parsePieces_escape (s rest : Text) :
    parsePieces (s.flatMap escapeChar ++ '"' :: rest) = some (s.map escapedPiece, rest) := by
  induction s with
  | nil =>
      rw [List.flatMap_nil, List.nil_append, parsePieces.eq_def]
      simp only [↓reduceIte, List.map_nil]
  | cons c s ih =>
      rw [List.flatMap_cons, List.append_assoc, parsePieces_escapeChar, ih]
      rfl

theorem joinPieces_escapedPiece (c : Char) (rest : List Piece) :
    joinPieces (escapedPiece c :: rest) = c :: joinPieces rest := by
  unfold escapedPiece
  split
  case isFalse => rfl
  case isTrue h =>
    have high : isHighSurrogate c.toNat = false := by
      simp only [isHighSurrogate, Bool.and_eq_false_iff, decide_eq_false_iff_not]
      omega
    have low : isLowSurrogate c.toNat = false := by
      simp only [isLowSurrogate, Bool.and_eq_false_iff, decide_eq_false_iff_not]
      omega
    have same : unitChar c.toNat = c := by
      simp only [unitChar, high, low, Bool.or_false, Bool.false_eq_true, ↓reduceIte,
        Char.ofNat_toNat]
    cases rest with
    | nil => simp only [joinPieces, same]
    | cons piece rest =>
        cases piece <;> simp only [joinPieces, same, high, Bool.false_and, Bool.false_eq_true,
          ↓reduceIte]

theorem joinPieces_escaped (s : Text) : joinPieces (s.map escapedPiece) = s := by
  induction s with
  | nil => rfl
  | cons c s ih => rw [List.map_cons, joinPieces_escapedPiece, ih]

/-- A quoted string reads back, whatever follows it. -/
theorem parseStringBody_quote (s rest : Text) :
    parseStringBody (s.flatMap escapeChar ++ '"' :: rest) = some (s, rest) := by
  rw [parseStringBody, parsePieces_escape]
  simp only [Option.map_some, joinPieces_escaped]

/-! ## Values -/

theorem skipWhitespace_cons {c : Char} (rest : Text)
    (h : ¬ (c = ' ' ∨ c = '\t' ∨ c = '\n' ∨ c = '\r')) :
    skipWhitespace (c :: rest) = c :: rest := by
  rw [skipWhitespace, if_neg h]

theorem Delimited.skipWhitespace {rest : Text} (h : Delimited rest) :
    skipWhitespace rest = rest := by
  cases rest with
  | nil => rfl
  | cons c rest =>
      apply skipWhitespace_cons
      rcases h c rfl with rfl | rfl | rfl <;> decide

theorem delimited_comma (rest : Text) : Delimited (',' :: rest) := by
  intro c hc
  exact .inl (Option.some.inj hc).symm

theorem delimited_bracket (rest : Text) : Delimited (']' :: rest) := by
  intro c hc
  exact .inr (.inl (Option.some.inj hc).symm)

theorem delimited_brace (rest : Text) : Delimited ('\x7d' :: rest) := by
  intro c hc
  exact .inr (.inr (Option.some.inj hc).symm)

theorem isDigit_ne {c : Char} (h : isDigit c = true) :
    c ≠ ' ' ∧ c ≠ '\t' ∧ c ≠ '\n' ∧ c ≠ '\r' ∧ c ≠ 'n' ∧ c ≠ 't' ∧ c ≠ 'f' ∧ c ≠ '"' ∧
      c ≠ '[' ∧ c ≠ ']' ∧ c ≠ '\x7b' := by
  refine ⟨?_, ?_, ?_, ?_, ?_, ?_, ?_, ?_, ?_, ?_, ?_⟩ <;> (rintro rfl; revert h; decide)

/-- The character a value's text starts with: no white space, and not the
closing bracket the parser looks for first. -/
theorem stringify_start {formatNumber : Text → Text} {v : Value}
    (h : Canonical formatNumber v) :
    ∃ c cs, stringify v = c :: cs ∧
      ¬ (c = ' ' ∨ c = '\t' ∨ c = '\n' ∨ c = '\r') ∧ c ≠ ']' := by
  cases v with
  | null => exact ⟨_, _, rfl, by decide, by decide⟩
  | bool b => cases b <;> exact ⟨_, _, rfl, by decide, by decide⟩
  | number text =>
      obtain ⟨c, cs, hc, hstart⟩ := h.start
      refine ⟨c, cs, hc, ?_⟩
      rcases hstart with rfl | digit
      · decide
      · obtain ⟨h1, h2, h3, h4, -, -, -, -, -, h5, -⟩ := isDigit_ne digit
        exact ⟨by simp only [h1, h2, h3, h4, or_self, not_false_iff], h5⟩
  | string s => exact ⟨'"', _, rfl, by decide, by decide⟩
  | array items => exact ⟨'[', _, rfl, by decide, by decide⟩
  | object fields => exact ⟨'\x7b', _, rfl, by decide, by decide⟩

theorem setField_append {name : Text} (value : Value) {seen : List (Text × Value)}
    (h : name ∉ seen.map Prod.fst) : setField name value seen = seen ++ [(name, value)] := by
  induction seen with
  | nil => rfl
  | cons field seen ih =>
      obtain ⟨other, old⟩ := field
      simp only [List.map_cons, List.mem_cons, not_or] at h
      rw [setField, if_neg (Ne.symm h.1), ih h.2, List.cons_append]

section RoundTrip

variable {formatNumber : Text → Text}

theorem parseValue_number {text : Text} (h : NumberText formatNumber text) {rest : Text}
    (delimited : Delimited rest) (fuel : Nat) :
    parseValue formatNumber (fuel + 1) (text ++ rest) = some (.number text, rest) := by
  have reads := h.reads rest delimited
  obtain ⟨c, cs, hc, hstart⟩ := h.start
  have plain : c ≠ ' ' ∧ c ≠ '\t' ∧ c ≠ '\n' ∧ c ≠ '\r' ∧ c ≠ 'n' ∧ c ≠ 't' ∧ c ≠ 'f' ∧
      c ≠ '"' ∧ c ≠ '[' ∧ c ≠ ']' ∧ c ≠ '\x7b' := by
    rcases hstart with rfl | digit
    · decide
    · exact isDigit_ne digit
  obtain ⟨h1, h2, h3, h4, hn, ht, hf, hquote, hbracket, -, hbrace⟩ := plain
  rw [hc, List.cons_append] at reads ⊢
  rw [parseValue, skipWhitespace_cons _ (by simp only [h1, h2, h3, h4, or_self, not_false_iff])]
  split
  case h_7 =>
    simp only [reads, Option.map_some, ← hc, h.printed]
  all_goals
    rename_i heq
    simp_all

theorem parseValue_string (s rest : Text) (fuel : Nat) :
    parseValue formatNumber (fuel + 1) (quote s ++ rest) = some (.string s, rest) := by
  rw [quote, List.cons_append, List.append_assoc, List.singleton_append, parseValue,
    skipWhitespace_cons _ (by decide)]
  simp only [parseStringBody_quote, Option.map_some]

/-- A bracket that no bracket closes at once starts a list of items. -/
theorem parseValue_bracket {fuel : Nat} {c : Char} {cs : Text}
    (hws : ¬ (c = ' ' ∨ c = '\t' ∨ c = '\n' ∨ c = '\r')) (hc : c ≠ ']') :
    parseValue formatNumber (fuel + 1) ('[' :: c :: cs) =
      (parseItems formatNumber fuel (c :: cs)).map fun (items, after) => (.array items, after) := by
  rw [parseValue, skipWhitespace_cons _ (by decide)]
  simp only [skipWhitespace_cons _ hws]
  split
  case h_1 heq => exact absurd (List.cons.inj heq).1 hc
  case h_2 => rfl

theorem parseValue_brace {fuel : Nat} {cs : Text} :
    parseValue formatNumber (fuel + 1) ('\x7b' :: '"' :: cs) =
      (parseFields formatNumber fuel [] ('"' :: cs)).map
        fun (fields, after) => (.object fields, after) := by
  rw [parseValue, skipWhitespace_cons _ (by decide)]
  simp only [skipWhitespace_cons _ (show ¬ ('"' = ' ' ∨ '"' = '\t' ∨ '"' = '\n' ∨ '"' = '\r') by
    decide)]
  split
  case h_1 heq => exact absurd (List.cons.inj heq).1 (by decide)
  case h_2 => rfl

theorem stringifyItems_start {item : Value} {more : List Value} (rest : Text)
    (h : Canonical formatNumber item) :
    ∃ c cs, stringifyItems (item :: more) ++ rest = c :: cs ∧
      ¬ (c = ' ' ∨ c = '\t' ∨ c = '\n' ∨ c = '\r') ∧ c ≠ ']' := by
  obtain ⟨c, cs, hc, hplain⟩ := stringify_start h
  cases more with
  | nil => exact ⟨c, cs ++ rest, by rw [stringifyItems, hc, List.cons_append], hplain⟩
  | cons next more =>
      refine ⟨c, cs ++ (',' :: stringifyItems (next :: more) ++ rest), ?_, hplain⟩
      simp only [stringifyItems, hc, List.cons_append, List.append_assoc]

theorem stringifyFields_start (field : Text × Value) (more : List (Text × Value))
    (rest : Text) : ∃ cs, stringifyFields (field :: more) ++ rest = '"' :: cs := by
  cases more with
  | nil => exact ⟨_, rfl⟩
  | cons next more => exact ⟨_, rfl⟩

/-- The text of a field and what the parser is left with behind its value. -/
theorem parseFields_field {name : Text} {value : Value} {fuel : Nat}
    {seen fields : List (Text × Value)} {rest after : Text}
    (fresh : name ∉ seen.map Prod.fst) (delimited : Delimited rest)
    (h : parseValue formatNumber fuel (stringify value ++ rest) = some (value, rest))
    (next : rest = '\x7d' :: after ∧ fields = seen ++ [(name, value)] ∨
      ∃ more, rest = ',' :: more ∧
        parseFields formatNumber fuel (seen ++ [(name, value)]) more = some (fields, after)) :
    parseFields formatNumber (fuel + 1) seen (quote name ++ ':' :: (stringify value ++ rest)) =
      some (fields, after) := by
  rw [quote, List.cons_append, List.append_assoc, List.singleton_append, parseFields,
    skipWhitespace_cons _ (by decide)]
  simp only [parseStringBody_quote,
    skipWhitespace_cons _ (show ¬ (':' = ' ' ∨ ':' = '\t' ∨ ':' = '\n' ∨ ':' = '\r') by decide),
    h, delimited.skipWhitespace, setField_append value fresh]
  rcases next with ⟨rfl, rfl⟩ | ⟨more, rfl, parsed⟩
  · rfl
  · exact parsed

/-! The three parsers call each other with less fuel, so the induction is on the
fuel and carries one statement for each of them. -/

variable (formatNumber)

def ValuesRead (fuel : Nat) : Prop :=
  ∀ (v : Value) (rest : Text), Canonical formatNumber v → Delimited rest →
    (stringify v).length ≤ fuel →
    parseValue formatNumber fuel (stringify v ++ rest) = some (v, rest)

def ItemsRead (fuel : Nat) : Prop :=
  ∀ (items : List Value) (rest : Text), CanonicalItems formatNumber items → items ≠ [] →
    (stringifyItems items).length + 1 ≤ fuel →
    parseItems formatNumber fuel (stringifyItems items ++ ']' :: rest) = some (items, rest)

def FieldsRead (fuel : Nat) : Prop :=
  ∀ (fields seen : List (Text × Value)) (rest : Text),
    CanonicalFields formatNumber fields → (seen.map Prod.fst ++ fields.map Prod.fst).Nodup →
    fields ≠ [] → (stringifyFields fields).length + 1 ≤ fuel →
    parseFields formatNumber fuel seen (stringifyFields fields ++ '\x7d' :: rest) =
      some (seen ++ fields, rest)

variable {formatNumber}

theorem valuesRead_succ {fuel : Nat} (itemsRead : ItemsRead formatNumber fuel)
    (fieldsRead : FieldsRead formatNumber fuel) : ValuesRead formatNumber (fuel + 1) := by
  intro v rest canonical delimited enough
  cases v with
  | null =>
      rw [parseValue]
      rfl
  | bool b => cases b <;> rw [parseValue] <;> rfl
  | number text => exact parseValue_number canonical delimited fuel
  | string s => exact parseValue_string s rest fuel
  | array items =>
      rw [stringify, List.length_cons, List.length_append, List.length_singleton] at enough
      rw [stringify, List.cons_append, List.append_assoc, List.singleton_append]
      cases items with
      | nil =>
          rw [parseValue]
          rfl
      | cons item more =>
          have parsed := itemsRead (item :: more) rest canonical (by simp) (by omega)
          obtain ⟨c, cs, hc, hws, hbracket⟩ := stringifyItems_start (']' :: rest) canonical.1
          rw [hc] at parsed ⊢
          rw [parseValue_bracket hws hbracket, parsed, Option.map_some]
  | object fields =>
      rw [stringify, List.length_cons, List.length_append, List.length_singleton] at enough
      rw [stringify, List.cons_append, List.append_assoc, List.singleton_append]
      cases fields with
      | nil =>
          rw [parseValue]
          rfl
      | cons field more =>
          have parsed := fieldsRead (field :: more) [] rest canonical.2
            (by simpa using canonical.1) (by simp) (by omega)
          obtain ⟨cs, hc⟩ := stringifyFields_start field more ('\x7d' :: rest)
          rw [hc] at parsed ⊢
          rw [parseValue_brace, parsed, Option.map_some, List.nil_append]

theorem itemsRead_succ {fuel : Nat} (valuesRead : ValuesRead formatNumber fuel)
    (itemsRead : ItemsRead formatNumber fuel) : ItemsRead formatNumber (fuel + 1) := by
  intro items rest canonical nonempty enough
  cases items with
  | nil => contradiction
  | cons item more =>
      cases more with
      | nil =>
          rw [stringifyItems] at enough ⊢
          rw [parseItems, valuesRead item (']' :: rest) canonical.1 (delimited_bracket rest)
            (by omega)]
          simp only [(delimited_bracket rest).skipWhitespace]
      | cons next more =>
          simp only [stringifyItems, List.length_append, List.length_cons] at enough
          simp only [stringifyItems, List.append_assoc, List.cons_append]
          rw [parseItems, valuesRead item _ canonical.1 (delimited_comma _) (by omega)]
          simp only [(delimited_comma _).skipWhitespace]
          rw [itemsRead (next :: more) rest canonical.2 (by simp) (by omega), Option.map_some]

theorem fieldsRead_succ {fuel : Nat} (valuesRead : ValuesRead formatNumber fuel)
    (fieldsRead : FieldsRead formatNumber fuel) : FieldsRead formatNumber (fuel + 1) := by
  intro fields seen rest canonical nodup nonempty enough
  cases fields with
  | nil => contradiction
  | cons field more =>
      obtain ⟨name, value⟩ := field
      have fresh : name ∉ seen.map Prod.fst := fun mem =>
        List.disjoint_of_nodup_append nodup mem (by simp)
      cases more with
      | nil =>
          rw [stringifyFields, List.length_append, List.length_cons] at enough
          rw [stringifyFields, List.append_assoc, List.cons_append]
          exact parseFields_field fresh (delimited_brace rest)
            (valuesRead value _ canonical.1 (delimited_brace rest) (by omega)) (.inl ⟨rfl, rfl⟩)
      | cons next more =>
          simp only [stringifyFields, List.length_append, List.length_cons] at enough
          have parsed := fieldsRead (next :: more) (seen ++ [(name, value)]) rest canonical.2
            (by simpa using nodup) (by simp) (by omega)
          rw [List.append_assoc, List.singleton_append] at parsed
          simp only [stringifyFields, List.append_assoc, List.cons_append]
          exact parseFields_field fresh (delimited_comma _)
            (valuesRead value _ canonical.1 (delimited_comma _) (by omega))
            (.inr ⟨_, rfl, parsed⟩)

theorem reads_back (fuel : Nat) :
    ValuesRead formatNumber fuel ∧ ItemsRead formatNumber fuel ∧ FieldsRead formatNumber fuel := by
  induction fuel with
  | zero =>
      refine ⟨?_, ?_, ?_⟩
      · intro v rest canonical _ enough
        obtain ⟨c, cs, hc, -⟩ := stringify_start canonical
        rw [hc, List.length_cons] at enough
        omega
      · intro _ _ _ _ enough
        omega
      · intro _ _ _ _ _ _ enough
        omega
  | succ fuel ih =>
      obtain ⟨values, items, fields⟩ := ih
      exact ⟨valuesRead_succ items fields, itemsRead_succ values items,
        fieldsRead_succ values fields⟩

/-- `JSON.parse` undoes `JSON.stringify` on canonical values. -/
theorem parse_stringify {v : Value} (h : Canonical formatNumber v) :
    parse formatNumber (stringify v) = some v := by
  have parsed := (reads_back ((stringify v).length + 1)).1 v [] h
    (fun c hc => by simp at hc) (by omega)
  rw [List.append_nil] at parsed
  rw [parse, parsed]
  rfl

end RoundTrip

end Json
