import ErrorCore.Foundation.Bytes
import ErrorCore.Foundation.Lines

/-!
# Decoding any bytes

`buffer.toString('utf8')`: the decoder goes from byte to byte and shows U+FFFD
for the longest start of a sequence that cannot be continued. A newline is a
byte of its own in any context, so that the lines of a text are the texts of the
lines.
-/

namespace Bytes

def replacement : Char := '\uFFFD'

/-- The bytes that may continue a sequence; a narrow range keeps out encodings that are too long,
surrogates and what is beyond the last code point. -/
inductive Range
  | any
  | fromA0
  | to9F
  | from90
  | to8F
  deriving DecidableEq, Repr

def Range.lower : Range → Nat
  | any | to9F | to8F => 0x80
  | fromA0 => 0xa0
  | from90 => 0x90

def Range.upper : Range → Nat
  | any | fromA0 | from90 => 0xbf
  | to9F => 0x9f
  | to8F => 0x8f

/-- Between two characters, or inside a sequence that needs `further` bytes after the next one. -/
inductive Decoder
  | start
  | inside (further : Nat) (range : Range) (point : Nat)
  deriving DecidableEq, Repr

namespace Decoder

/-- The first byte of a sequence. -/
def lead (b : Nat) : Text × Decoder :=
  if b < 0x80 then ([Char.ofNat b], start)
  else if 0xc2 ≤ b ∧ b < 0xe0 then ([], inside 0 .any (b - 0xc0))
  else if b = 0xe0 then ([], inside 1 .fromA0 0)
  else if b = 0xed then ([], inside 1 .to9F 0xd)
  else if 0xe1 ≤ b ∧ b < 0xf0 then ([], inside 1 .any (b - 0xe0))
  else if b = 0xf0 then ([], inside 2 .from90 0)
  else if b = 0xf4 then ([], inside 2 .to8F 4)
  else if 0xf1 ≤ b ∧ b < 0xf4 then ([], inside 2 .any (b - 0xf0))
  else ([replacement], start)

/-- A byte in range gives six more bits of the code point. -/
def advance (further point b : Nat) : Text × Decoder :=
  match further with
  | 0 => ([Char.ofNat (point * 64 + (b - 0x80))], start)
  | further + 1 => ([], inside further .any (point * 64 + (b - 0x80)))

/-- One byte: the characters it completes and where it leaves the decoder. -/
def next (d : Decoder) (b : Nat) : Text × Decoder :=
  match d with
  | start => lead b
  | inside further range point =>
      if range.lower ≤ b ∧ b ≤ range.upper then advance further point b
      else (replacement :: (lead b).1, (lead b).2)

/-- A sequence that the input ends in is replaced. -/
def finish : Decoder → Text
  | start => []
  | inside _ _ _ => [replacement]

def run : Decoder → Bytes → Text
  | d, [] => d.finish
  | d, b :: rest => (d.next b.toNat).1 ++ run (d.next b.toNat).2 rest

end Decoder

/-- `buffer.toString('utf8')`. -/
def decode (bytes : Bytes) : Text := Decoder.start.run bytes

/-! ## Newlines -/

def newline : UInt8 := byte 10

theorem newline_toNat : newline.toNat = 10 := byte_toNat (by decide)

namespace Decoder

variable {d : Decoder} {rest bytes : Bytes} {b : Nat}

theorem next_of_mem {further point : Nat} {range : Range} (h : range.lower ≤ b ∧ b ≤ range.upper) :
    (inside further range point).next b = advance further point b :=
  if_pos h

theorem next_of_notMem {further point : Nat} {range : Range}
    (h : ¬(range.lower ≤ b ∧ b ≤ range.upper)) :
    (inside further range point).next b = (replacement :: (lead b).1, (lead b).2) :=
  if_neg h

/-- A byte of one character ends whatever comes before it. -/
theorem next_ascii (d : Decoder) (hb : b < 0x80) :
    d.next b = (d.finish ++ [Char.ofNat b], start) := by
  have hlead : lead b = ([Char.ofNat b], start) := if_pos hb
  cases d with
  | start => exact hlead
  | inside further range point =>
      have hrange : ¬(range.lower ≤ b ∧ b ≤ range.upper) := by
        cases range <;> simp only [Range.lower] <;> omega
      rw [next_of_notMem hrange, hlead]
      rfl

theorem run_append_ascii (d : Decoder) (before rest : Bytes) (hb : b < 0x80) :
    d.run (before ++ byte b :: rest) = d.run before ++ Char.ofNat b :: start.run rest := by
  induction before generalizing d with
  | nil =>
      have hstep : d.run (byte b :: rest) = (d.next b).1 ++ (d.next b).2.run rest := by
        rw [run, byte_toNat (by omega)]
      rw [List.nil_append, hstep, next_ascii d hb, List.append_assoc]
      rfl
  | cons first before ih => rw [List.cons_append, run, run, ih, List.append_assoc]

/-- The code point of a sequence under way is not that of a character of one byte. -/
def Long : Decoder → Prop
  | start => True
  | inside further range point => 1 ≤ point ∨ (1 ≤ further ∧ 0x81 ≤ range.lower)

theorem long_lead (b : Nat) : (lead b).2.Long := by
  unfold lead
  split_ifs <;> simp [Long, Range.lower] <;> omega

theorem toNat_ofNat {n : Nat} (h : n.isValidChar) : (Char.ofNat n).toNat = n := by
  rw [Char.ofNat, dif_pos h]
  rfl

theorem newline_ne_ofNat {n : Nat} (h : n ≠ 10) : '\n' ≠ Char.ofNat n := by
  intro heq
  by_cases hvalid : n.isValidChar
  · exact h ((toNat_ofNat hvalid).symm.trans (congrArg Char.toNat heq).symm)
  · have hzero : (Char.ofNat n).toNat = 0 := by
      rw [Char.ofNat, dif_neg hvalid]
      rfl
    cases (congrArg Char.toNat heq).trans hzero

theorem newline_notMem_lead (h : b ≠ 10) : '\n' ∉ (lead b).1 := by
  unfold lead
  split_ifs
  · intro hmem
    exact newline_ne_ofNat h (List.mem_singleton.mp hmem)
  all_goals simp [replacement]

theorem long_next (h : d.Long) (b : Nat) : (d.next b).2.Long := by
  cases d with
  | start => exact long_lead b
  | inside further range point =>
      by_cases hrange : range.lower ≤ b ∧ b ≤ range.upper
      · rw [next_of_mem hrange]
        cases further with
        | zero => trivial
        | succ further =>
            left
            rcases h with hpoint | ⟨-, hlower⟩
            · omega
            · omega
      · rw [next_of_notMem hrange]
        exact long_lead b

theorem newline_notMem_next (h : d.Long) (hb : b ≠ 10) : '\n' ∉ (d.next b).1 := by
  cases d with
  | start => exact newline_notMem_lead hb
  | inside further range point =>
      by_cases hrange : range.lower ≤ b ∧ b ≤ range.upper
      · rw [next_of_mem hrange]
        cases further with
        | zero =>
            rcases h with hpoint | ⟨hfurther, -⟩
            · intro hmem
              exact newline_ne_ofNat (by omega) (List.mem_singleton.mp hmem)
            · omega
        | succ further => exact List.not_mem_nil
      · rw [next_of_notMem hrange, List.mem_cons, not_or]
        exact ⟨by decide, newline_notMem_lead hb⟩

theorem newline_notMem_run (h : d.Long) (hbytes : newline ∉ bytes) : '\n' ∉ d.run bytes := by
  induction bytes generalizing d with
  | nil =>
      cases d with
      | start => exact List.not_mem_nil
      | inside => simp [run, finish, replacement]
  | cons b bytes ih =>
      rw [List.mem_cons, not_or] at hbytes
      have hb : b.toNat ≠ 10 := by
        intro heq
        exact hbytes.1 (UInt8.toNat_inj.mp (newline_toNat.trans heq.symm))
      rw [run, List.mem_append, not_or]
      exact ⟨newline_notMem_next h hb, ih (long_next h b.toNat) hbytes.2⟩

end Decoder

theorem decode_append_ascii (before rest : Bytes) {b : Nat} (hb : b < 0x80) :
    decode (before ++ byte b :: rest) = decode before ++ Char.ofNat b :: decode rest :=
  Decoder.run_append_ascii .start before rest hb

theorem decode_append_newline (before rest : Bytes) :
    decode (before ++ newline :: rest) = decode before ++ '\n' :: decode rest :=
  decode_append_ascii before rest (by decide)

/-- The bytes between the newlines. -/
def lines (bytes : Bytes) : List Bytes := bytes.splitOn newline

theorem lines_append_newline (line rest : Bytes) :
    lines (line ++ newline :: rest) = lines line ++ lines rest :=
  List.splitOn_append_cons_self _ _

theorem lines_of_notMem {line : Bytes} (h : newline ∉ line) : lines line = [line] :=
  List.splitOn_eq_singleton h

/-- The lines of the text are the texts of the lines. -/
theorem split_decode (bytes : Bytes) :
    Text.split '\n' (decode bytes) = (lines bytes).map decode := by
  have line_eq : ∀ line : Bytes, newline ∉ line →
      Text.split '\n' (decode line) = (lines line).map decode := by
    intro line hline
    have hchars : '\n' ∉ decode line := Decoder.newline_notMem_run trivial hline
    rw [lines_of_notMem hline, Text.split_of_notMem hchars]
    rfl
  induction hlength : bytes.length using Nat.strong_induction_on generalizing bytes with
  | _ n ih =>
      by_cases hmem : newline ∈ bytes
      · obtain ⟨line, rest, rfl, hline⟩ := List.eq_append_cons_of_mem hmem
        have hrest := ih rest.length
          (by rw [← hlength, List.length_append, List.length_cons]; omega) rest rfl
        rw [decode_append_newline, lines_append_newline, List.map_append, ← hrest,
          ← line_eq line hline]
        exact List.splitOn_append_cons_self _ _
      · exact line_eq bytes hmem

/-- The bytes that lines take with a newline after each. -/
def size : List Bytes → Nat
  | [] => 0
  | line :: rest => line.length + 1 + size rest

section Lines

variable {bytes line : Bytes} {pre post : List Bytes}

theorem lines_eq_cons (h : lines bytes = line :: post) :
    post = [] ∧ bytes = line ∨
      ∃ rest, bytes = line ++ newline :: rest ∧ lines rest = post := by
  by_cases hmem : newline ∈ bytes
  · right
    obtain ⟨first, rest, rfl, hfirst⟩ := List.eq_append_cons_of_mem hmem
    rw [lines_append_newline, lines_of_notMem hfirst] at h
    obtain ⟨rfl, hrest⟩ := List.cons.inj h
    exact ⟨rest, rfl, hrest⟩
  · left
    rw [lines_of_notMem hmem] at h
    obtain ⟨rfl, hrest⟩ := List.cons.inj h
    exact ⟨hrest.symm, rfl⟩

/-- A line is found after the bytes of those before it. -/
theorem lines_drop_size (h : lines bytes = pre ++ line :: post) :
    lines (bytes.drop (size pre)) = line :: post := by
  induction pre generalizing bytes with
  | nil => exact h
  | cons first pre ih =>
      rcases lines_eq_cons h with ⟨hnil, -⟩ | ⟨rest, rfl, hrest⟩
      · exact absurd hnil (List.append_ne_nil_of_right_ne_nil _ (List.cons_ne_nil _ _))
      · have hdrop : (first ++ newline :: rest).drop (size (first :: pre)) =
            rest.drop (size pre) := by
          rw [size, ← List.drop_drop, ← List.singleton_append, ← List.append_assoc]
          rw [List.drop_left' (by rw [List.length_append, List.length_singleton])]
        rw [hdrop]
        exact ih hrest

end Lines

/-! ## Well-formed input -/

namespace Decoder

/-- A continuation byte in the range of the decoder. -/
theorem run_inside_zero {range : Range} {point x : Nat} {rest : Bytes} (hx : x < 64)
    (hrange : range.lower ≤ 0x80 + x ∧ 0x80 + x ≤ range.upper) :
    (inside 0 range point).run (byte (0x80 + x) :: rest) =
      Char.ofNat (point * 64 + x) :: start.run rest := by
  rw [run, byte_toNat (by omega), next_of_mem hrange, advance, Nat.add_sub_cancel_left,
    List.singleton_append]

theorem run_inside_succ {further : Nat} {range : Range} {point x : Nat} {rest : Bytes}
    (hx : x < 64) (hrange : range.lower ≤ 0x80 + x ∧ 0x80 + x ≤ range.upper) :
    (inside (further + 1) range point).run (byte (0x80 + x) :: rest) =
      (inside further .any (point * 64 + x)).run rest := by
  rw [run, byte_toNat (by omega), next_of_mem hrange, advance, Nat.add_sub_cancel_left,
    List.nil_append]

theorem any_mem {x : Nat} (hx : x < 64) :
    Range.any.lower ≤ 0x80 + x ∧ 0x80 + x ≤ Range.any.upper := by
  simp only [Range.lower, Range.upper]
  omega

/-- What leads three bytes: the first six bits are not those of a shorter encoding or a
surrogate. -/
theorem lead_three (high : Nat) {x : Nat} (hhigh : high < 16) (hx : x < 64)
    (hlong : high = 0 → 0x20 ≤ x) (hsurrogate : high = 0xd → x < 0x20) :
    ∃ range : Range, lead (0xe0 + high) = ([], inside 1 range high) ∧
      range.lower ≤ 0x80 + x ∧ 0x80 + x ≤ range.upper := by
  by_cases hzero : high = 0
  · subst hzero
    have := hlong rfl
    refine ⟨.fromA0, rfl, ?_⟩
    simp only [Range.lower, Range.upper]
    omega
  by_cases hd : high = 0xd
  · subst hd
    have := hsurrogate rfl
    refine ⟨.to9F, rfl, ?_⟩
    simp only [Range.lower, Range.upper]
    omega
  · refine ⟨.any, ?_, any_mem hx⟩
    rw [lead, if_neg (by omega), if_neg (by omega), if_neg (by omega), if_neg (by omega),
      if_pos (by omega), Nat.add_sub_cancel_left]

/-- What leads four bytes: the code point is not that of a shorter encoding or too large. -/
theorem lead_four (high : Nat) {x : Nat} (hhigh : high < 5) (hx : x < 64)
    (hlong : high = 0 → 0x10 ≤ x) (hlarge : high = 4 → x < 0x10) :
    ∃ range : Range, lead (0xf0 + high) = ([], inside 2 range high) ∧
      range.lower ≤ 0x80 + x ∧ 0x80 + x ≤ range.upper := by
  by_cases hzero : high = 0
  · subst hzero
    have := hlong rfl
    refine ⟨.from90, rfl, ?_⟩
    simp only [Range.lower, Range.upper]
    omega
  by_cases hfour : high = 4
  · subst hfour
    have := hlarge rfl
    refine ⟨.to8F, rfl, ?_⟩
    simp only [Range.lower, Range.upper]
    omega
  · refine ⟨.any, ?_, any_mem hx⟩
    rw [lead, if_neg (by omega), if_neg (by omega), if_neg (by omega), if_neg (by omega),
      if_neg (by omega), if_neg (by omega), if_neg (by omega), if_pos (by omega),
      Nat.add_sub_cancel_left]

end Decoder

open Decoder in
/-- The encoding of a character is decoded to it, by the length of its sequence. -/
theorem run_utf8Char (c : Char) (rest : Bytes) :
    Decoder.start.run (utf8Char c ++ rest) = c :: Decoder.start.run rest := by
  have hlt := char_toNat_lt c
  have hvalid : c.toNat < 0xd800 ∨ 0xdfff < c.toNat := by
    have h := c.valid
    simp only [UInt32.isValidChar, Nat.isValidChar] at h
    rw [Char.toNat]
    omega
  have hchar : ∀ n, n = c.toNat → Char.ofNat n = c := by
    intro n heq
    rw [heq, Char.ofNat_toNat]
  rw [utf8Char]
  by_cases h1 : c.toNat < 0x80
  · simp only [h1, if_true]
    rw [List.singleton_append, run, byte_toNat (by omega)]
    rw [next, lead, if_pos h1, List.singleton_append, Char.ofNat_toNat]
  by_cases h2 : c.toNat < 0x800
  · simp only [h1, h2, if_true, if_false, List.cons_append, List.nil_append]
    have hlead : lead (0xc0 + c.toNat / 64) = ([], inside 0 .any (c.toNat / 64)) := by
      rw [lead, if_neg (by omega), if_pos (by omega), Nat.add_sub_cancel_left]
    rw [run, byte_toNat (by omega), next, hlead, List.nil_append,
      run_inside_zero (by omega) (any_mem (by omega)), hchar _ (by omega)]
  by_cases h3 : c.toNat < 0x10000
  · simp only [h1, h2, h3, if_true, if_false, List.cons_append, List.nil_append]
    have hx : c.toNat / 64 % 64 < 64 := by omega
    obtain ⟨range, hlead, hrange⟩ :=
      lead_three (c.toNat / 4096) (by omega) hx (by omega) (by omega)
    rw [run, byte_toNat (by omega), next, hlead, List.nil_append,
      run_inside_succ hx hrange, run_inside_zero (by omega) (any_mem (by omega)),
      hchar _ (by omega)]
  · simp only [h1, h2, h3, if_false, List.cons_append, List.nil_append]
    have hx : c.toNat / 4096 % 64 < 64 := by omega
    obtain ⟨range, hlead, hrange⟩ :=
      lead_four (c.toNat / 262144) (by omega) hx (by omega) (by omega)
    rw [run, byte_toNat (by omega), next, hlead, List.nil_append,
      run_inside_succ hx hrange, run_inside_succ (by omega) (any_mem (by omega)),
      run_inside_zero (by omega) (any_mem (by omega)), hchar _ (by omega)]

theorem decode_ofText (text : Text) : decode (ofText text) = text := by
  induction text with
  | nil => rfl
  | cons c text ih =>
      rw [ofText, List.flatMap_cons, ← ofText, decode, run_utf8Char, ← decode, ih]

theorem newline_notMem_utf8Char {c : Char} (hc : c ≠ '\n') : newline ∉ utf8Char c := by
  have hlt := char_toNat_lt c
  have hne : c.toNat ≠ 10 := fun heq => hc (Char.toNat_inj.mp heq)
  have byte_ne : ∀ n, n < 256 → n ≠ 10 → newline ≠ byte n := by
    intro n hn hten heq
    have hnat := congrArg UInt8.toNat heq
    rw [newline_toNat, byte_toNat hn] at hnat
    exact hten hnat.symm
  rw [utf8Char]
  split_ifs
  · simp only [List.mem_singleton]
    exact byte_ne _ (by omega) hne
  · simp only [List.mem_cons, List.not_mem_nil, or_false, not_or]
    exact ⟨byte_ne _ (by omega) (by omega), byte_ne _ (by omega) (by omega)⟩
  · simp only [List.mem_cons, List.not_mem_nil, or_false, not_or]
    exact ⟨byte_ne _ (by omega) (by omega), byte_ne _ (by omega) (by omega),
      byte_ne _ (by omega) (by omega)⟩
  · simp only [List.mem_cons, List.not_mem_nil, or_false, not_or]
    exact ⟨byte_ne _ (by omega) (by omega), byte_ne _ (by omega) (by omega),
      byte_ne _ (by omega) (by omega), byte_ne _ (by omega) (by omega)⟩

theorem newline_notMem_ofText {text : Text} (h : '\n' ∉ text) : newline ∉ ofText text := by
  intro hmem
  obtain ⟨c, hc, hbyte⟩ := List.mem_flatMap.mp hmem
  exact newline_notMem_utf8Char (fun heq => h (heq ▸ hc)) hbyte

/-- The lines of an encoded text are encoded texts. -/
theorem exists_ofText_of_mem_lines {text : Text} {line : Bytes} (h : line ∈ lines (ofText text)) :
    ∃ part, line = ofText part := by
  induction hlength : text.length using Nat.strong_induction_on generalizing text with
  | _ n ih =>
      by_cases hmem : '\n' ∈ text
      · obtain ⟨first, rest, rfl, hfirst⟩ := List.eq_append_cons_of_mem hmem
        have hbytes : ofText (first ++ '\n' :: rest) = ofText first ++ newline :: ofText rest := by
          rw [ofText_append]
          rfl
        rw [hbytes, lines_append_newline, lines_of_notMem (newline_notMem_ofText hfirst)] at h
        rcases List.mem_append.mp h with hline | hline
        · exact ⟨first, List.mem_singleton.mp hline⟩
        · refine ih rest.length ?_ hline rfl
          rw [← hlength, List.length_append, List.length_cons]
          omega
      · rw [lines_of_notMem (newline_notMem_ofText hmem)] at h
        exact ⟨text, List.mem_singleton.mp h⟩

end Bytes
