import Mathlib.Data.List.Basic
import Mathlib.Tactic.Ring
import ErrorCore.Foundation.Json

/-!
# Bytes and their texts

`Buffer.from(text, encoding)` and `buffer.toString(encoding)` for UTF-8, base64
and hex, with the round trips. Decoding UTF-8 is partial here: what the runtime
shows for bytes that are not well formed is left to the caller.

`Buffer.from(text, 'base64')` never fails. It takes both alphabets and skips
every character that is in neither.
-/

abbrev Bytes := List UInt8

namespace Bytes

/-- The byte with the value `n`. -/
abbrev byte (n : Nat) : UInt8 := UInt8.ofNat n

theorem byte_toNat {n : Nat} (h : n < 256) : (byte n).toNat = n :=
  UInt8.toNat_ofNat_of_lt' h

/-- A number as so many bytes, the most significant one first. -/
def bigEndian : Nat → Nat → Bytes
  | 0, _ => []
  | count + 1, n => byte (n / 256 ^ count % 256) :: bigEndian count n

/-! ## UTF-8 -/

def utf8Char (c : Char) : Bytes :=
  let n := c.toNat
  if n < 0x80 then [byte n]
  else if n < 0x800 then [byte (0xc0 + n / 64), byte (0x80 + n % 64)]
  else if n < 0x10000 then
    [byte (0xe0 + n / 4096), byte (0x80 + n / 64 % 64), byte (0x80 + n % 64)]
  else
    [byte (0xf0 + n / 262144), byte (0x80 + n / 4096 % 64), byte (0x80 + n / 64 % 64),
      byte (0x80 + n % 64)]

/-- `Buffer.from(text, 'utf8')`. -/
def ofText (text : Text) : Bytes := text.flatMap utf8Char

/-- The six bits of a continuation byte. -/
def continuation? (b : UInt8) : Option Nat :=
  if 0x80 ≤ b.toNat ∧ b.toNat < 0xc0 then some (b.toNat - 0x80) else none

/-- The character of a code point, unless its encoding was too long. -/
def scalar? (least n : Nat) : Option Char :=
  if least ≤ n ∧ n.isValidChar then some (Char.ofNat n) else none

/-- The text that the bytes are the UTF-8 encoding of. -/
def toText? : Bytes → Option Text
  | [] => some []
  | b :: rest =>
      let lead := b.toNat
      if lead < 0x80 then (toText? rest).map (Char.ofNat lead :: ·)
      else
        match rest with
        | [] => none
        | b1 :: rest =>
            if 0xc0 ≤ lead ∧ lead < 0xe0 then do
              let x1 ← continuation? b1
              let c ← scalar? 0x80 ((lead - 0xc0) * 64 + x1)
              (toText? rest).map (c :: ·)
            else
              match rest with
              | [] => none
              | b2 :: rest =>
                  if 0xe0 ≤ lead ∧ lead < 0xf0 then do
                    let x1 ← continuation? b1
                    let x2 ← continuation? b2
                    let c ← scalar? 0x800 ((lead - 0xe0) * 4096 + x1 * 64 + x2)
                    (toText? rest).map (c :: ·)
                  else
                    match rest with
                    | [] => none
                    | b3 :: rest =>
                        if 0xf0 ≤ lead then do
                          let x1 ← continuation? b1
                          let x2 ← continuation? b2
                          let x3 ← continuation? b3
                          let c ←
                            scalar? 0x10000 ((lead - 0xf0) * 262144 + x1 * 4096 + x2 * 64 + x3)
                          (toText? rest).map (c :: ·)
                        else none

theorem continuation?_byte (n : Nat) : continuation? (byte (0x80 + n % 64)) = some (n % 64) := by
  have hlt : n % 64 < 64 := Nat.mod_lt _ (by decide)
  rw [continuation?, byte_toNat (by omega), if_pos (by omega), Nat.add_sub_cancel_left]

theorem scalar?_toNat (c : Char) {least : Nat} (h : least ≤ c.toNat) :
    scalar? least c.toNat = some c := by
  rw [scalar?, if_pos ⟨h, c.valid⟩, Char.ofNat_toNat]

theorem char_toNat_lt (c : Char) : c.toNat < 0x110000 := by
  have h := c.valid
  simp only [UInt32.isValidChar, Nat.isValidChar] at h
  rw [Char.toNat]
  omega

section Sequences

variable {b b1 b2 b3 : UInt8} {x1 x2 x3 : Nat} {c : Char} {rest : Bytes}

theorem toText?_one (hb : b.toNat < 0x80) (hc : Char.ofNat b.toNat = c) :
    toText? (b :: rest) = (toText? rest).map (c :: ·) := by
  rw [toText?.eq_def]
  simp only [hb, if_true, hc]

theorem toText?_two (hb : 0xc0 ≤ b.toNat) (hb' : b.toNat < 0xe0) (h1 : continuation? b1 = some x1)
    (hc : scalar? 0x80 ((b.toNat - 0xc0) * 64 + x1) = some c) :
    toText? (b :: b1 :: rest) = (toText? rest).map (c :: ·) := by
  have hlead : ¬ b.toNat < 0x80 := by omega
  rw [toText?.eq_def]
  simp only [hlead, hb, hb', and_self, if_true, if_false, Option.bind_eq_bind]
  rw [h1, Option.bind_some, hc, Option.bind_some]

theorem toText?_three (hb : 0xe0 ≤ b.toNat) (hb' : b.toNat < 0xf0)
    (h1 : continuation? b1 = some x1) (h2 : continuation? b2 = some x2)
    (hc : scalar? 0x800 ((b.toNat - 0xe0) * 4096 + x1 * 64 + x2) = some c) :
    toText? (b :: b1 :: b2 :: rest) = (toText? rest).map (c :: ·) := by
  have hlead : ¬ b.toNat < 0x80 := by omega
  have htwo : ¬ (0xc0 ≤ b.toNat ∧ b.toNat < 0xe0) := by omega
  rw [toText?.eq_def]
  simp only [hlead, htwo, hb, hb', and_self, if_true, if_false, Option.bind_eq_bind]
  rw [h1, Option.bind_some, h2, Option.bind_some, hc, Option.bind_some]

theorem toText?_four (hb : 0xf0 ≤ b.toNat) (h1 : continuation? b1 = some x1)
    (h2 : continuation? b2 = some x2) (h3 : continuation? b3 = some x3)
    (hc : scalar? 0x10000 ((b.toNat - 0xf0) * 262144 + x1 * 4096 + x2 * 64 + x3) = some c) :
    toText? (b :: b1 :: b2 :: b3 :: rest) = (toText? rest).map (c :: ·) := by
  have hlead : ¬ b.toNat < 0x80 := by omega
  have htwo : ¬ (0xc0 ≤ b.toNat ∧ b.toNat < 0xe0) := by omega
  have hthree : ¬ (0xe0 ≤ b.toNat ∧ b.toNat < 0xf0) := by omega
  rw [toText?.eq_def]
  simp only [hlead, htwo, hthree, hb, if_true, if_false, Option.bind_eq_bind]
  rw [h1, Option.bind_some, h2, Option.bind_some, h3, Option.bind_some, hc, Option.bind_some]

end Sequences

/-- The first character of an encoding is read back, by the length of its sequence. -/
theorem toText?_utf8Char (c : Char) (rest : Bytes) :
    toText? (utf8Char c ++ rest) = (toText? rest).map (c :: ·) := by
  have hlt := char_toNat_lt c
  have hscalar : ∀ least n, n = c.toNat → least ≤ c.toNat → scalar? least n = some c := by
    intro least n heq hle
    rw [heq]
    exact scalar?_toNat c hle
  rw [utf8Char]
  by_cases h1 : c.toNat < 0x80
  · simp only [h1, if_true]
    have hlead : (byte c.toNat).toNat = c.toNat := byte_toNat (by omega)
    exact toText?_one (by omega) (by rw [hlead, Char.ofNat_toNat])
  by_cases h2 : c.toNat < 0x800
  · simp only [h1, h2, if_true, if_false]
    have hlead : (byte (0xc0 + c.toNat / 64)).toNat = 0xc0 + c.toNat / 64 :=
      byte_toNat (by omega)
    refine toText?_two (by omega) (by omega) (continuation?_byte _) ?_
    exact hscalar 0x80 _ (by omega) (by omega)
  by_cases h3 : c.toNat < 0x10000
  · simp only [h1, h2, h3, if_true, if_false]
    have hlead : (byte (0xe0 + c.toNat / 4096)).toNat = 0xe0 + c.toNat / 4096 :=
      byte_toNat (by omega)
    refine toText?_three (by omega) (by omega) (continuation?_byte _) (continuation?_byte _) ?_
    exact hscalar 0x800 _ (by omega) (by omega)
  · simp only [h1, h2, h3, if_false]
    have hlead : (byte (0xf0 + c.toNat / 262144)).toNat = 0xf0 + c.toNat / 262144 :=
      byte_toNat (by omega)
    refine toText?_four (by omega) (continuation?_byte _) (continuation?_byte _)
      (continuation?_byte _) ?_
    exact hscalar 0x10000 _ (by omega) (by omega)

/-- Reading UTF-8 undoes writing it. -/
theorem toText?_ofText (text : Text) : toText? (ofText text) = some text := by
  induction text with
  | nil => rfl
  | cons c text ih =>
      rw [ofText, List.flatMap_cons, toText?_utf8Char, ← ofText, ih]
      rfl

theorem ofText_injective {a b : Text} (h : ofText a = ofText b) : a = b := by
  have hread := congrArg toText? h
  rw [toText?_ofText, toText?_ofText] at hread
  exact Option.some.inj hread

@[simp] theorem ofText_append (a b : Text) : ofText (a ++ b) = ofText a ++ ofText b := by
  rw [ofText, List.flatMap_append]
  rfl

theorem length_utf8Char (c : Char) : (utf8Char c).length = c.utf8Size := by
  have hval : c.val.toNat = c.toNat := rfl
  simp only [Char.utf8Size, UInt32.le_iff_toNat_le, hval, UInt32.toNat_ofNatLT]
  rw [utf8Char]
  by_cases h1 : c.toNat < 0x80
  · rw [if_pos h1, if_pos (Nat.le_of_lt_succ h1)]
    rfl
  rw [if_neg h1, if_neg fun h => h1 (Nat.lt_succ_of_le h)]
  by_cases h2 : c.toNat < 0x800
  · rw [if_pos h2, if_pos (Nat.le_of_lt_succ h2)]
    rfl
  rw [if_neg h2, if_neg fun h => h2 (Nat.lt_succ_of_le h)]
  by_cases h3 : c.toNat < 0x10000
  · rw [if_pos h3, if_pos (Nat.le_of_lt_succ h3)]
    rfl
  · rw [if_neg h3, if_neg fun h => h3 (Nat.lt_succ_of_le h)]
    rfl

theorem length_ofText (text : Text) : (ofText text).length = Text.byteLength text := by
  induction text with
  | nil => rfl
  | cons c text ih =>
      rw [ofText, List.flatMap_cons, List.length_append, length_utf8Char, ← ofText, ih,
        Text.byteLength_cons]

/-! ## Hex -/

/-- `bytes.toString('hex')`. -/
def toHex (bytes : Bytes) : Text :=
  bytes.flatMap fun b => [Json.hexDigit (b.toNat / 16), Json.hexDigit (b.toNat % 16)]

/-- `/^[0-9a-f]*$/i`. -/
def isHex (text : Text) : Bool := text.all fun c => (Json.hexValue c).isSome

/-- `Buffer.from(text, 'hex')`, which stops at the first pair that is not hex. -/
def ofHex : Text → Bytes
  | high :: low :: rest =>
      match Json.hexValue high, Json.hexValue low with
      | some h, some l => byte (h * 16 + l) :: ofHex rest
      | _, _ => []
  | _ => []

/-! ## Base64 -/

/-- The character for six bits. -/
def base64Char (n : Nat) : Char :=
  if n < 26 then Char.ofNat (65 + n)
  else if n < 52 then Char.ofNat (71 + n)
  else if n < 62 then Char.ofNat (n - 4)
  else if n = 62 then '+'
  else '/'

/-- `bytes.toString('base64')`. -/
def toBase64 : Bytes → Text
  | [] => []
  | [a] => [base64Char (a.toNat / 4), base64Char (a.toNat % 4 * 16), '=', '=']
  | [a, b] =>
      [base64Char (a.toNat / 4), base64Char (a.toNat % 4 * 16 + b.toNat / 16),
        base64Char (b.toNat % 16 * 4), '=']
  | a :: b :: c :: rest =>
      base64Char (a.toNat / 4) :: base64Char (a.toNat % 4 * 16 + b.toNat / 16) ::
        base64Char (b.toNat % 16 * 4 + c.toNat / 64) :: base64Char (c.toNat % 64) :: toBase64 rest

def base64Value? (c : Char) : Option Nat :=
  if 'A' ≤ c ∧ c ≤ 'Z' then some (c.toNat - 65)
  else if 'a' ≤ c ∧ c ≤ 'z' then some (c.toNat - 71)
  else if '0' ≤ c ∧ c ≤ '9' then some (c.toNat + 4)
  else if c = '+' ∨ c = '-' then some 62
  else if c = '/' ∨ c = '_' then some 63
  else none

/-- The bytes of groups of six bits; bits left over at the end are dropped. -/
def ofSextets : List Nat → Bytes
  | a :: b :: c :: d :: rest =>
      byte (a * 4 + b / 16) :: byte (b % 16 * 16 + c / 4) :: byte (c % 4 * 64 + d) :: ofSextets rest
  | [a, b, c] => [byte (a * 4 + b / 16), byte (b % 16 * 16 + c / 4)]
  | [a, b] => [byte (a * 4 + b / 16)]
  | _ => []

/-- `Buffer.from(text, 'base64')`. -/
def ofBase64 (text : Text) : Bytes := ofSextets (text.filterMap base64Value?)

theorem base64Value?_base64Char : ∀ n, n < 64 → base64Value? (base64Char n) = some n := by decide

theorem base64Value?_pad : base64Value? '=' = none := by decide

theorem byte_eq {b : UInt8} {n : Nat} (h : n = b.toNat) : byte n = b := by
  rw [h]
  exact UInt8.ofNat_toNat

/-- Reading base64 undoes writing it. -/
theorem ofBase64_toBase64 (bytes : Bytes) : ofBase64 (toBase64 bytes) = bytes := by
  induction bytes using toBase64.induct with
  | case1 => rfl
  | case2 a =>
      have ha := a.toNat_lt
      simp only [ofBase64, toBase64, List.filterMap_cons, List.filterMap_nil,
        base64Value?_base64Char _ (show a.toNat / 4 < 64 by omega),
        base64Value?_base64Char _ (show a.toNat % 4 * 16 < 64 by omega), base64Value?_pad,
        ofSextets]
      rw [byte_eq (show _ = a.toNat by omega)]
  | case3 a b =>
      have ha := a.toNat_lt
      have hb := b.toNat_lt
      simp only [ofBase64, toBase64, List.filterMap_cons, List.filterMap_nil,
        base64Value?_base64Char _ (show a.toNat / 4 < 64 by omega),
        base64Value?_base64Char _ (show a.toNat % 4 * 16 + b.toNat / 16 < 64 by omega),
        base64Value?_base64Char _ (show b.toNat % 16 * 4 < 64 by omega), base64Value?_pad,
        ofSextets]
      rw [byte_eq (show _ = a.toNat by omega), byte_eq (show _ = b.toNat by omega)]
  | case4 a b c rest ih =>
      have ha := a.toNat_lt
      have hb := b.toNat_lt
      have hc := c.toNat_lt
      simp only [ofBase64, toBase64, List.filterMap_cons,
        base64Value?_base64Char _ (show a.toNat / 4 < 64 by omega),
        base64Value?_base64Char _ (show a.toNat % 4 * 16 + b.toNat / 16 < 64 by omega),
        base64Value?_base64Char _ (show b.toNat % 16 * 4 + c.toNat / 64 < 64 by omega),
        base64Value?_base64Char _ (show c.toNat % 64 < 64 by omega), ofSextets]
      rw [byte_eq (show _ = a.toNat by omega), byte_eq (show _ = b.toNat by omega),
        byte_eq (show _ = c.toNat by omega), ← ofBase64, ih]

/-- Three bytes take four characters, and a last incomplete group is padded. -/
theorem length_toBase64 (bytes : Bytes) :
    (toBase64 bytes).length = 4 * ((bytes.length + 2) / 3) := by
  induction bytes using toBase64.induct with
  | case1 => rfl
  | case2 a => simp [toBase64]
  | case3 a b => simp [toBase64]
  | case4 a b c rest ih =>
      simp only [toBase64, List.length_cons, ih]
      omega

end Bytes
