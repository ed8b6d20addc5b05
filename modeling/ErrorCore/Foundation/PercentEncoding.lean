import ErrorCore.Foundation.Utf8Decoding

/-!
# Percent encoding

A character is kept or written as the bytes of its UTF-8 encoding, each a `%`
with two hexadecimal digits. The lenient decoder leaves a `%` without its digits
as it is and the strict one fails there. Both give back what was encoded if no
`%` is kept.
-/

namespace Percent

/-- The digits of the encoders, which are upper case. -/
def hexDigit (n : Nat) : Char :=
  if n < 10 then Char.ofNat (48 + n) else Char.ofNat (55 + n)

def encodeByte (b : UInt8) : Text :=
  ['%', hexDigit (b.toNat / 16), hexDigit (b.toNat % 16)]

def encode (keep : Char → Bool) (text : Text) : Text :=
  text.flatMap fun c => if keep c then [c] else (Bytes.utf8Char c).flatMap encodeByte

/-- The byte of two hexadecimal digits. -/
def pair? (a b : Char) : Option UInt8 :=
  match Json.hexValue a, Json.hexValue b with
  | some x, some y => some (Bytes.byte (x * 16 + y))
  | _, _ => none

def decode : Text → Bytes
  | '%' :: a :: b :: rest =>
      match pair? a b with
      | some byte => byte :: decode rest
      | none => Bytes.utf8Char '%' ++ decode (a :: b :: rest)
  | c :: rest => Bytes.utf8Char c ++ decode rest
  | [] => []

def decodeStrict : Text → Option Bytes
  | '%' :: a :: b :: rest =>
      match pair? a b with
      | some byte => (decodeStrict rest).map (byte :: ·)
      | none => none
  | c :: rest =>
      if c = '%' then none else (decodeStrict rest).map (Bytes.utf8Char c ++ ·)
  | [] => some []

section Encode

variable {keep : Char → Bool} {c : Char} {text rest : Text}

theorem hexValue_hexDigit : ∀ n, n < 16 → Json.hexValue (hexDigit n) = some n := by decide

theorem pair?_encodeByte (b : UInt8) :
    pair? (hexDigit (b.toNat / 16)) (hexDigit (b.toNat % 16)) = some b := by
  have hb : b.toNat < 256 := b.toNat_lt
  rw [pair?, hexValue_hexDigit _ (by omega), hexValue_hexDigit _ (by omega)]
  exact congrArg some (Bytes.byte_eq (by omega))

theorem decode_cons_of_ne (h : c ≠ '%') (rest : Text) :
    decode (c :: rest) = Bytes.utf8Char c ++ decode rest := by
  rw [decode]
  intro a b rest' hcons
  exact absurd hcons h

theorem decode_encodeByte (b : UInt8) (rest : Text) :
    decode (encodeByte b ++ rest) = b :: decode rest := by
  rw [encodeByte, List.cons_append, List.cons_append, List.cons_append, List.nil_append, decode,
    pair?_encodeByte]

theorem decode_encodeBytes (bytes : Bytes) (rest : Text) :
    decode (bytes.flatMap encodeByte ++ rest) = bytes ++ decode rest := by
  induction bytes with
  | nil => rfl
  | cons b bytes ih =>
      rw [List.flatMap_cons, List.append_assoc, decode_encodeByte, ih, List.cons_append]

theorem decode_encode (hkeep : keep '%' = false) (text : Text) :
    decode (encode keep text) = Bytes.ofText text := by
  induction text with
  | nil => rfl
  | cons c text ih =>
      rw [encode, List.flatMap_cons, ← encode, Bytes.ofText, List.flatMap_cons, ← Bytes.ofText]
      by_cases hc : keep c = true
      · have hne : c ≠ '%' := by
          rintro rfl
          exact Bool.false_ne_true (hkeep.symm.trans hc)
        rw [if_pos hc, List.singleton_append, decode_cons_of_ne hne, ih]
      · rw [if_neg hc, decode_encodeBytes, ih]

/-- The characters of an encoded text. -/
theorem mem_encode (h : c ∈ encode keep text) :
    keep c = true ∧ c ∈ text ∨ c = '%' ∨ ∃ n < 16, c = hexDigit n := by
  obtain ⟨d, hd, hc⟩ := List.mem_flatMap.mp h
  by_cases hkeep : keep d = true
  · rw [if_pos hkeep] at hc
    obtain rfl := List.mem_singleton.mp hc
    exact .inl ⟨hkeep, hd⟩
  · rw [if_neg hkeep] at hc
    obtain ⟨b, -, hc⟩ := List.mem_flatMap.mp hc
    have hb : b.toNat < 256 := b.toNat_lt
    simp only [encodeByte, List.mem_cons, List.not_mem_nil, or_false] at hc
    rcases hc with rfl | rfl | rfl
    · exact .inr (.inl rfl)
    · exact .inr (.inr ⟨_, by omega, rfl⟩)
    · exact .inr (.inr ⟨_, by omega, rfl⟩)

theorem hexDigit_notMem {separator : Char} (h : separator ∉ "%0123456789ABCDEF".toList) :
    separator ≠ '%' ∧ ∀ n < 16, separator ≠ hexDigit n := by
  have hdigits : ∀ n, n < 16 → hexDigit n ∈ "%0123456789ABCDEF".toList := by decide
  refine ⟨?_, ?_⟩
  · rintro rfl
    exact h (by decide)
  · rintro n hn rfl
    exact h (hdigits n hn)

/-- A separator that is not kept does not occur. -/
theorem notMem_encode {separator : Char} (h : separator ∉ "%0123456789ABCDEF".toList)
    (hkeep : keep separator = false) (text : Text) : separator ∉ encode keep text := by
  obtain ⟨hpercent, hdigit⟩ := hexDigit_notMem h
  intro hmem
  rcases mem_encode hmem with ⟨hkept, -⟩ | heq | ⟨n, hn, heq⟩
  · exact Bool.false_ne_true (hkeep.symm.trans hkept)
  · exact hpercent heq
  · exact hdigit n hn heq

end Encode

end Percent
