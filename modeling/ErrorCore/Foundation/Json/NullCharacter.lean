import ErrorCore.Foundation.Json
import Mathlib.Tactic.SplitIfs

/-!
# JSON texts without a NUL

No JSON text holds the character U+0000: it is no white space, and inside the
quotes it has to be escaped. Each reader leaves a NUL that is ahead of it in
what follows.
-/

namespace Json

def nul : Char := '\x00'

/-- A NUL of the input is still ahead. -/
def Leaves (input rest : Text) : Prop := nul ∈ input → nul ∈ rest

section Leaves

variable {input middle rest : Text} {c : Char}

theorem Leaves.refl : Leaves input input := id

theorem Leaves.trans (first : Leaves input middle) (second : Leaves middle rest) :
    Leaves input rest :=
  second ∘ first

theorem leaves_cons (hc : nul ≠ c) (h : Leaves input rest) : Leaves (c :: input) rest := by
  intro hmem
  rcases List.mem_cons.mp hmem with heq | hmem
  · exact absurd heq hc
  · exact h hmem

theorem leaves_dropWhile {p : Char → Bool} (hp : p nul = false) :
    Leaves input (input.dropWhile p) := by
  induction input with
  | nil => exact Leaves.refl
  | cons c input ih =>
      rw [List.dropWhile_cons]
      split
      · next hc =>
          refine leaves_cons ?_ ih
          rintro rfl
          rw [hp] at hc
          cases hc
      · exact Leaves.refl

theorem leaves_skipWhitespace : Leaves input (skipWhitespace input) := by
  induction input with
  | nil => exact Leaves.refl
  | cons c input ih =>
      rw [skipWhitespace]
      split
      · next hspace =>
          refine leaves_cons ?_ ih
          rintro rfl
          revert hspace
          decide
      · exact Leaves.refl

theorem leaves_takeDigits : Leaves input (takeDigits input).2 :=
  leaves_dropWhile rfl

end Leaves

/-! ## Strings -/

theorem nul_ne_of_hexValue {c : Char} {n : Nat} (h : hexValue c = some n) : nul ≠ c := by
  rintro rfl
  cases h

theorem leaves_hexUnit {a b c d : Char} {n : Nat} {rest : Text} (h : hexUnit a b c d = some n) :
    Leaves (a :: b :: c :: d :: rest) rest := by
  unfold hexUnit at h
  simp only [Option.bind_eq_bind, Option.bind_eq_some_iff] at h
  obtain ⟨_, ha, _, hb, _, hc, _, hd, -⟩ := h
  exact leaves_cons (nul_ne_of_hexValue ha) (leaves_cons (nul_ne_of_hexValue hb)
    (leaves_cons (nul_ne_of_hexValue hc) (leaves_cons (nul_ne_of_hexValue hd) Leaves.refl)))

theorem nul_ne_of_unescape {e char : Char} (h : unescape e = some char) : nul ≠ e := by
  rintro rfl
  cases h

theorem leaves_parsePieces {input rest : Text} {pieces : List Piece}
    (h : parsePieces input = some (pieces, rest)) : Leaves input rest := by
  induction input using parsePieces.induct generalizing pieces rest with
  | case1 => cases h
  | case2 tail =>
      rw [parsePieces.eq_def] at h
      simp only [if_true, Option.some.injEq, Prod.mk.injEq] at h
      exact h.2 ▸ leaves_cons (by decide) Leaves.refl
  | case3 => cases h
  | case4 a b c d tail n inner after hrest hunit hne ih =>
      rw [parsePieces.eq_def] at h
      simp only [hne, hunit, hrest, if_true, if_false, Option.some.injEq, Prod.mk.injEq] at h
      exact leaves_cons (by decide) (leaves_cons (by decide)
        ((leaves_hexUnit hunit).trans (h.2 ▸ ih hrest)))
  | case5 a b c d tail hnone hne ih =>
      rw [parsePieces.eq_def] at h
      simp only [hne, if_true, if_false] at h
      cases h
  | case6 tail hshort hne =>
      rw [parsePieces.eq_def] at h
      simp only [hne, if_true, if_false] at h
      cases h
  | case7 e tail hu char inner after hrest hunescape hne ih =>
      rw [parsePieces.eq_def] at h
      simp only [hne, hu, hunescape, hrest, if_true, if_false, Option.some.injEq,
        Prod.mk.injEq] at h
      exact leaves_cons (by decide)
        (leaves_cons (nul_ne_of_unescape hunescape) (h.2 ▸ ih hrest))
  | case8 e tail hu hnone hne ih =>
      rw [parsePieces.eq_def] at h
      simp only [hne, hu, if_true, if_false] at h
      cases h
  | case9 c tail hquote hslash hcontrol =>
      rw [parsePieces.eq_def] at h
      simp only [hquote, hslash, hcontrol, if_true, if_false] at h
      cases h
  | case10 c tail hquote hslash hcontrol inner after hrest ih =>
      rw [parsePieces.eq_def] at h
      simp only [hquote, hslash, hcontrol, hrest, if_false, Option.some.injEq,
        Prod.mk.injEq] at h
      refine leaves_cons ?_ (h.2 ▸ ih hrest)
      rintro rfl
      exact hcontrol (by decide)
  | case11 c tail hquote hslash hcontrol hrest ih =>
      rw [parsePieces.eq_def] at h
      simp only [hquote, hslash, hcontrol, hrest, if_false] at h
      cases h

theorem leaves_parseStringBody {input text rest : Text}
    (h : parseStringBody input = some (text, rest)) : Leaves input rest := by
  obtain ⟨⟨pieces, after⟩, hpieces, heq⟩ := Option.map_eq_some_iff.mp h
  obtain ⟨-, rfl⟩ := Prod.mk.inj heq
  exact leaves_parsePieces hpieces

/-! ## Numbers -/

theorem leaves_of_takeDigits {input digits rest : Text} (h : takeDigits input = (digits, rest)) :
    Leaves input rest := by
  have hrest : (takeDigits input).2 = rest := congrArg Prod.snd h
  exact hrest ▸ leaves_takeDigits

theorem leaves_parseIntegerPart {input text rest : Text}
    (h : parseIntegerPart input = some (text, rest)) : Leaves input rest := by
  unfold parseIntegerPart at h
  split at h
  · obtain ⟨-, rfl⟩ := Prod.mk.inj (Option.some.inj h)
    exact leaves_cons (by decide) Leaves.refl
  · split at h
    · cases h
    · exact leaves_of_takeDigits (Option.some.inj h)

theorem leaves_parseFraction {input text rest : Text}
    (h : parseFraction input = some (text, rest)) : Leaves input rest := by
  unfold parseFraction at h
  split at h
  · split at h
    · cases h
    · next digits after _ hdigits =>
        obtain ⟨-, rfl⟩ := Prod.mk.inj (Option.some.inj h)
        exact leaves_cons (by decide) (leaves_of_takeDigits hdigits)
  · obtain ⟨-, rfl⟩ := Prod.mk.inj (Option.some.inj h)
    exact Leaves.refl

theorem leaves_parseExponentDigits {mark input text rest : Text}
    (h : parseExponentDigits mark input = some (text, rest)) : Leaves input rest := by
  unfold parseExponentDigits at h
  split at h
  · cases h
  · next hdigits =>
      obtain ⟨-, rfl⟩ := Prod.mk.inj (Option.some.inj h)
      exact leaves_of_takeDigits hdigits

theorem leaves_parseExponent {input text rest : Text}
    (h : parseExponent input = some (text, rest)) : Leaves input rest := by
  unfold parseExponent at h
  split at h
  case h_7 =>
    obtain ⟨-, rfl⟩ := Prod.mk.inj (Option.some.inj h)
    exact Leaves.refl
  case h_5 | h_6 => exact leaves_cons (by decide) (leaves_parseExponentDigits h)
  all_goals
    exact leaves_cons (by decide) (leaves_cons (by decide) (leaves_parseExponentDigits h))

theorem leaves_parseUnsignedNumber {input text rest : Text}
    (h : parseUnsignedNumber input = some (text, rest)) : Leaves input rest := by
  unfold parseUnsignedNumber at h
  simp only [Option.bind_eq_bind, Option.bind_eq_some_iff] at h
  obtain ⟨⟨whole, rest₁⟩, hwhole, ⟨fraction, rest₂⟩, hfraction, ⟨exponent, rest₃⟩, hexponent,
    heq⟩ := h
  obtain ⟨-, rfl⟩ := Prod.mk.inj (Option.some.inj heq)
  exact ((leaves_parseIntegerPart hwhole).trans (leaves_parseFraction hfraction)).trans
    (leaves_parseExponent hexponent)

theorem leaves_parseNumber {input text rest : Text}
    (h : parseNumber input = some (text, rest)) : Leaves input rest := by
  unfold parseNumber at h
  split at h
  · obtain ⟨⟨digits, after⟩, hdigits, heq⟩ := Option.map_eq_some_iff.mp h
    obtain ⟨-, rfl⟩ := Prod.mk.inj heq
    exact leaves_cons (by decide) (leaves_parseUnsignedNumber hdigits)
  · exact leaves_parseUnsignedNumber h

/-! ## Values -/

section Values

variable {formatNumber : Text → Text}

/-- What is left after white space leaves what was there before. -/
theorem leaves_of_skipWhitespace {input found rest : Text} (h : skipWhitespace input = found)
    (hrest : Leaves found rest) : Leaves input rest :=
  (h ▸ leaves_skipWhitespace).trans hrest

/-- The claim about each of the readers that share a fuel. -/
def ValuesLeave (formatNumber : Text → Text) (fuel : Nat) : Prop :=
  ∀ input value rest, parseValue formatNumber fuel input = some (value, rest) → Leaves input rest

def ItemsLeave (formatNumber : Text → Text) (fuel : Nat) : Prop :=
  ∀ input items rest, parseItems formatNumber fuel input = some (items, rest) → Leaves input rest

def FieldsLeave (formatNumber : Text → Text) (fuel : Nat) : Prop :=
  ∀ input seen fields rest, parseFields formatNumber fuel seen input = some (fields, rest) →
    Leaves input rest

variable {fuel : Nat}

theorem valuesLeave_succ (items : ItemsLeave formatNumber fuel)
    (fields : FieldsLeave formatNumber fuel) : ValuesLeave formatNumber (fuel + 1) := by
  intro input value rest h
  rw [parseValue] at h
  split at h
  · next found hstart =>
      obtain ⟨-, rfl⟩ := Prod.mk.inj (Option.some.inj h)
      exact leaves_of_skipWhitespace hstart (leaves_cons (by decide) (leaves_cons (by decide)
        (leaves_cons (by decide) (leaves_cons (by decide) Leaves.refl))))
  · next found hstart =>
      obtain ⟨-, rfl⟩ := Prod.mk.inj (Option.some.inj h)
      exact leaves_of_skipWhitespace hstart (leaves_cons (by decide) (leaves_cons (by decide)
        (leaves_cons (by decide) (leaves_cons (by decide) Leaves.refl))))
  · next found hstart =>
      obtain ⟨-, rfl⟩ := Prod.mk.inj (Option.some.inj h)
      exact leaves_of_skipWhitespace hstart (leaves_cons (by decide) (leaves_cons (by decide)
        (leaves_cons (by decide) (leaves_cons (by decide) (leaves_cons (by decide)
          Leaves.refl)))))
  · next body hstart =>
      obtain ⟨⟨text, after⟩, hbody, heq⟩ := Option.map_eq_some_iff.mp h
      obtain ⟨-, rfl⟩ := Prod.mk.inj heq
      exact leaves_of_skipWhitespace hstart
        (leaves_cons (by decide) (leaves_parseStringBody hbody))
  · next body hstart =>
      refine leaves_of_skipWhitespace hstart (leaves_cons (by decide) ?_)
      split at h
      · next after hclose =>
          obtain ⟨-, rfl⟩ := Prod.mk.inj (Option.some.inj h)
          exact leaves_of_skipWhitespace hclose (leaves_cons (by decide) Leaves.refl)
      · obtain ⟨⟨found, after⟩, hitems, heq⟩ := Option.map_eq_some_iff.mp h
        obtain ⟨-, rfl⟩ := Prod.mk.inj heq
        exact items _ _ _ hitems
  · next body hstart =>
      refine leaves_of_skipWhitespace hstart (leaves_cons (by decide) ?_)
      split at h
      · next after hclose =>
          obtain ⟨-, rfl⟩ := Prod.mk.inj (Option.some.inj h)
          exact leaves_of_skipWhitespace hclose (leaves_cons (by decide) Leaves.refl)
      · obtain ⟨⟨found, after⟩, hfields, heq⟩ := Option.map_eq_some_iff.mp h
        obtain ⟨-, rfl⟩ := Prod.mk.inj heq
        exact fields _ _ _ _ hfields
  · obtain ⟨⟨text, after⟩, hnumber, heq⟩ := Option.map_eq_some_iff.mp h
    obtain ⟨-, rfl⟩ := Prod.mk.inj heq
    exact leaves_skipWhitespace.trans (leaves_parseNumber hnumber)

theorem itemsLeave_succ (values : ValuesLeave formatNumber fuel)
    (items : ItemsLeave formatNumber fuel) : ItemsLeave formatNumber (fuel + 1) := by
  intro input found rest h
  rw [parseItems] at h
  split at h
  · cases h
  · next item after hitem =>
      refine (values _ _ _ hitem).trans ?_
      split at h
      · next more hskip =>
          obtain ⟨⟨others, last⟩, hitems, heq⟩ := Option.map_eq_some_iff.mp h
          obtain ⟨-, rfl⟩ := Prod.mk.inj heq
          exact leaves_of_skipWhitespace hskip (leaves_cons (by decide) (items _ _ _ hitems))
      · next last hskip =>
          obtain ⟨-, rfl⟩ := Prod.mk.inj (Option.some.inj h)
          exact leaves_of_skipWhitespace hskip (leaves_cons (by decide) Leaves.refl)
      · cases h

theorem fieldsLeave_succ (values : ValuesLeave formatNumber fuel)
    (fields : FieldsLeave formatNumber fuel) : FieldsLeave formatNumber (fuel + 1) := by
  intro input seen found rest h
  rw [parseFields] at h
  split at h
  · next body hquote =>
      refine leaves_of_skipWhitespace hquote (leaves_cons (by decide) ?_)
      split at h
      · cases h
      · next name after hname =>
          refine (leaves_parseStringBody hname).trans ?_
          split at h
          · next tail hcolon =>
              refine leaves_of_skipWhitespace hcolon (leaves_cons (by decide) ?_)
              split at h
              · cases h
              · next value after' hvalue =>
                  refine (values _ _ _ hvalue).trans ?_
                  split at h
                  · next more hskip =>
                      exact leaves_of_skipWhitespace hskip
                        (leaves_cons (by decide) (fields _ _ _ _ h))
                  · next last hskip =>
                      obtain ⟨-, rfl⟩ := Prod.mk.inj (Option.some.inj h)
                      exact leaves_of_skipWhitespace hskip (leaves_cons (by decide) Leaves.refl)
                  · cases h
          · cases h
  · cases h

theorem leaves_parse (fuel : Nat) :
    ValuesLeave formatNumber fuel ∧ ItemsLeave formatNumber fuel ∧
      FieldsLeave formatNumber fuel := by
  induction fuel with
  | zero =>
      refine ⟨fun _ _ _ h => ?_, fun _ _ _ h => ?_, fun _ _ _ _ h => ?_⟩
      · cases h
      · cases h
      · cases h
  | succ fuel ih =>
      obtain ⟨values, items, fields⟩ := ih
      exact ⟨valuesLeave_succ items fields, itemsLeave_succ values items,
        fieldsLeave_succ values fields⟩

/-- No JSON text holds a NUL. -/
theorem nul_notMem_of_parse {text : Text} {value : Value}
    (h : parse formatNumber text = some value) : nul ∉ text := by
  intro hmem
  unfold parse at h
  split at h
  · cases h
  · next found rest hvalue =>
      split at h
      · next hrest =>
          have hleft := leaves_skipWhitespace ((leaves_parse _).1 _ _ _ hvalue hmem)
          rw [hrest] at hleft
          cases hleft
      · cases h

end Values

end Json
