import ErrorCore.Foundation.Text

/-!
# Regular expressions

The part of JavaScript's regular expressions that looks for tokens in a text:
classes of characters, `\b`, alternatives and greedy repetitions. `results` lists
what a pattern matches at a position in the order in which a backtracking matcher
tries it, and its first entry is the match. `Matches` says which of them there are.

What stands around a match only counts for `\b`, and there only as the answer to
one question: whether the neighbour is a word character.
-/

/-- The characters of `\w`. -/
def isWordChar (c : Char) : Bool := c.isAlphanum || c = '_'

namespace Text

/-- Whether a word character stands in front of what follows the text. -/
def endsWord (before : Bool) : Text → Bool
  | [] => before
  | c :: text => endsWord (isWordChar c) text

/-- Whether a word character stands behind what precedes the text. -/
def startsWord (after : Bool) : Text → Bool
  | [] => after
  | c :: _ => isWordChar c

@[simp] theorem endsWord_nil (before : Bool) : endsWord before [] = before := rfl

@[simp] theorem endsWord_cons (before : Bool) (c : Char) (text : Text) :
    endsWord before (c :: text) = endsWord (isWordChar c) text := rfl

@[simp] theorem startsWord_nil (after : Bool) : startsWord after [] = after := rfl

@[simp] theorem startsWord_cons (after : Bool) (c : Char) (text : Text) :
    startsWord after (c :: text) = isWordChar c := rfl

theorem endsWord_append (before : Bool) (a b : Text) :
    endsWord before (a ++ b) = endsWord (endsWord before a) b := by
  induction a generalizing before with
  | nil => rfl
  | cons c a ih => exact ih (isWordChar c)

theorem startsWord_append (after : Bool) (a b : Text) :
    startsWord after (a ++ b) = startsWord (startsWord after b) a := by
  cases a with
  | nil => rfl
  | cons c a => rfl

theorem endsWord_of_ne_nil {text : Text} (h : text ≠ []) (before before' : Bool) :
    endsWord before text = endsWord before' text := by
  cases text with
  | nil => exact absurd rfl h
  | cons c text => rfl

theorem startsWord_of_ne_nil {text : Text} (h : text ≠ []) (after after' : Bool) :
    startsWord after text = startsWord after' text := by
  cases text with
  | nil => exact absurd rfl h
  | cons c text => rfl

end Text

inductive Regex
  | empty
  | char (p : Char → Bool)
  /-- `\b` -/
  | boundary
  | seq (r s : Regex)
  | alt (r s : Regex)
  /-- `p*` for a class `p`. -/
  | many (p : Char → Bool)

namespace Regex

open Text

/-! ## Derived forms -/

def literal : Text → Regex
  | [] => empty
  | c :: text => seq (char (· = c)) (literal text)

/-- `r{n}` -/
def exactly (r : Regex) : Nat → Regex
  | 0 => empty
  | n + 1 => seq r (exactly r n)

/-- `r{0,n}` -/
def upTo (r : Regex) : Nat → Regex
  | 0 => empty
  | n + 1 => alt (seq r (upTo r n)) empty

/-- `r{low,high}` -/
def between (r : Regex) (low high : Nat) : Regex := seq (exactly r low) (upTo r (high - low))

/-- `p{low,}` -/
def atLeast (p : Char → Bool) (low : Nat) : Regex := seq (exactly (char p) low) (many p)

/-- `p+` -/
def oneOrMore (p : Char → Bool) : Regex := seq (char p) (many p)

/-- The patterns one after the other. -/
def chain : List Regex → Regex
  | [] => empty
  | [r] => r
  | r :: rs => seq r (chain rs)

/-- `r|…|s` -/
def alternatives : List Regex → Regex
  | [] => empty
  | [r] => r
  | r :: rs => alt r (alternatives rs)

/-- The class of the characters of a text. -/
def oneOf (chars : Text) (c : Char) : Bool := chars.contains c

/-- A class under the flag `i`. Of the characters beyond ASCII none is equated with one of ASCII. -/
def ignoreCaseClass (p : Char → Bool) (c : Char) : Bool := p c || p c.toLower || p c.toUpper

/-- The pattern under the flag `i`. -/
def ignoreCase : Regex → Regex
  | empty => empty
  | char p => char (ignoreCaseClass p)
  | boundary => boundary
  | seq r s => seq (ignoreCase r) (ignoreCase s)
  | alt r s => alt (ignoreCase r) (ignoreCase s)
  | many p => many (ignoreCaseClass p)

/-! ## Matching -/

/-- The pattern matches `m` where `before` and `after` tell whether its neighbours are word
characters. -/
def Matches : Regex → Bool → Text → Bool → Prop
  | empty, _, m, _ => m = []
  | char p, _, m, _ => ∃ c, m = [c] ∧ p c = true
  | boundary, before, m, after => m = [] ∧ before ≠ after
  | seq r s, before, m, after =>
      ∃ m₁ m₂, m = m₁ ++ m₂ ∧ r.Matches before m₁ (startsWord after m₂) ∧
        s.Matches (endsWord before m₁) m₂ after
  | alt r s, before, m, after => r.Matches before m after ∨ s.Matches before m after
  | many p, _, m, _ => ∀ c ∈ m, p c = true

/-- The longest start of the text in the class first. -/
def greedy (p : Char → Bool) : Text → List (Text × Text)
  | [] => [([], [])]
  | c :: text =>
      if p c then (greedy p text).map (fun x => (c :: x.1, x.2)) ++ [([], c :: text)]
      else [([], c :: text)]

/-- What the pattern matches at the start of the text, each with the text behind it. -/
def results : Regex → Bool → Text → List (Text × Text)
  | empty, _, text => [([], text)]
  | char _, _, [] => []
  | char p, _, c :: text => if p c then [([c], text)] else []
  | boundary, before, text => if before ≠ startsWord false text then [([], text)] else []
  | seq r s, before, text =>
      (r.results before text).flatMap fun x =>
        (s.results (endsWord before x.1) x.2).map fun y => (x.1 ++ y.1, y.2)
  | alt r s, before, text => r.results before text ++ s.results before text
  | many p, _, text => greedy p text

/-- The match at the start of the text. -/
def first (r : Regex) (before : Bool) (text : Text) : Option (Text × Text) :=
  (r.results before text).head?

/-- `r.test(text)` -/
def test (r : Regex) (before : Bool) : Text → Bool
  | [] => (r.first before []).isSome
  | c :: text => (r.first before (c :: text)).isSome || test r (isWordChar c) text

/-! ## What the matcher finds -/

theorem mem_greedy {p : Char → Bool} {text m rest : Text} :
    (m, rest) ∈ greedy p text ↔ text = m ++ rest ∧ ∀ c ∈ m, p c = true := by
  induction text generalizing m with
  | nil =>
      rw [greedy, List.mem_singleton, Prod.mk.injEq]
      constructor
      · rintro ⟨rfl, rfl⟩
        exact ⟨rfl, fun c hc => absurd hc List.not_mem_nil⟩
      · rintro ⟨h, -⟩
        exact List.append_eq_nil_iff.mp h.symm
  | cons d text ih =>
      have hstop : (m, rest) = ([], d :: text) ↔ d :: text = m ++ rest ∧ m = [] := by
        rw [Prod.mk.injEq]
        constructor
        · rintro ⟨rfl, rfl⟩
          exact ⟨rfl, rfl⟩
        · rintro ⟨h, rfl⟩
          exact ⟨rfl, h.symm⟩
      cases hd : p d with
      | false =>
          rw [greedy, hd, if_neg Bool.false_ne_true, List.mem_singleton, hstop]
          constructor
          · rintro ⟨h, rfl⟩
            exact ⟨h, fun c hc => absurd hc List.not_mem_nil⟩
          · rintro ⟨h, hall⟩
            cases m with
            | nil => exact ⟨h, rfl⟩
            | cons e m =>
                obtain ⟨rfl, -⟩ := List.cons.inj h
                exact absurd (hall d List.mem_cons_self) (by rw [hd]; exact Bool.false_ne_true)
      | true =>
          rw [greedy, hd, if_pos rfl, List.mem_append, List.mem_singleton, hstop, List.mem_map]
          constructor
          · rintro (⟨⟨m', rest'⟩, hmem, heq⟩ | ⟨h, rfl⟩)
            · obtain ⟨rfl, rfl⟩ := Prod.mk.inj heq
              obtain ⟨rfl, hall⟩ := ih.mp hmem
              exact ⟨rfl, List.forall_mem_cons.mpr ⟨hd, hall⟩⟩
            · exact ⟨h, fun c hc => absurd hc List.not_mem_nil⟩
          · rintro ⟨h, hall⟩
            cases m with
            | nil => exact .inr ⟨h, rfl⟩
            | cons e m =>
                obtain ⟨rfl, htext⟩ := List.cons.inj h
                exact .inl ⟨(m, rest), ih.mpr ⟨htext, (List.forall_mem_cons.mp hall).2⟩, rfl⟩

/-- The matcher tries exactly the matches there are. -/
theorem mem_results {r : Regex} {before : Bool} {text m rest : Text} :
    (m, rest) ∈ r.results before text ↔
      text = m ++ rest ∧ r.Matches before m (startsWord false rest) := by
  induction r generalizing before text m rest with
  | empty =>
      rw [results, Matches, List.mem_singleton, Prod.mk.injEq]
      constructor
      · rintro ⟨rfl, rfl⟩
        exact ⟨rfl, rfl⟩
      · rintro ⟨rfl, rfl⟩
        exact ⟨rfl, rfl⟩
  | char p =>
      cases text with
      | nil =>
          constructor
          · intro h
            exact absurd h List.not_mem_nil
          · rintro ⟨h, c, rfl, -⟩
            exact absurd h.symm (List.cons_ne_nil c rest)
      | cons d text =>
          cases hd : p d with
          | false =>
              rw [results, hd, if_neg Bool.false_ne_true]
              constructor
              · intro h
                exact absurd h List.not_mem_nil
              · rintro ⟨h, c, rfl, hc⟩
                obtain ⟨rfl, -⟩ := List.cons.inj h
                rw [hd] at hc
                exact absurd hc Bool.false_ne_true
          | true =>
              rw [results, hd, if_pos rfl, List.mem_singleton, Prod.mk.injEq]
              constructor
              · rintro ⟨rfl, rfl⟩
                exact ⟨rfl, d, rfl, hd⟩
              · rintro ⟨h, c, rfl, -⟩
                obtain ⟨rfl, rfl⟩ := List.cons.inj h
                exact ⟨rfl, rfl⟩
  | boundary =>
      by_cases h : before ≠ startsWord false text
      · rw [results, if_pos h, List.mem_singleton, Prod.mk.injEq]
        constructor
        · rintro ⟨rfl, rfl⟩
          exact ⟨rfl, rfl, h⟩
        · rintro ⟨rfl, rfl, -⟩
          exact ⟨rfl, rfl⟩
      · rw [results, if_neg h]
        constructor
        · intro hmem
          exact absurd hmem List.not_mem_nil
        · rintro ⟨rfl, rfl, hne⟩
          exact absurd hne h
  | seq r s ihr ihs =>
      rw [results, Matches, List.mem_flatMap]
      constructor
      · rintro ⟨⟨m₁, rest₁⟩, hr, hmem⟩
        obtain ⟨⟨m₂, rest₂⟩, hs, heq⟩ := List.mem_map.mp hmem
        obtain ⟨rfl, rfl⟩ := Prod.mk.inj heq
        obtain ⟨hrest, hs⟩ := ihs.mp hs
        obtain ⟨htext, hr⟩ := ihr.mp hr
        obtain rfl : rest₁ = m₂ ++ rest₂ := hrest
        rw [startsWord_append] at hr
        exact ⟨by rw [htext, List.append_assoc], m₁, m₂, rfl, hr, hs⟩
      · rintro ⟨rfl, m₁, m₂, rfl, hr, hs⟩
        rw [← startsWord_append] at hr
        refine ⟨(m₁, m₂ ++ rest), ihr.mpr ⟨List.append_assoc m₁ m₂ rest, hr⟩, ?_⟩
        exact List.mem_map.mpr ⟨(m₂, rest), ihs.mpr ⟨rfl, hs⟩, rfl⟩
  | alt r s ihr ihs =>
      rw [results, Matches, List.mem_append, ihr, ihs, ← and_or_left]
  | many p => exact mem_greedy

theorem first_eq_none {r : Regex} {before : Bool} {text : Text} :
    r.first before text = none ↔
      ∀ m rest, text = m ++ rest → ¬ r.Matches before m (startsWord false rest) := by
  rw [first, List.head?_eq_none_iff, List.eq_nil_iff_forall_not_mem]
  constructor
  · intro h m rest htext hm
    exact h (m, rest) (mem_results.mpr ⟨htext, hm⟩)
  · rintro h ⟨m, rest⟩ hmem
    obtain ⟨htext, hm⟩ := mem_results.mp hmem
    exact h m rest htext hm

theorem matches_of_first {r : Regex} {before : Bool} {text m rest : Text}
    (h : r.first before text = some (m, rest)) :
    text = m ++ rest ∧ r.Matches before m (startsWord false rest) :=
  mem_results.mp (List.mem_of_mem_head? h)

theorem first_isSome_of_matches {r : Regex} {before : Bool} {m rest : Text}
    (h : r.Matches before m (startsWord false rest)) :
    (r.first before (m ++ rest)).isSome = true := by
  cases hfirst : r.first before (m ++ rest) with
  | none => exact absurd h (first_eq_none.mp hfirst m rest rfl)
  | some x => rfl

theorem test_of_matches {r : Regex} {before : Bool} {left m right : Text}
    (h : r.Matches (endsWord before left) m (startsWord false right)) :
    r.test before (left ++ (m ++ right)) = true := by
  induction left generalizing before with
  | nil =>
      have hsome : (r.first before (m ++ right)).isSome = true := first_isSome_of_matches h
      rw [List.nil_append]
      cases htext : m ++ right with
      | nil =>
          rw [htext] at hsome
          exact hsome
      | cons c text =>
          rw [htext] at hsome
          rw [test, hsome, Bool.true_or]
  | cons c left ih => rw [List.cons_append, test, ih h, Bool.or_true]

/-! ## The flag `i` only adds matches -/

theorem ignoreCaseClass_of_class {p : Char → Bool} {c : Char} (h : p c = true) :
    ignoreCaseClass p c = true := by
  rw [ignoreCaseClass, h, Bool.true_or, Bool.true_or]

theorem Matches.ignoreCase {r : Regex} {before after : Bool} {m : Text}
    (h : r.Matches before m after) : (ignoreCase r).Matches before m after := by
  induction r generalizing before m after with
  | empty => exact h
  | char p =>
      obtain ⟨c, hm, hc⟩ := h
      exact ⟨c, hm, ignoreCaseClass_of_class hc⟩
  | boundary => exact h
  | seq r s ihr ihs =>
      obtain ⟨m₁, m₂, hm, hr, hs⟩ := h
      exact ⟨m₁, m₂, hm, ihr hr, ihs hs⟩
  | alt r s ihr ihs => exact h.imp ihr ihs
  | many p => exact fun c hc => ignoreCaseClass_of_class (h c hc)

theorem ignoreCase_matches_alternatives {r : Regex} {rs : List Regex} (hmem : r ∈ rs)
    {before after : Bool} {m : Text} (h : (ignoreCase r).Matches before m after) :
    (ignoreCase (alternatives rs)).Matches before m after := by
  induction rs with
  | nil => exact absurd hmem List.not_mem_nil
  | cons s rs ih =>
      cases rs with
      | nil =>
          obtain rfl := List.mem_singleton.mp hmem
          exact h
      | cons s' rs =>
          rcases List.mem_cons.mp hmem with rfl | hmem
          · exact .inl h
          · exact .inr (ih hmem)

/-! ## Matches seen from a changed neighbourhood -/

/-- A match that starts with no word character does not mind one in front of it. -/
theorem Matches.of_before {r : Regex} {m : Text} {after : Bool}
    (h : r.Matches false m after) (hstart : startsWord after m = false) :
    r.Matches true m after := by
  induction r generalizing m after with
  | empty => exact h
  | char p => exact h
  | boundary =>
      obtain ⟨rfl, hne⟩ := h
      exact absurd hstart.symm hne
  | seq r s ihr ihs =>
      obtain ⟨m₁, m₂, rfl, hr, hs⟩ := h
      rw [startsWord_append] at hstart
      refine ⟨m₁, m₂, rfl, ihr hr hstart, ?_⟩
      cases m₁ with
      | nil => exact ihs hs hstart
      | cons c m₁ => exact hs
  | alt r s ihr ihs => exact h.imp (ihr · hstart) (ihs · hstart)
  | many p => exact h

/-- A match that ends with no word character does not mind one behind it. -/
theorem Matches.of_after {r : Regex} {before : Bool} {m : Text}
    (h : r.Matches before m false) (hend : endsWord before m = false) :
    r.Matches before m true := by
  induction r generalizing before m with
  | empty => exact h
  | char p => exact h
  | boundary =>
      obtain ⟨rfl, hne⟩ := h
      exact absurd hend hne
  | seq r s ihr ihs =>
      obtain ⟨m₁, m₂, rfl, hr, hs⟩ := h
      rw [endsWord_append] at hend
      refine ⟨m₁, m₂, rfl, ?_, ihs hs hend⟩
      cases m₂ with
      | nil => exact ihr hr hend
      | cons c m₂ => exact hr
  | alt r s ihr ihs => exact h.imp (ihr · hend) (ihs · hend)
  | many p => exact h

end Regex
