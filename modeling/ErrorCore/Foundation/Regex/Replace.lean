import ErrorCore.Foundation.Regex.Shape

/-!
# Replacing matches by a mark

`text.replace(/…/g, …)` where every match is either left alone or replaced by one
fixed mark, such as `[REDACTED]`. A scan cuts the text into pieces: characters it
copies and matches it finds. The mark stands between brackets that no match
contains, so what matches in the new text was copied, character by character,
from one place of the old text. Only the neighbours of that place may have
changed, and they count as far as they are word characters.

A text is quiet for a rule when the rule leaves every match in it alone. The
rules here say when replacing the matches of one rule keeps the text quiet for
another.
-/

namespace Regex

open Text

/-- A piece of a text, as the scan for a pattern cuts it. -/
inductive Piece
  | copied (c : Char)
  | found (m : Text)
  deriving DecidableEq

/-- What matches are replaced by. -/
structure Mark where
  opening : Char
  inner : Text
  closing : Char
  opening_not_word : isWordChar opening = false
  closing_not_word : isWordChar closing = false

def Mark.text (mark : Mark) : Text := mark.opening :: (mark.inner ++ [mark.closing])

namespace Piece

def source : List Piece → Text
  | [] => []
  | copied c :: ps => c :: source ps
  | found m :: ps => m ++ source ps

/-- The text with the mark in place of every match. -/
def render (mark : Mark) : List Piece → Text
  | [] => []
  | copied c :: ps => c :: render mark ps
  | found _ :: ps => mark.text ++ render mark ps

/-- A match that is kept is copied like the text around it. -/
def settle (keeps : Text → Bool) : List Piece → List Piece
  | [] => []
  | copied c :: ps => copied c :: settle keeps ps
  | found m :: ps => if keeps m then m.map copied ++ settle keeps ps else found m :: settle keeps ps

end Piece

open Piece

/-- The scan from left to right. A pattern that can match nothing at all is not meant here. -/
def piecesFrom (r : Regex) : Nat → Bool → Text → List Piece
  | 0, _, _ => []
  | _ + 1, _, [] => []
  | fuel + 1, before, c :: text =>
      match r.first before (c :: text) with
      | some (d :: m, rest) => found (d :: m) :: piecesFrom r fuel (endsWord before (d :: m)) rest
      | _ => copied c :: piecesFrom r fuel (isWordChar c) text

def pieces (r : Regex) (text : Text) : List Piece := piecesFrom r text.length false text

/-- A pattern, and which of its matches are left alone. -/
structure Rule where
  regex : Regex
  keeps : Text → Bool

namespace Rule

def cuts (rule : Rule) (text : Text) : List Piece := settle rule.keeps (pieces rule.regex text)

/-- `text.replace(regex, (match) => keeps(match) ? match : mark)` -/
def replace (mark : Mark) (rule : Rule) (text : Text) : Text := render mark (rule.cuts text)

/-- The rule leaves alone whatever matches in the text. -/
def Quiet (rule : Rule) (text : Text) : Prop :=
  ∀ left m right, text = left ++ (m ++ right) →
    rule.regex.Matches (endsWord false left) m (startsWord false right) → rule.keeps m = true

/-- The rule replaces `m`, which stands between `left` and `right`. -/
def Replaces (rule : Rule) (text left m right : Text) : Prop :=
  ∃ ps₁ ps₂, rule.cuts text = ps₁ ++ found m :: ps₂ ∧ left = source ps₁ ∧ right = source ps₂

/-- Right behind a replaced match that ends inside a word stands what the other rule replaces once
it is at the start of a word. -/
def UncoversAfter (rule other : Rule) (text : Text) : Prop :=
  ∃ left cut m right, rule.Replaces text left cut (m ++ right) ∧ endsWord false cut = true ∧
    other.regex.Matches false m (startsWord false right) ∧ other.keeps m = false

/-- Right in front of a replaced match that starts inside a word stands what the other rule
replaces once it is at the end of a word. -/
def UncoversBefore (rule other : Rule) (text : Text) : Prop :=
  ∃ left m cut right, rule.Replaces text (left ++ m) cut right ∧ startsWord false cut = true ∧
    other.regex.Matches (endsWord false left) m false ∧ other.keeps m = false

/-- Replacing a match of the rule uncovers one of the other rule. -/
def Uncovers (rule other : Rule) (text : Text) : Prop :=
  rule.UncoversAfter other text ∨ rule.UncoversBefore other text

end Rule

/-! ## Pieces -/

namespace Piece

@[simp] theorem source_append (ps qs : List Piece) :
    source (ps ++ qs) = source ps ++ source qs := by
  induction ps with
  | nil => rfl
  | cons p ps ih =>
      cases p with
      | copied c => exact congrArg (c :: ·) ih
      | found m => rw [List.cons_append, source, source, ih, List.append_assoc]

@[simp] theorem source_copied (m : Text) : source (m.map copied) = m := by
  induction m with
  | nil => rfl
  | cons c m ih => exact congrArg (c :: ·) ih

@[simp] theorem render_append (mark : Mark) (ps qs : List Piece) :
    render mark (ps ++ qs) = render mark ps ++ render mark qs := by
  induction ps with
  | nil => rfl
  | cons p ps ih =>
      cases p with
      | copied c => exact congrArg (c :: ·) ih
      | found m => rw [List.cons_append, render, render, ih, List.append_assoc]

@[simp] theorem render_copied (mark : Mark) (m : Text) : render mark (m.map copied) = m := by
  induction m with
  | nil => rfl
  | cons c m ih => exact congrArg (c :: ·) ih

@[simp] theorem source_settle (keeps : Text → Bool) (ps : List Piece) :
    source (settle keeps ps) = source ps := by
  induction ps with
  | nil => rfl
  | cons p ps ih =>
      cases p with
      | copied c => exact congrArg (c :: ·) ih
      | found m =>
          cases hm : keeps m with
          | true => rw [settle, if_pos hm, source_append, source_copied, ih, source]
          | false =>
              rw [settle, hm, if_neg Bool.false_ne_true, source, ih, source]

end Piece

/-! ## Where a match of the new text comes from -/

section Locate

variable {mark : Mark} {m : Text}

theorem render_eq_append {ps : List Piece} {right : Text} (hopening : mark.opening ∉ m)
    (h : render mark ps = m ++ right) :
    ∃ ps₂, ps = m.map copied ++ ps₂ ∧ render mark ps₂ = right := by
  induction m generalizing ps with
  | nil => exact ⟨ps, rfl, h⟩
  | cons c m ih =>
      have hc : mark.opening ≠ c := List.ne_of_not_mem_cons hopening
      have hm : mark.opening ∉ m := List.not_mem_of_not_mem_cons hopening
      cases ps with
      | nil => exact absurd h.symm (List.cons_ne_nil c _)
      | cons p ps =>
          cases p with
          | copied d =>
              obtain ⟨rfl, hrest⟩ := List.cons.inj h
              obtain ⟨ps₂, rfl, hright⟩ := ih hm hrest
              exact ⟨ps₂, rfl, hright⟩
          | found m₀ => exact absurd (List.cons.inj h).1 hc

/-- No match starts inside the mark. -/
theorem mark_ne_append {start tail rest right : Text} (htext : mark.text = start ++ tail)
    (htail : tail ≠ []) (hopening : mark.opening ∉ m) (hclosing : mark.closing ∉ m)
    (hother : ∃ c ∈ m, c ∉ mark.inner) : tail ++ rest ≠ m ++ right := by
  intro h
  rcases List.append_eq_append_iff.mp h with ⟨x, hx, -⟩ | ⟨x, hx, -⟩
  · -- The match goes on behind the mark, over its closing bracket.
    have hlast : (start ++ tail).getLast? = some mark.closing := by
      rw [← htext, Mark.text, ← List.cons_append, List.getLast?_concat]
    rw [List.getLast?_append_of_ne_nil start htail] at hlast
    apply hclosing
    rw [hx]
    exact List.mem_append_left x (List.mem_of_getLast? hlast)
  · obtain ⟨c, hc, hinner⟩ := hother
    have hmem : c ∈ mark.text := by
      rw [htext, hx]
      exact List.mem_append_right start (List.mem_append_left x hc)
    rw [Mark.text, List.mem_cons, List.mem_append, List.mem_singleton] at hmem
    rcases hmem with rfl | hmem | rfl
    · exact hopening hc
    · exact hinner hmem
    · exact hclosing hc

/-- A match in the new text was copied as a whole. -/
theorem exists_copied {ps : List Piece} {left right : Text} (hopening : mark.opening ∉ m)
    (hclosing : mark.closing ∉ m) (hother : ∃ c ∈ m, c ∉ mark.inner)
    (h : render mark ps = left ++ (m ++ right)) :
    ∃ ps₁ ps₂, ps = ps₁ ++ (m.map copied ++ ps₂) ∧ render mark ps₁ = left ∧
      render mark ps₂ = right := by
  induction ps generalizing left with
  | nil =>
      obtain ⟨-, hm⟩ := List.append_eq_nil_iff.mp h.symm
      obtain ⟨rfl, -⟩ := List.append_eq_nil_iff.mp hm
      obtain ⟨c, hc, -⟩ := hother
      exact absurd hc List.not_mem_nil
  | cons p ps ih =>
      cases p with
      | copied d =>
          cases left with
          | nil =>
              obtain ⟨ps₂, hps, hright⟩ := render_eq_append hopening h
              exact ⟨[], ps₂, hps, rfl, hright⟩
          | cons c left =>
              obtain ⟨rfl, hrest⟩ := List.cons.inj h
              obtain ⟨ps₁, ps₂, rfl, rfl, hright⟩ := ih hrest
              exact ⟨copied d :: ps₁, ps₂, rfl, rfl, hright⟩
      | found m₀ =>
          have hbehind : ∀ a, left = mark.text ++ a → render mark ps = a ++ (m ++ right) →
              ∃ ps₁ ps₂, found m₀ :: ps = ps₁ ++ (m.map copied ++ ps₂) ∧
                render mark ps₁ = left ∧ render mark ps₂ = right := by
            intro a hleft hrest
            obtain ⟨ps₁, ps₂, rfl, rfl, hright⟩ := ih hrest
            exact ⟨found m₀ :: ps₁, ps₂, rfl, hleft.symm, hright⟩
          rcases List.append_eq_append_iff.mp h with ⟨a, hleft, hrest⟩ | ⟨a, htext, hrest⟩
          · exact hbehind a hleft hrest
          · by_cases ha : a = []
            · subst ha
              rw [List.append_nil] at htext
              exact hbehind [] (by rw [htext, List.append_nil]) hrest.symm
            · exact absurd hrest.symm (mark_ne_append htext ha hopening hclosing hother)

/-- In front of a place, only a replaced match makes a difference. -/
theorem endsWord_render (mark : Mark) (ps : List Piece) :
    endsWord false (render mark ps) = endsWord false (source ps) ∨
      ∃ ps₀ m₀, ps = ps₀ ++ [found m₀] ∧ endsWord false (render mark ps) = false := by
  rcases List.eq_nil_or_concat ps with rfl | ⟨ps₀, p, rfl⟩
  · exact .inl rfl
  · rw [List.concat_eq_append]
    cases p with
    | copied c =>
        left
        rw [render_append, source_append, endsWord_append, endsWord_append]
        rfl
    | found m₀ =>
        right
        refine ⟨ps₀, m₀, rfl, ?_⟩
        rw [render_append, endsWord_append, render, render, List.append_nil, Mark.text,
          ← List.cons_append, endsWord_append, endsWord_cons, endsWord_nil]
        exact mark.closing_not_word

theorem startsWord_render (mark : Mark) (ps : List Piece) :
    startsWord false (render mark ps) = startsWord false (source ps) ∨
      ∃ m₀ ps₀, ps = found m₀ :: ps₀ ∧ startsWord false (render mark ps) = false := by
  cases ps with
  | nil => exact .inl rfl
  | cons p ps =>
      cases p with
      | copied c => exact .inl rfl
      | found m₀ => exact .inr ⟨m₀, ps, rfl, mark.opening_not_word⟩

end Locate

/-! ## What the scan found -/

/-- The pieces are what the scan for the pattern makes of their text. -/
inductive Scanned (r : Regex) : Bool → List Piece → Prop
  | nil (before : Bool) : Scanned r before []
  | copied {before : Bool} {c : Char} {ps : List Piece}
      (hnone : r.first before (c :: source ps) = none) (hps : Scanned r (isWordChar c) ps) :
      Scanned r before (.copied c :: ps)
  | found {before : Bool} {m : Text} {ps : List Piece} (hne : m ≠ [])
      (hfirst : r.first before (m ++ source ps) = some (m, source ps))
      (hps : Scanned r (endsWord before m) ps) :
      Scanned r before (.found m :: ps)

theorem ne_nil_of_matches {r : Regex} (hr : nullable r = false) {before after : Bool} {m : Text}
    (h : r.Matches before m after) : m ≠ [] := by
  rintro rfl
  rw [nullable_of_matches h] at hr
  exact Bool.noConfusion hr

theorem scanned_piecesFrom {r : Regex} (hr : nullable r = false) {fuel : Nat} {before : Bool}
    {text : Text} (hfuel : text.length ≤ fuel) :
    Scanned r before (piecesFrom r fuel before text) ∧
      source (piecesFrom r fuel before text) = text := by
  induction fuel generalizing before text with
  | zero =>
      obtain rfl := List.length_eq_zero_iff.mp (Nat.le_zero.mp hfuel)
      exact ⟨.nil before, rfl⟩
  | succ fuel ih =>
      cases text with
      | nil => exact ⟨.nil before, rfl⟩
      | cons c text =>
          have hlength : text.length ≤ fuel := Nat.le_of_succ_le_succ hfuel
          cases hfirst : r.first before (c :: text) with
          | none =>
              obtain ⟨hscan, hsource⟩ := @ih (isWordChar c) text hlength
              rw [piecesFrom, hfirst]
              refine ⟨.copied ?_ hscan, congrArg (c :: ·) hsource⟩
              rw [hsource]
              exact hfirst
          | some x =>
              obtain ⟨m, rest⟩ := x
              obtain ⟨htext, hm⟩ := matches_of_first hfirst
              cases m with
              | nil => exact absurd rfl (ne_nil_of_matches hr hm)
              | cons d m =>
                  have hrest : rest.length ≤ fuel := by
                    have hlengths := congrArg List.length htext
                    rw [List.length_cons, List.length_append, List.length_cons] at hlengths
                    omega
                  obtain ⟨hscan, hsource⟩ := @ih (endsWord before (d :: m)) rest hrest
                  rw [piecesFrom, hfirst]
                  refine ⟨.found (List.cons_ne_nil d m) ?_ hscan, ?_⟩
                  · rw [hsource, ← htext]
                    exact hfirst
                  · rw [source, hsource, htext]

theorem scanned_pieces {r : Regex} (hr : nullable r = false) (text : Text) :
    Scanned r false (pieces r text) :=
  (scanned_piecesFrom hr (Nat.le_refl _)).1

theorem source_pieces {r : Regex} (hr : nullable r = false) (text : Text) :
    source (pieces r text) = text :=
  (scanned_piecesFrom hr (Nat.le_refl _)).2

/-- A text is scanned in one way only. -/
theorem Scanned.eq_of_source_eq {r : Regex} {before : Bool} {ps qs : List Piece}
    (hps : Scanned r before ps) (hqs : Scanned r before qs) (h : source ps = source qs) :
    ps = qs := by
  induction hps generalizing qs with
  | nil before =>
      cases hqs with
      | nil => rfl
      | copied hnone hqs => exact absurd h.symm (List.cons_ne_nil _ _)
      | found hne hfirst hqs =>
          exact absurd (List.append_eq_nil_iff.mp h.symm).1 hne
  | @copied before c ps hnone hps ih =>
      cases hqs with
      | nil => exact absurd h (List.cons_ne_nil _ _)
      | copied hnone' hqs =>
          obtain ⟨rfl, hsource⟩ := List.cons.inj h
          rw [ih hqs hsource]
      | found hne hfirst hqs =>
          rw [source, source] at h
          rw [h, hfirst] at hnone
          exact absurd hnone (Option.some_ne_none _)
  | @found before m ps hne hfirst hps ih =>
      cases hqs with
      | nil => exact absurd (List.append_eq_nil_iff.mp h).1 hne
      | copied hnone hqs =>
          rw [source, source] at h
          rw [← h, hfirst] at hnone
          exact absurd hnone (Option.some_ne_none _)
      | found hne' hfirst' hqs =>
          rw [source, source] at h
          rw [h, hfirst'] at hfirst
          obtain ⟨rfl, hsource⟩ := Prod.mk.inj (Option.some.inj hfirst)
          rw [ih hqs hsource.symm]

/-- What is left of the pieces behind a run of copied characters. -/
theorem copied_append_eq {m : Text} {ps ps₁ ps₂ : List Piece} {cut : Text}
    (h : m.map copied ++ ps = ps₁ ++ found cut :: ps₂) :
    ∃ ps₀, ps₁ = m.map copied ++ ps₀ ∧ ps = ps₀ ++ found cut :: ps₂ := by
  induction m generalizing ps₁ with
  | nil => exact ⟨ps₁, rfl, h⟩
  | cons c m ih =>
      cases ps₁ with
      | nil => exact absurd (List.cons.inj h).1 Piece.noConfusion
      | cons p ps₁ =>
          obtain ⟨rfl, hrest⟩ := List.cons.inj h
          obtain ⟨ps₀, rfl, hps⟩ := ih hrest
          exact ⟨ps₀, rfl, hps⟩

/-- A replaced match is the match at its place, and one that is not kept. -/
theorem Scanned.first_of_settle {r : Regex} {keeps : Text → Bool} {before : Bool}
    {ps ps₁ ps₂ : List Piece} {cut : Text} (hps : Scanned r before ps)
    (h : settle keeps ps = ps₁ ++ Piece.found cut :: ps₂) :
    r.first (endsWord before (source ps₁)) (cut ++ source ps₂) = some (cut, source ps₂) ∧
      cut ≠ [] ∧ keeps cut = false := by
  induction hps generalizing ps₁ with
  | nil before => exact absurd h.symm (List.append_ne_nil_of_right_ne_nil _ (List.cons_ne_nil _ _))
  | @copied before c ps hnone hps ih =>
      cases ps₁ with
      | nil => exact absurd (List.cons.inj h).1 Piece.noConfusion
      | cons p ps₁ =>
          obtain ⟨rfl, hrest⟩ := List.cons.inj h
          exact ih hrest
  | @found before m ps hne hfirst hps ih =>
      cases hm : keeps m with
      | true =>
          rw [settle, if_pos hm] at h
          obtain ⟨ps₀, rfl, hrest⟩ := copied_append_eq h
          rw [source_append, source_copied, endsWord_append]
          exact ih hrest
      | false =>
          rw [settle, hm, if_neg Bool.false_ne_true] at h
          cases ps₁ with
          | nil =>
              obtain ⟨hcut, rfl⟩ := List.cons.inj h
              obtain rfl := Piece.found.inj hcut
              rw [source_settle]
              exact ⟨hfirst, hne, hm⟩
          | cons p ps₁ =>
              obtain ⟨rfl, hrest⟩ := List.cons.inj h
              rw [source, endsWord_append]
              exact ih hrest

end Regex
