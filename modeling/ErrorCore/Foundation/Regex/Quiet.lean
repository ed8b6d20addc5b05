import ErrorCore.Foundation.Regex.Replace

/-!
# Texts a rule leaves alone

When a rule has replaced its matches, the new text is quiet for it, and it stays
quiet while other rules replace theirs, as long as no replacement uncovers a
match. Whether one can is read off the patterns: a replacement only turns the
inside of a word into an edge where a match begins or ends inside a word.
-/

namespace Regex

open Text Piece

/-- The rule leaves alone what matches among the copied characters. -/
def QuietIn (rule : Rule) (ps : List Piece) : Prop :=
  ∀ ps₁ m ps₂, ps = ps₁ ++ (m.map copied ++ ps₂) →
    rule.regex.Matches (endsWord false (source ps₁)) m (startsWord false (source ps₂)) →
      rule.keeps m = true

/-- The matches of the pattern cannot be part of the mark. -/
structure Mark.Foreign (mark : Mark) (r : Regex) : Prop where
  opening : excludes mark.opening r = true
  closing : excludes mark.closing r = true
  other : needsOther mark.inner r = true

namespace Mark.Foreign

variable {mark : Mark} {r : Regex} {before after : Bool} {m : Text}

theorem ne_nil (h : mark.Foreign r) (hm : r.Matches before m after) : m ≠ [] := by
  rintro rfl
  obtain ⟨c, hc, -⟩ := hm.exists_not_mem h.other
  exact absurd hc List.not_mem_nil

theorem exists_copied (h : mark.Foreign r) (hm : r.Matches before m after) {ps : List Piece}
    {left right : Text} (heq : render mark ps = left ++ (m ++ right)) :
    ∃ ps₁ ps₂, ps = ps₁ ++ (m.map copied ++ ps₂) ∧ render mark ps₁ = left ∧
      render mark ps₂ = right :=
  Regex.exists_copied (hm.not_mem h.opening) (hm.not_mem h.closing) (hm.exists_not_mem h.other) heq

end Mark.Foreign

theorem Rule.Quiet.quietIn {rule : Rule} {ps : List Piece} (h : rule.Quiet (source ps)) :
    QuietIn rule ps := by
  intro ps₁ m ps₂ hps hm
  refine h (source ps₁) m (source ps₂) ?_ hm
  rw [hps, source_append, source_append, source_copied]

/-! ## A match seen again in the old text -/

section Render

variable {mark : Mark} {rule : Rule} {ps : List Piece}

/-- A pattern without `\b` sees no difference. -/
theorem quiet_render_of_contextFree (hrule : mark.Foreign rule.regex)
    (hfree : contextFree rule.regex = true) (hin : QuietIn rule ps) :
    rule.Quiet (render mark ps) := by
  intro left m right htext hm
  obtain ⟨ps₁, ps₂, hps, rfl, rfl⟩ := hrule.exists_copied hm htext
  exact hin ps₁ m ps₂ hps (hm.of_contextFree hfree _ _)

/-- No replaced match starts inside a word. -/
def ClearLeft (ps : List Piece) : Prop :=
  ∀ ps₁ cut ps₂, ps = ps₁ ++ found cut :: ps₂ → startsWord false (cut ++ source ps₂) = true →
    endsWord false (source ps₁) = false

/-- No letter or digit goes on where a replaced match ends inside a word. -/
def ClearRight (ps : List Piece) : Prop :=
  ∀ ps₁ cut c rest ps₂, ps = ps₁ ++ found cut :: ps₂ →
    endsWord false (source ps₁ ++ cut) = true → source ps₂ = c :: rest → c.isAlphanum = false

/-- What now stands in front of a mark matched there before. -/
theorem matches_of_clearLeft (hrule : mark.Foreign rule.regex) (hleft : ClearLeft ps)
    {ps₁ ps₂ : List Piece} {m : Text} (hps : ps = ps₁ ++ (m.map copied ++ ps₂)) {before : Bool}
    (hm : rule.regex.Matches before m (startsWord false (render mark ps₂))) :
    rule.regex.Matches before m (startsWord false (source ps₂)) := by
  rcases startsWord_render mark ps₂ with heq | ⟨cut, ps₃, rfl, hfalse⟩
  · rwa [heq] at hm
  · rw [hfalse] at hm
    cases hstart : startsWord false (source (found cut :: ps₃)) with
    | false => exact hm
    | true =>
        have hclear := hleft (ps₁ ++ m.map copied) cut ps₃ (by rw [hps, List.append_assoc]) hstart
        rw [source_append, source_copied, endsWord_append] at hclear
        apply hm.of_after
        rwa [endsWord_of_ne_nil (hrule.ne_nil hm) before (endsWord false (source ps₁))]

/-- What now stands behind a mark matched there before. -/
theorem matches_of_clearRight (hrule : mark.Foreign rule.regex)
    (hopen : opensWith '_' rule.regex = false) (hright : ClearRight ps)
    {ps₁ ps₂ : List Piece} {m : Text} (hps : ps = ps₁ ++ (m.map copied ++ ps₂)) {after : Bool}
    (hm : rule.regex.Matches (endsWord false (render mark ps₁)) m after) :
    rule.regex.Matches (endsWord false (source ps₁)) m after := by
  rcases endsWord_render mark ps₁ with heq | ⟨ps₀, cut, rfl, hfalse⟩
  · rwa [heq] at hm
  · rw [hfalse] at hm
    have hsource : source (ps₀ ++ [found cut]) = source ps₀ ++ cut := by
      rw [source_append, source, source, List.append_nil]
    rw [hsource]
    cases hend : endsWord false (source ps₀ ++ cut) with
    | false => exact hm
    | true =>
        apply hm.of_before
        cases m with
        | nil => exact absurd rfl (hrule.ne_nil hm)
        | cons c m =>
            have hps' : ps = ps₀ ++ found cut :: ((c :: m).map copied ++ ps₂) := by
              rw [hps, List.append_assoc, List.singleton_append]
            have hc : c.isAlphanum = false :=
              hright ps₀ cut c (m ++ source ps₂) _ hps' hend
                (by rw [source_append, source_copied, List.cons_append])
            rw [startsWord_cons, isWordChar, hc, Bool.false_or, decide_eq_false_iff_not]
            rintro rfl
            rw [opensWith_of_matches hm] at hopen
            exact Bool.noConfusion hopen

theorem quiet_render_of_clear (hrule : mark.Foreign rule.regex)
    (hopen : opensWith '_' rule.regex = false) (hin : QuietIn rule ps) (hleft : ClearLeft ps)
    (hright : ClearRight ps) : rule.Quiet (render mark ps) := by
  intro left m right htext hm
  obtain ⟨ps₁, ps₂, hps, rfl, rfl⟩ := hrule.exists_copied hm htext
  apply hin ps₁ m ps₂ hps
  apply matches_of_clearRight hrule hopen hright hps
  exact matches_of_clearLeft hrule hleft hps hm

theorem quiet_render_of_clearLeft (hrule : mark.Foreign rule.regex) (hin : QuietIn rule ps)
    (hleft : ClearLeft ps)
    (hafter : ∀ ps₁ cut m ps₂, ps = ps₁ ++ found cut :: (m.map copied ++ ps₂) →
      endsWord false (source ps₁ ++ cut) = true →
        rule.regex.Matches false m (startsWord false (source ps₂)) → rule.keeps m = true) :
    rule.Quiet (render mark ps) := by
  intro left m right htext hm
  obtain ⟨ps₁, ps₂, hps, rfl, rfl⟩ := hrule.exists_copied hm htext
  have hold := matches_of_clearLeft hrule hleft hps hm
  rcases endsWord_render mark ps₁ with heq | ⟨ps₀, cut, rfl, hfalse⟩
  · rw [heq] at hold
    exact hin ps₁ m ps₂ hps hold
  · rw [hfalse] at hold
    have hsource : source (ps₀ ++ [found cut]) = source ps₀ ++ cut := by
      rw [source_append, source, source, List.append_nil]
    cases hend : endsWord false (source ps₀ ++ cut) with
    | false =>
        apply hin _ m ps₂ hps
        rw [hsource, hend]
        exact hold
    | true =>
        apply hafter ps₀ cut m ps₂ _ hend hold
        rw [hps, List.append_assoc, List.singleton_append]

theorem quiet_render_of_clearRight (hrule : mark.Foreign rule.regex)
    (hopen : opensWith '_' rule.regex = false) (hin : QuietIn rule ps) (hright : ClearRight ps)
    (hbefore : ∀ ps₁ m cut ps₂, ps = ps₁ ++ (m.map copied ++ found cut :: ps₂) →
      startsWord false (cut ++ source ps₂) = true →
        rule.regex.Matches (endsWord false (source ps₁)) m false → rule.keeps m = true) :
    rule.Quiet (render mark ps) := by
  intro left m right htext hm
  obtain ⟨ps₁, ps₂, hps, rfl, rfl⟩ := hrule.exists_copied hm htext
  have hold := matches_of_clearRight hrule hopen hright hps hm
  rcases startsWord_render mark ps₂ with heq | ⟨cut, ps₃, rfl, hfalse⟩
  · rw [heq] at hold
    exact hin ps₁ m ps₂ hps hold
  · rw [hfalse] at hold
    cases hstart : startsWord false (cut ++ source ps₃) with
    | false =>
        apply hin ps₁ m _ hps
        rw [source, hstart]
        exact hold
    | true => exact hbefore ps₁ m cut ps₃ hps hstart hold

end Render

/-! ## What one rule does to the others -/

namespace Rule

/-- A kept match leaves no place in it for another match that is not kept. -/
def KeepsWhole (rule : Rule) : Prop :=
  ∀ before kept rest left m right, rule.keeps kept = true →
    rule.regex.Matches before kept (startsWord false rest) → kept ++ rest = left ++ (m ++ right) →
      left.length < kept.length →
        rule.regex.Matches (endsWord before left) m (startsWord false right) →
          rule.keeps m = true

theorem keepsWhole_of_forall {rule : Rule} (h : ∀ m, rule.keeps m = false) : rule.KeepsWhole := by
  intro before kept rest left m right hkept
  rw [h kept] at hkept
  exact absurd hkept Bool.false_ne_true

theorem keeps_of_scanned {rule : Rule} (hkeeps : rule.KeepsWhole) {before : Bool}
    {ps : List Piece} (hps : Scanned rule.regex before ps) {ps₁ ps₂ : List Piece} {m : Text}
    (hne : m ≠ []) (h : settle rule.keeps ps = ps₁ ++ (m.map copied ++ ps₂))
    (hm : rule.regex.Matches (endsWord before (source ps₁)) m (startsWord false (source ps₂))) :
    rule.keeps m = true := by
  induction hps generalizing ps₁ with
  | nil before =>
      obtain ⟨-, hnil⟩ := List.append_eq_nil_iff.mp h.symm
      exact absurd (List.map_eq_nil_iff.mp (List.append_eq_nil_iff.mp hnil).1) hne
  | @copied before c ps hnone hps ih =>
      cases ps₁ with
      | nil =>
          have hsource := congrArg source h
          rw [source_settle, List.nil_append, source_append, source_copied] at hsource
          exact absurd hm (first_eq_none.mp hnone m (source ps₂) hsource)
      | cons p ps₁ =>
          obtain ⟨rfl, hrest⟩ := List.cons.inj h
          exact ih hrest hm
  | @found before kept ps hkept hfirst hps ih =>
      have hbehind : ∀ qs, settle rule.keeps ps = qs ++ (m.map copied ++ ps₂) →
          source ps₁ = kept ++ source qs → rule.keeps m = true := by
        intro qs hqs hsource
        apply ih hqs
        rwa [hsource, endsWord_append] at hm
      cases hk : rule.keeps kept with
      | false =>
          rw [settle, hk, if_neg Bool.false_ne_true] at h
          cases ps₁ with
          | nil =>
              cases m with
              | nil => exact absurd rfl hne
              | cons c m => exact absurd (List.cons.inj h).1 Piece.noConfusion
          | cons p ps₁ =>
              obtain ⟨rfl, hrest⟩ := List.cons.inj h
              exact hbehind ps₁ hrest rfl
      | true =>
          have hsource := congrArg source h
          rw [source_settle, source, source_append, source_append, source_copied] at hsource
          rw [settle, if_pos hk] at h
          rcases List.append_eq_append_iff.mp h with ⟨qs, rfl, hqs⟩ | ⟨qs, hmap, hqs⟩
          · exact hbehind qs hqs (by rw [source_append, source_copied])
          · obtain ⟨left, tail, rfl, rfl, rfl⟩ := List.map_eq_append_iff.mp hmap
            rw [source_copied] at hsource hm
            cases tail with
            | nil =>
                rw [List.append_nil] at hbehind
                exact hbehind [] hqs.symm (by rw [source_copied, source, List.append_nil])
            | cons c tail =>
                refine hkeeps before _ (source ps) left m (source ps₂) hk
                  (matches_of_first hfirst).2 hsource ?_ hm
                rw [List.length_append, List.length_cons]
                omega

/-- Of two runs of word characters at the same place, both of them whole, none goes on further. -/
theorem eq_of_words {m rest m' rest' : Text} (h : m ++ rest = m' ++ rest')
    (hm : ∀ c ∈ m, isWordChar c = true) (hm' : ∀ c ∈ m', isWordChar c = true)
    (hrest : startsWord false rest = false) (hrest' : startsWord false rest' = false) :
    m = m' := by
  rcases List.append_eq_append_iff.mp h with ⟨x, rfl, rfl⟩ | ⟨x, rfl, rfl⟩
  · cases x with
    | nil => exact (List.append_nil m).symm
    | cons c x =>
        rw [List.cons_append, startsWord_cons,
          hm' c (List.mem_append_right m List.mem_cons_self)] at hrest
        exact absurd hrest Bool.noConfusion
  · cases x with
    | nil => exact List.append_nil m'
    | cons c x =>
        rw [List.cons_append, startsWord_cons,
          hm c (List.mem_append_right m' List.mem_cons_self)] at hrest'
        exact absurd hrest' Bool.noConfusion

theorem endsWord_of_words {m : Text} (hne : m ≠ []) (h : ∀ c ∈ m, isWordChar c = true)
    (before : Bool) : endsWord before m = true := by
  obtain ⟨m, c, rfl⟩ := (List.eq_nil_or_concat m).resolve_left hne
  rw [List.concat_eq_append, endsWord_append]
  exact h c (by rw [List.concat_eq_append]; exact List.mem_append_right m List.mem_cons_self)

theorem startsWord_of_words {m : Text} (hne : m ≠ []) (h : ∀ c ∈ m, isWordChar c = true)
    (after : Bool) : startsWord after m = true := by
  cases m with
  | nil => exact absurd rfl hne
  | cons c m => exact h c List.mem_cons_self

/-- A kept match that is one whole word hides no other match. -/
theorem keepsWhole_of_words {rule : Rule} (hne : nullable rule.regex = false)
    (hleft : guardsLeft rule.regex = true) (hright : guardsRight rule.regex = true)
    (hwords : ∀ {before after m}, rule.regex.Matches before m after →
      ∀ c ∈ m, isWordChar c = true) : rule.KeepsWhole := by
  intro before kept rest left m right hkeeps hkept h hlength hm
  have hmwords := hwords hm
  have hkeptwords := hwords hkept
  have hmne := ne_nil_of_matches hne hm
  have hkeptne := ne_nil_of_matches hne hkept
  cases left with
  | nil =>
      have hrest := hkept.after_eq_false hright (endsWord_of_words hkeptne hkeptwords before)
      have hright' := hm.after_eq_false hright (endsWord_of_words hmne hmwords before)
      have heq : kept = m := eq_of_words h hkeptwords hmwords hrest hright'
      rwa [← heq]
  | cons c left =>
      -- A second match would start inside the kept word.
      have hsplit : ∃ tail, kept = (c :: left) ++ tail := by
        rcases List.append_eq_append_iff.mp h with ⟨x, hx, -⟩ | ⟨x, hx, -⟩
        · rw [hx, List.length_append] at hlength
          omega
        · exact ⟨x, hx⟩
      obtain ⟨tail, rfl⟩ := hsplit
      have hend : endsWord before (c :: left) = true :=
        endsWord_of_words (List.cons_ne_nil c left)
          (fun d hd => hkeptwords d (List.mem_append_left tail hd)) before
      have hfalse := hm.before_eq_false hleft (startsWord_of_words hmne hmwords _)
      rw [hend] at hfalse
      exact absurd hfalse.symm Bool.noConfusion

variable {mark : Mark} {rule other : Rule} {text : Text}

theorem source_cuts (hrule : mark.Foreign rule.regex) (text : Text) :
    source (rule.cuts text) = text := by
  rw [cuts, source_settle, source_pieces (nullable_eq_false hrule.other)]

theorem first_of_cuts (hrule : mark.Foreign rule.regex) {ps₁ ps₂ : List Piece} {cut : Text}
    (h : rule.cuts text = ps₁ ++ found cut :: ps₂) :
    rule.regex.first (endsWord false (source ps₁)) (cut ++ source ps₂) =
        some (cut, source ps₂) ∧ cut ≠ [] ∧ rule.keeps cut = false :=
  (scanned_pieces (nullable_eq_false hrule.other) text).first_of_settle h

theorem clearLeft_cuts (hrule : mark.Foreign rule.regex) (hguard : guardsLeft rule.regex = true)
    (text : Text) : ClearLeft (rule.cuts text) := by
  intro ps₁ cut ps₂ h hstart
  obtain ⟨hfirst, -, -⟩ := first_of_cuts hrule h
  rw [startsWord_append] at hstart
  exact (matches_of_first hfirst).2.before_eq_false hguard hstart

theorem clearRight_cuts (hrule : mark.Foreign rule.regex)
    (hend : guardsRight rule.regex = true ∨ endsGreedily rule.regex = true) (text : Text) :
    ClearRight (rule.cuts text) := by
  intro ps₁ cut c rest ps₂ h hcut hsource
  obtain ⟨hfirst, -, -⟩ := first_of_cuts hrule h
  rcases hend with hguard | hgreedy
  · rw [endsWord_append] at hcut
    have hafter := (matches_of_first hfirst).2.after_eq_false hguard hcut
    rw [hsource, startsWord_cons, isWordChar, Bool.or_eq_false_iff] at hafter
    exact hafter.1
  · rw [hsource] at hfirst
    exact isAlphanum_after hgreedy hfirst

theorem Quiet.quietIn_cuts (hrule : mark.Foreign rule.regex) (h : other.Quiet text) :
    QuietIn other (rule.cuts text) := by
  apply Quiet.quietIn
  rwa [source_cuts hrule]

/-- Nothing matches in the mark. -/
theorem quiet_mark (hrule : mark.Foreign rule.regex) : rule.Quiet mark.text := by
  intro left m right htext hm
  have htail : m ++ right ≠ [] := List.append_ne_nil_of_left_ne_nil (hrule.ne_nil hm) right
  exact absurd (List.append_nil (m ++ right)) (mark_ne_append htext htail
    (hm.not_mem hrule.opening) (hm.not_mem hrule.closing) (hm.exists_not_mem hrule.other))

/-- What a rule has copied it leaves alone. -/
theorem quietIn_own_cuts (hrule : mark.Foreign rule.regex) (hkeeps : rule.KeepsWhole)
    (text : Text) : QuietIn rule (rule.cuts text) := by
  intro ps₁ m ps₂ h hm
  have hscan := scanned_pieces (nullable_eq_false hrule.other) text
  exact keeps_of_scanned hkeeps hscan (hrule.ne_nil hm) h hm

/-- A text that is quiet for a rule is not changed by it. -/
theorem replace_eq_self (hrule : mark.Foreign rule.regex) (h : rule.Quiet text) :
    rule.replace mark text = text := by
  have hnone : ∀ ps₁ cut ps₂, rule.cuts text ≠ ps₁ ++ found cut :: ps₂ := by
    intro ps₁ cut ps₂ hcuts
    obtain ⟨hfirst, -, hnot⟩ := first_of_cuts hrule hcuts
    have htext : text = source ps₁ ++ (cut ++ source ps₂) := by
      rw [← source_cuts hrule text, hcuts, source_append, source]
    rw [h _ _ _ htext (matches_of_first hfirst).2] at hnot
    exact Bool.noConfusion hnot
  have hrender : ∀ ps, (∀ ps₁ cut ps₂, ps ≠ ps₁ ++ found cut :: ps₂) →
      render mark ps = source ps := by
    intro ps hps
    induction ps with
    | nil => rfl
    | cons p ps ih =>
        cases p with
        | copied c =>
            refine congrArg (c :: ·) (ih fun ps₁ cut ps₂ heq => ?_)
            exact hps (copied c :: ps₁) cut ps₂ (congrArg (copied c :: ·) heq)
        | found m => exact absurd rfl (hps [] m ps)
  rw [replace, hrender _ hnone, source_cuts hrule]

/-- Every match stands apart from the words around it: no replacement can turn the inside of a
word into its edge. -/
def standsFree (r : Regex) : Bool := guardsLeft r && (guardsRight r || endsGreedily r)

/-- Replacing matches that stand free uncovers nothing. -/
theorem quiet_replace_of_standsFree (hrule : mark.Foreign rule.regex)
    (hother : mark.Foreign other.regex) (hfree : standsFree rule.regex = true)
    (hopen : contextFree other.regex = true ∨ opensWith '_' other.regex = false)
    (hin : QuietIn other (rule.cuts text)) : other.Quiet (rule.replace mark text) := by
  obtain ⟨hleft, hright⟩ := (Bool.and_eq_true _ _).mp hfree
  rcases hopen with hopen | hopen
  · exact quiet_render_of_contextFree hother hopen hin
  · apply quiet_render_of_clear hother hopen hin (clearLeft_cuts hrule hleft text)
    exact clearRight_cuts hrule ((Bool.or_eq_true _ _).mp hright) text

/-- Where one side of the matches stands free, the other side is all that can uncover something. -/
theorem quiet_replace_of_not_uncovers (hrule : mark.Foreign rule.regex)
    (hother : mark.Foreign other.regex)
    (hside : guardsLeft rule.regex = true ∨ guardsRight rule.regex = true)
    (hopen : contextFree other.regex = true ∨ opensWith '_' other.regex = false)
    (hin : QuietIn other (rule.cuts text)) (hnot : ¬ rule.Uncovers other text) :
    other.Quiet (rule.replace mark text) := by
  rcases hopen with hopen | hopen
  · exact quiet_render_of_contextFree hother hopen hin
  rcases hside with hguard | hguard
  · apply quiet_render_of_clearLeft hother hin (clearLeft_cuts hrule hguard text)
    intro ps₁ cut m ps₂ h hend hm
    by_contra hkeeps
    apply hnot
    obtain ⟨-, hne, -⟩ := first_of_cuts hrule h
    rw [endsWord_append, endsWord_of_ne_nil hne _ false] at hend
    refine .inl ⟨source ps₁, cut, m, source ps₂, ⟨ps₁, _, h, rfl, ?_⟩, hend, hm, ?_⟩
    · rw [source_append, source_copied]
    · exact Bool.eq_false_iff.mpr hkeeps
  · apply quiet_render_of_clearRight hother hopen hin (clearRight_cuts hrule (.inl hguard) text)
    intro ps₁ m cut ps₂ h hstart hm
    by_contra hkeeps
    apply hnot
    rw [← List.append_assoc] at h
    obtain ⟨-, hne, -⟩ := first_of_cuts hrule h
    rw [startsWord_append, startsWord_of_ne_nil hne _ false] at hstart
    refine .inr ⟨source ps₁, m, cut, source ps₂, ⟨_, ps₂, h, ?_, rfl⟩, hstart, hm, ?_⟩
    · rw [source_append, source_copied]
    · exact Bool.eq_false_iff.mpr hkeeps

/-- A rule that replaces nothing uncovers nothing. -/
theorem not_uncovers_of_copied {copies : Text} (h : rule.cuts text = copies.map copied) :
    ¬ rule.Uncovers other text := by
  have hnone : ∀ left cut right, ¬ rule.Replaces text left cut right := by
    rintro left cut right ⟨ps₁, ps₂, hcuts, -, -⟩
    rw [h, ← List.append_nil (copies.map copied)] at hcuts
    obtain ⟨ps₀, -, hnil⟩ := copied_append_eq hcuts
    exact List.append_ne_nil_of_right_ne_nil ps₀ (List.cons_ne_nil _ ps₂) hnil.symm
  rintro (⟨left, cut, m, right, hcut, -⟩ | ⟨left, m, cut, right, hcut, -⟩)
  · exact hnone _ _ _ hcut
  · exact hnone _ _ _ hcut

/-- Nor does one that replaces the end of the text, from the start of a word on. -/
theorem not_uncovers_of_last (hother : mark.Foreign other.regex) {copies cut : Text}
    (h : rule.cuts text = copies.map copied ++ [found cut])
    (hstart : startsWord false cut = false) : ¬ rule.Uncovers other text := by
  have hlast : ∀ left m right, rule.Replaces text left m right → m = cut ∧ right = [] := by
    rintro left m right ⟨ps₁, ps₂, hcuts, -, rfl⟩
    rw [h] at hcuts
    obtain ⟨ps₀, -, hsingle⟩ := copied_append_eq hcuts
    cases ps₀ with
    | nil =>
        obtain ⟨hfound, rfl⟩ := List.cons.inj hsingle
        exact ⟨(Piece.found.inj hfound).symm, rfl⟩
    | cons p ps₀ =>
        obtain ⟨-, hnil⟩ := List.cons.inj hsingle
        exact absurd hnil.symm (List.append_ne_nil_of_right_ne_nil ps₀ (List.cons_ne_nil _ ps₂))
  rintro (⟨left, m', m, right, hcut, -, hm, -⟩ | ⟨left, m, m', right, hcut, hword, -⟩)
  · obtain ⟨-, hnil⟩ := hlast _ _ _ hcut
    exact hother.ne_nil hm (List.append_eq_nil_iff.mp hnil).1
  · obtain ⟨rfl, -⟩ := hlast _ _ _ hcut
    rw [hstart] at hword
    exact absurd hword Bool.noConfusion

/-! ## The same rule twice -/

/-- The matches are words in a row: a word starts and ends with each of them, and there is at most
one at a place. -/
structure Whole (r : Regex) : Prop where
  left : guardsLeft r = true
  right : guardsRight r = true
  starts : ∀ {before after m}, r.Matches before m after → startsWord false m = true
  ends : ∀ {before after m}, r.Matches before m after → endsWord false m = true
  unique : ∀ {before m rest m' rest'}, m ++ rest = m' ++ rest' →
    r.Matches before m (startsWord false rest) → r.Matches before m' (startsWord false rest') →
      m = m'

/-- The pieces with the marks spelled out, as a second scan sees them. -/
def spell (mark : Mark) (keeps : Text → Bool) : List Piece → List Piece
  | [] => []
  | copied c :: ps => copied c :: spell mark keeps ps
  | found m :: ps =>
      if keeps m then found m :: spell mark keeps ps
      else mark.text.map copied ++ spell mark keeps ps

theorem source_spell (mark : Mark) (keeps : Text → Bool) (ps : List Piece) :
    source (spell mark keeps ps) = render mark (settle keeps ps) := by
  induction ps with
  | nil => rfl
  | cons p ps ih =>
      cases p with
      | copied c => exact congrArg (c :: ·) ih
      | found m =>
          cases hm : keeps m with
          | true =>
              rw [spell, settle, if_pos hm, if_pos hm, source, ih, render_append, render_copied]
          | false =>
              rw [spell, settle, hm, if_neg Bool.false_ne_true, if_neg Bool.false_ne_true,
                source_append, source_copied, ih, render]

theorem render_settle_spell (mark : Mark) (keeps : Text → Bool) (ps : List Piece) :
    render mark (settle keeps (spell mark keeps ps)) = source (spell mark keeps ps) := by
  have hcopied : ∀ (m : Text) (qs : List Piece),
      settle keeps (m.map copied ++ qs) = m.map copied ++ settle keeps qs := by
    intro m qs
    induction m with
    | nil => rfl
    | cons c m ih => exact congrArg (copied c :: ·) ih
  induction ps with
  | nil => rfl
  | cons p ps ih =>
      cases p with
      | copied c => exact congrArg (c :: ·) ih
      | found m =>
          cases hm : keeps m with
          | true =>
              rw [spell, if_pos hm, settle, if_pos hm, render_append, render_copied, source, ih]
          | false =>
              rw [spell, hm, if_neg Bool.false_ne_true, hcopied, render_append, render_copied,
                source_append, source_copied, ih]

/-- The second scan passes over a mark. -/
theorem scanned_mark (hrule : mark.Foreign rule.regex) {ps : List Piece}
    (hps : Scanned rule.regex false ps) (before : Bool) :
    Scanned rule.regex before (mark.text.map copied ++ ps) := by
  have htail : ∀ start tail, mark.text = start ++ tail → ∀ before,
      (tail = [] → before = false) → Scanned rule.regex before (tail.map copied ++ ps) := by
    intro start tail
    induction tail generalizing start with
    | nil =>
        intro _ before hbefore
        rw [hbefore rfl]
        exact hps
    | cons c tail ih =>
        intro htext before _
        change Scanned rule.regex before (copied c :: (tail.map copied ++ ps))
        refine .copied (first_eq_none.mpr fun m rest heq hm => ?_) ?_
        · rw [source_append, source_copied, ← List.cons_append] at heq
          exact mark_ne_append htext (List.cons_ne_nil c tail) (hm.not_mem hrule.opening)
            (hm.not_mem hrule.closing) (hm.exists_not_mem hrule.other) heq
        · refine ih (start ++ [c]) (by rw [htext, List.append_assoc, List.singleton_append]) _ ?_
          rintro rfl
          have hlast : (start ++ [c]).getLast? = some mark.closing := by
            rw [← htext, Mark.text, ← List.cons_append, List.getLast?_concat]
          rw [List.getLast?_concat, Option.some.injEq] at hlast
          rw [hlast]
          exact mark.closing_not_word
  exact htail [] mark.text rfl before (fun h => absurd h (List.cons_ne_nil _ _))

/-- The second scan finds what the first one kept, and nothing else. -/
theorem scanned_spell (hrule : mark.Foreign rule.regex) (hwhole : Whole rule.regex)
    {before before' : Bool} {ps : List Piece} (hps : Scanned rule.regex before ps)
    (hbefore : before' = before ∨ before' = false ∧ startsWord false (source ps) = false) :
    Scanned rule.regex before' (spell mark rule.keeps ps) := by
  induction hps generalizing before' with
  | nil before => exact .nil before'
  | @copied before c ps hnone hps ih =>
      refine .copied (first_eq_none.mpr fun m rest heq hm => ?_) (ih (.inl rfl))
      have hne := hrule.ne_nil hm
      rw [source_spell] at heq
      have htext : render mark (settle rule.keeps (copied c :: ps)) = m ++ rest := heq
      obtain ⟨ps₂, hps₂, rfl⟩ := render_eq_append (hm.not_mem hrule.opening) htext
      have hsource := congrArg source hps₂
      rw [source_settle, source_append, source_copied] at hsource
      have hstart : isWordChar c = true := by
        have hword := hwhole.starts hm
        rwa [startsWord_of_ne_nil hne false (startsWord false (source ps₂)), ← startsWord_append,
          ← hsource, source, startsWord_cons] at hword
      have hend : endsWord before m = true := by
        rw [endsWord_of_ne_nil hne _ false, hwhole.ends hm]
      have hnew : before' = false := by
        refine hm.before_eq_false hwhole.left ?_
        rw [startsWord_of_ne_nil hne _ false, hwhole.starts hm]
      have hold : before = false := by
        rcases hbefore with heq' | ⟨-, hfalse⟩
        · rw [← heq', hnew]
        · rw [source, startsWord_cons, hstart] at hfalse
          exact absurd hfalse Bool.noConfusion
      have hafter : startsWord false (render mark ps₂) = false := by
        refine hm.after_eq_false hwhole.right ?_
        rw [endsWord_of_ne_nil hne _ false, hwhole.ends hm]
      have hclear : startsWord false (source ps₂) = false := by
        rcases startsWord_render mark ps₂ with heq' | ⟨cut, ps₃, rfl, -⟩
        · rw [← heq', hafter]
        · -- A replaced match right behind this one would start inside its word.
          obtain ⟨hcut, hcutne, -⟩ := (Scanned.copied hnone hps).first_of_settle hps₂
          obtain ⟨-, hcutm⟩ := matches_of_first hcut
          have hbetween := hcutm.before_eq_false hwhole.left
            (by rw [startsWord_of_ne_nil hcutne _ false, hwhole.starts hcutm])
          rw [source_copied, hend] at hbetween
          exact absurd hbetween.symm Bool.noConfusion
      refine first_eq_none.mp hnone m (source ps₂) hsource ?_
      rw [hnew, hafter] at hm
      rw [hold, hclear]
      exact hm
  | @found before m ps hne hfirst hps ih =>
      obtain ⟨-, hm⟩ := matches_of_first hfirst
      have hstart : startsWord (startsWord false (source ps)) m = true := by
        rw [startsWord_of_ne_nil hne _ false, hwhole.starts hm]
      have hend : endsWord before m = true := by
        rw [endsWord_of_ne_nil hne _ false, hwhole.ends hm]
      obtain rfl := hm.before_eq_false hwhole.left hstart
      have hafter := hm.after_eq_false hwhole.right hend
      obtain rfl : before' = false := hbefore.elim id And.left
      cases hkeeps : rule.keeps m with
      | true =>
          rw [spell, if_pos hkeeps]
          have hnew : startsWord false (source (spell mark rule.keeps ps)) = false := by
            rw [source_spell]
            rcases startsWord_render mark (settle rule.keeps ps) with heq | ⟨-, -, -, heq⟩
            · rw [heq, source_settle, hafter]
            · exact heq
          refine .found hne ?_ (ih (.inl rfl))
          have hm : rule.regex.Matches false m
              (startsWord false (source (spell mark rule.keeps ps))) := by
            rw [hnew]
            rwa [hafter] at hm
          obtain ⟨⟨m', rest'⟩, hx⟩ := Option.isSome_iff_exists.mp (first_isSome_of_matches hm)
          obtain ⟨htext, hm'⟩ := matches_of_first hx
          obtain rfl := hwhole.unique htext hm hm'
          rw [hx, List.append_cancel_left htext]
      | false =>
          rw [spell, hkeeps, if_neg Bool.false_ne_true]
          exact scanned_mark hrule (ih (.inr ⟨rfl, hafter⟩)) false

/-- A rule whose matches are whole has nothing left to do after one time. -/
theorem replace_replace (hrule : mark.Foreign rule.regex) (hwhole : Whole rule.regex)
    (text : Text) : rule.replace mark (rule.replace mark text) = rule.replace mark text := by
  have hnull := nullable_eq_false hrule.other
  have hspell := scanned_spell hrule hwhole (scanned_pieces hnull text) (.inl rfl)
  have hpieces : pieces rule.regex (rule.replace mark text) =
      spell mark rule.keeps (pieces rule.regex text) := by
    apply (scanned_pieces hnull _).eq_of_source_eq hspell
    rw [source_pieces hnull, source_spell]
    rfl
  have hagain := render_settle_spell mark rule.keeps (pieces rule.regex text)
  rw [source_spell, ← hpieces] at hagain
  exact hagain

end Rule

end Regex
