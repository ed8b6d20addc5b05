import ErrorCore.Foundation.Regex

/-!
# What the shape of a pattern says about its matches

Each test here is computed from the pattern alone and comes with what it means
for every match: characters that do not occur in it, characters it cannot do
without, what it may begin with, and how it sits among the words around it.
-/

/-- The test holds of every ASCII character. -/
def allAscii (q : Char → Bool) : Bool := (List.range 128).all fun n => q (Char.ofNat n)

theorem of_allAscii {q : Char → Bool} (h : allAscii q = true) {c : Char} (hc : c.toNat < 128) :
    q c = true := by
  have hall := List.all_eq_true.mp h c.toNat (List.mem_range.mpr hc)
  rwa [Char.ofNat_toNat] at hall

theorem toNat_lt_of_isAlphanum {c : Char} (h : c.isAlphanum = true) : c.toNat < 128 := by
  have hranges : ((decide ('A'.val ≤ c.val ∧ c.val ≤ 'Z'.val) ||
      decide ('a'.val ≤ c.val) && decide (c.val ≤ 'z'.val)) ||
      decide ('0'.val ≤ c.val) && decide (c.val ≤ '9'.val)) = true := h
  simp only [Bool.or_eq_true, Bool.and_eq_true, decide_eq_true_eq, UInt32.le_iff_toNat_le]
    at hranges
  change c.val.toNat < 128
  have hz : 'z'.val.toNat = 122 := rfl
  have hZ : 'Z'.val.toNat = 90 := rfl
  have h9 : '9'.val.toNat = 57 := rfl
  omega

theorem toNat_lt_of_isWordChar {c : Char} (h : isWordChar c = true) : c.toNat < 128 := by
  rw [isWordChar, Bool.or_eq_true, decide_eq_true_eq] at h
  rcases h with h | rfl
  · exact toNat_lt_of_isAlphanum h
  · decide

namespace Regex

open Text

/-! ## Characters of a match -/

/-- No class of the pattern has the character. -/
def excludes (d : Char) : Regex → Bool
  | empty => true
  | char p => !p d
  | boundary => true
  | seq r s => excludes d r && excludes d s
  | alt r s => excludes d r && excludes d s
  | many p => !p d

theorem Matches.not_mem {r : Regex} {d : Char} (hr : excludes d r = true) {before after : Bool}
    {m : Text} (h : r.Matches before m after) : d ∉ m := by
  induction r generalizing before m after with
  | empty =>
      obtain rfl := h
      exact List.not_mem_nil
  | char p =>
      obtain ⟨c, rfl, hc⟩ := h
      intro hmem
      obtain rfl := List.mem_singleton.mp hmem
      rw [excludes, hc] at hr
      exact Bool.false_ne_true hr
  | boundary =>
      obtain ⟨rfl, -⟩ := h
      exact List.not_mem_nil
  | seq r s ihr ihs =>
      obtain ⟨m₁, m₂, rfl, h₁, h₂⟩ := h
      obtain ⟨hr, hs⟩ := (Bool.and_eq_true _ _).mp hr
      intro hmem
      exact (List.mem_append.mp hmem).elim (ihr hr h₁) (ihs hs h₂)
  | alt r s ihr ihs =>
      obtain ⟨hr, hs⟩ := (Bool.and_eq_true _ _).mp hr
      exact h.elim (ihr hr) (ihs hs)
  | many p =>
      intro hmem
      rw [excludes, h d hmem] at hr
      exact Bool.false_ne_true hr

/-- Every way through the pattern passes a class that has none of the characters. -/
def needsOther (ds : Text) : Regex → Bool
  | empty => false
  | char p => ds.all fun d => !p d
  | boundary => false
  | seq r s => needsOther ds r || needsOther ds s
  | alt r s => needsOther ds r && needsOther ds s
  | many _ => false

theorem Matches.exists_not_mem {r : Regex} {ds : Text} (hr : needsOther ds r = true)
    {before after : Bool} {m : Text} (h : r.Matches before m after) : ∃ c ∈ m, c ∉ ds := by
  induction r generalizing before m after with
  | empty => exact absurd hr Bool.false_ne_true
  | char p =>
      obtain ⟨c, rfl, hc⟩ := h
      refine ⟨c, List.mem_singleton_self c, fun hmem => ?_⟩
      have hnot := List.all_eq_true.mp hr c hmem
      rw [hc] at hnot
      exact Bool.false_ne_true hnot
  | boundary => exact absurd hr Bool.false_ne_true
  | seq r s ihr ihs =>
      obtain ⟨m₁, m₂, rfl, h₁, h₂⟩ := h
      rcases (Bool.or_eq_true _ _).mp hr with hr | hs
      · obtain ⟨c, hc, hds⟩ := ihr hr h₁
        exact ⟨c, List.mem_append_left m₂ hc, hds⟩
      · obtain ⟨c, hc, hds⟩ := ihs hs h₂
        exact ⟨c, List.mem_append_right m₁ hc, hds⟩
  | alt r s ihr ihs =>
      obtain ⟨hr, hs⟩ := (Bool.and_eq_true _ _).mp hr
      exact h.elim (ihr hr) (ihs hs)
  | many p => exact absurd hr Bool.false_ne_true

/-- All classes of the pattern lie in the class. -/
def Within (q : Char → Prop) : Regex → Prop
  | empty => True
  | char p => ∀ c, p c = true → q c
  | boundary => True
  | seq r s => Within q r ∧ Within q s
  | alt r s => Within q r ∧ Within q s
  | many p => ∀ c, p c = true → q c

theorem Matches.forall_mem {q : Char → Prop} {r : Regex} (hr : Within q r)
    {before after : Bool} {m : Text} (h : r.Matches before m after) : ∀ c ∈ m, q c := by
  induction r generalizing before m after with
  | empty =>
      obtain rfl := h
      exact List.forall_mem_nil q
  | char p =>
      obtain ⟨c, rfl, hc⟩ := h
      exact List.forall_mem_singleton.mpr (hr c hc)
  | boundary =>
      obtain ⟨rfl, -⟩ := h
      exact List.forall_mem_nil q
  | seq r s ihr ihs =>
      obtain ⟨m₁, m₂, rfl, h₁, h₂⟩ := h
      exact List.forall_mem_append.mpr ⟨ihr hr.1 h₁, ihs hr.2 h₂⟩
  | alt r s ihr ihs => exact h.elim (ihr hr.1) (ihs hr.2)
  | many p => exact fun c hc => hr c (h c hc)

theorem within_exactly {q : Char → Prop} {r : Regex} (hr : Within q r) (n : Nat) :
    Within q (exactly r n) := by
  induction n with
  | zero => trivial
  | succ n ih => exact ⟨hr, ih⟩

theorem within_upTo {q : Char → Prop} {r : Regex} (hr : Within q r) (n : Nat) :
    Within q (upTo r n) := by
  induction n with
  | zero => trivial
  | succ n ih => exact ⟨⟨hr, ih⟩, trivial⟩

theorem within_between {q : Char → Prop} {r : Regex} (hr : Within q r) (low high : Nat) :
    Within q (between r low high) :=
  ⟨within_exactly hr low, within_upTo hr (high - low)⟩

/-! ## How a match begins -/

def nullable : Regex → Bool
  | empty => true
  | char _ => false
  | boundary => true
  | seq r s => nullable r && nullable s
  | alt r s => nullable r || nullable s
  | many _ => true

theorem nullable_of_matches {r : Regex} {before after : Bool} (h : r.Matches before [] after) :
    nullable r = true := by
  induction r generalizing before after with
  | empty => rfl
  | char p =>
      obtain ⟨c, hnil, -⟩ := h
      exact absurd hnil.symm (List.cons_ne_nil c [])
  | boundary => rfl
  | seq r s ihr ihs =>
      obtain ⟨m₁, m₂, hnil, h₁, h₂⟩ := h
      obtain ⟨rfl, rfl⟩ := List.append_eq_nil_iff.mp hnil.symm
      exact (Bool.and_eq_true _ _).mpr ⟨ihr h₁, ihs h₂⟩
  | alt r s ihr ihs => exact (Bool.or_eq_true _ _).mpr (h.imp ihr ihs)
  | many p => rfl

theorem nullable_eq_false {r : Regex} {ds : Text} (hr : needsOther ds r = true) :
    nullable r = false := by
  induction r with
  | empty => exact absurd hr Bool.false_ne_true
  | char p => rfl
  | boundary => exact absurd hr Bool.false_ne_true
  | seq r s ihr ihs =>
      rw [nullable, Bool.and_eq_false_iff]
      exact ((Bool.or_eq_true _ _).mp hr).imp ihr ihs
  | alt r s ihr ihs =>
      obtain ⟨hr, hs⟩ := (Bool.and_eq_true _ _).mp hr
      rw [nullable, ihr hr, ihs hs, Bool.or_false]
  | many p => exact absurd hr Bool.false_ne_true

/-- A match may begin with the character. -/
def opensWith (d : Char) : Regex → Bool
  | empty => false
  | char p => p d
  | boundary => false
  | seq r s => opensWith d r || nullable r && opensWith d s
  | alt r s => opensWith d r || opensWith d s
  | many p => p d

theorem opensWith_of_matches {r : Regex} {d : Char} {before after : Bool} {m : Text}
    (h : r.Matches before (d :: m) after) : opensWith d r = true := by
  induction r generalizing before m after with
  | empty => exact absurd h (List.cons_ne_nil d m)
  | char p =>
      obtain ⟨c, heq, hc⟩ := h
      obtain ⟨rfl, -⟩ := List.cons.inj heq
      exact hc
  | boundary => exact absurd h.1 (List.cons_ne_nil d m)
  | seq r s ihr ihs =>
      obtain ⟨m₁, m₂, heq, h₁, h₂⟩ := h
      rw [opensWith, Bool.or_eq_true, Bool.and_eq_true]
      cases m₁ with
      | nil =>
          rw [List.nil_append] at heq
          rw [← heq] at h₂
          exact .inr ⟨nullable_of_matches h₁, ihs h₂⟩
      | cons c m₁ =>
          obtain ⟨rfl, -⟩ := List.cons.inj heq
          exact .inl (ihr h₁)
  | alt r s ihr ihs => exact (Bool.or_eq_true _ _).mpr (h.imp ihr ihs)
  | many p => exact h d List.mem_cons_self

/-! ## Neighbours of a match -/

/-- The pattern has no `\b`. -/
def contextFree : Regex → Bool
  | empty => true
  | char _ => true
  | boundary => false
  | seq r s => contextFree r && contextFree s
  | alt r s => contextFree r && contextFree s
  | many _ => true

theorem Matches.of_contextFree {r : Regex} (hr : contextFree r = true)
    {before after : Bool} (before' after' : Bool) {m : Text} (h : r.Matches before m after) :
    r.Matches before' m after' := by
  induction r generalizing before after before' after' m with
  | empty => exact h
  | char p => exact h
  | boundary => exact absurd hr Bool.false_ne_true
  | seq r s ihr ihs =>
      obtain ⟨hr, hs⟩ := (Bool.and_eq_true _ _).mp hr
      obtain ⟨m₁, m₂, hm, h₁, h₂⟩ := h
      exact ⟨m₁, m₂, hm, ihr hr before' _ h₁, ihs hs _ after' h₂⟩
  | alt r s ihr ihs =>
      obtain ⟨hr, hs⟩ := (Bool.and_eq_true _ _).mp hr
      exact h.imp (ihr hr before' after') (ihs hs before' after')
  | many p => exact h

/-- The pattern opens with `\b`, or with a character that is no word character. -/
def guardsLeft : Regex → Bool
  | empty => false
  | char p => allAscii fun c => !(isWordChar c && p c)
  | boundary => true
  | seq r _ => guardsLeft r
  | alt r s => guardsLeft r && guardsLeft s
  | many _ => false

/-- A word that starts with the match starts there. -/
theorem Matches.before_eq_false {r : Regex} (hr : guardsLeft r = true) {before after : Bool}
    {m : Text} (h : r.Matches before m after) (hstart : startsWord after m = true) :
    before = false := by
  induction r generalizing m after with
  | empty => exact absurd hr Bool.false_ne_true
  | char p =>
      obtain ⟨c, rfl, hc⟩ := h
      rw [startsWord_cons] at hstart
      have hnot := of_allAscii hr (toNat_lt_of_isWordChar hstart)
      rw [hstart, hc] at hnot
      exact absurd hnot Bool.false_ne_true
  | boundary =>
      obtain ⟨rfl, hne⟩ := h
      rw [startsWord_nil] at hstart
      rw [hstart] at hne
      exact Bool.eq_false_iff.mpr hne
  | seq r s ihr ihs =>
      obtain ⟨m₁, m₂, rfl, h₁, h₂⟩ := h
      rw [startsWord_append] at hstart
      exact ihr hr h₁ hstart
  | alt r s ihr ihs =>
      obtain ⟨hr, hs⟩ := (Bool.and_eq_true _ _).mp hr
      exact h.elim (ihr hr · hstart) (ihs hs · hstart)
  | many p => exact absurd hr Bool.false_ne_true

/-- The pattern closes with `\b`, or with a character that is no word character. -/
def guardsRight : Regex → Bool
  | empty => false
  | char p => allAscii fun c => !(isWordChar c && p c)
  | boundary => true
  | seq _ s => guardsRight s
  | alt r s => guardsRight r && guardsRight s
  | many _ => false

/-- A word that ends with the match ends there. -/
theorem Matches.after_eq_false {r : Regex} (hr : guardsRight r = true) {before after : Bool}
    {m : Text} (h : r.Matches before m after) (hend : endsWord before m = true) :
    after = false := by
  induction r generalizing before m with
  | empty => exact absurd hr Bool.false_ne_true
  | char p =>
      obtain ⟨c, rfl, hc⟩ := h
      have hword : isWordChar c = true := hend
      have hnot := of_allAscii hr (toNat_lt_of_isWordChar hword)
      rw [hword, hc] at hnot
      exact absurd hnot Bool.false_ne_true
  | boundary =>
      obtain ⟨rfl, hne⟩ := h
      rw [endsWord_nil] at hend
      rw [hend] at hne
      exact Bool.eq_false_iff.mpr hne.symm
  | seq r s ihr ihs =>
      obtain ⟨m₁, m₂, rfl, h₁, h₂⟩ := h
      rw [endsWord_append] at hend
      exact ihs hr h₂ hend
  | alt r s ihr ihs =>
      obtain ⟨hr, hs⟩ := (Bool.and_eq_true _ _).mp hr
      exact h.elim (ihr hr · hend) (ihs hs · hend)
  | many p => exact absurd hr Bool.false_ne_true

/-! ## A greedy end -/

/-- The pattern closes with a repetition of a class that has all letters and digits. -/
def endsGreedily : Regex → Bool
  | seq _ s => endsGreedily s
  | many p => allAscii fun c => !c.isAlphanum || p c
  | _ => false

theorem greedy_stops {p : Char → Bool} {text m : Text} {c : Char} {rest : Text}
    (h : (greedy p text).head? = some (m, c :: rest)) : p c = false := by
  induction text generalizing m with
  | nil =>
      rw [greedy, List.head?_cons, Option.some.injEq, Prod.mk.injEq] at h
      exact absurd h.2.symm (List.cons_ne_nil c rest)
  | cons d text ih =>
      cases hd : p d with
      | false =>
          rw [greedy, hd, if_neg Bool.false_ne_true, List.head?_cons, Option.some.injEq,
            Prod.mk.injEq] at h
          obtain ⟨rfl, -⟩ := List.cons.inj h.2
          exact hd
      | true =>
          rw [greedy, hd, if_pos rfl] at h
          cases hgreedy : greedy p text with
          | nil =>
              have hempty : ([], text) ∈ greedy p text :=
                mem_greedy.mpr ⟨rfl, fun c hc => absurd hc List.not_mem_nil⟩
              rw [hgreedy] at hempty
              exact absurd hempty List.not_mem_nil
          | cons x xs =>
              rw [hgreedy] at h ih
              obtain ⟨m', rest'⟩ := x
              obtain ⟨-, rfl⟩ := Prod.mk.inj (Option.some.inj h)
              exact ih rfl

theorem first_seq {r s : Regex} {before : Bool} {text m rest : Text}
    (h : (seq r s).first before text = some (m, rest)) :
    ∃ m₁ m₂ rest₁, s.first (endsWord before m₁) rest₁ = some (m₂, rest) := by
  rw [first, results] at h
  generalize r.results before text = xs at h
  induction xs with
  | nil =>
      rw [List.flatMap_nil, List.head?_nil] at h
      exact absurd h.symm (Option.some_ne_none _)
  | cons x xs ih =>
      rw [List.flatMap_cons] at h
      cases hs : s.results (endsWord before x.1) x.2 with
      | nil =>
          rw [hs, List.map_nil, List.nil_append] at h
          exact ih h
      | cons y ys =>
          rw [hs, List.map_cons, List.cons_append, List.head?_cons] at h
          obtain ⟨-, hrest⟩ := Prod.mk.inj (Option.some.inj h)
          refine ⟨x.1, y.1, x.2, ?_⟩
          rw [first, hs, List.head?_cons, ← hrest]

/-- No letter and no digit stands behind a match with a greedy end. -/
theorem isAlphanum_after {r : Regex} (hr : endsGreedily r = true) {before : Bool}
    {text m : Text} {c : Char} {rest : Text}
    (h : r.first before text = some (m, c :: rest)) : c.isAlphanum = false := by
  induction r generalizing before text m with
  | empty => exact absurd hr Bool.false_ne_true
  | char p => exact absurd hr Bool.false_ne_true
  | boundary => exact absurd hr Bool.false_ne_true
  | seq r s ihr ihs =>
      obtain ⟨m₁, m₂, rest₁, hs⟩ := first_seq h
      exact ihs hr hs
  | alt r s ihr ihs => exact absurd hr Bool.false_ne_true
  | many p =>
      have hstop := greedy_stops h
      cases hc : c.isAlphanum with
      | false => rfl
      | true =>
          have hp := of_allAscii hr (toNat_lt_of_isAlphanum hc)
          rw [hc, hstop] at hp
          exact absurd hp Bool.false_ne_true

end Regex
