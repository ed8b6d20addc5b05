import ErrorCore.Pii.Patterns
import ErrorCore.Pii.Scrubber

/-!
# String patterns

`scrubStringPatterns` of `src/pii/scrubber.ts`. A quick test for all patterns at
once comes first. Then each rule replaces its matches in what the earlier rules
have left, and a text that as a whole looks like a secret is replaced at last.

Running it again changes nothing, unless the rule for GitHub tokens or the one
for phone numbers has uncovered a match: only their patterns may begin or end
inside a word. The entropy of a text, a sum of floating point numbers, is a
parameter.
-/

namespace ErrorCore

open Regex Text

/-- `highEntropy` tells whether `shannonEntropy(value) >= 4.2`. -/
def looksLikeHighEntropySecret (highEntropy : Text → Bool) (value : Text) : Bool :=
  24 ≤ utf16Length value && utf16Length value ≤ 4096 &&
    value.all (fun c => c.isAlphanum || oneOf "+/=_-" c) && highEntropy value

def githubRule : Rule := patternRule GITHUB_TOKEN_REGEX

def phoneRule : Rule := patternRule PHONE_REGEX

def emailRule : Rule := patternRule EMAIL_REGEX

def rulesAfterEmail : List Rule :=
  [creditCardRule, patternRule SSN_REGEX, patternRule JWT_REGEX, patternRule BEARER_REGEX,
    patternRule BASIC_AUTH_REGEX, patternRule AWS_ACCESS_KEY_REGEX]

def rulesBeforeGithub : List Rule := emailRule :: rulesAfterEmail

def rulesAfterGithub : List Rule :=
  [patternRule STRIPE_KEY_REGEX, patternRule GENERIC_SK_KEY_REGEX]

def rulesBeforePhone : List Rule := rulesBeforeGithub ++ [githubRule] ++ rulesAfterGithub

/-- The rules in the order in which they are applied. -/
def scrubbingRules : List Rule := rulesBeforePhone ++ [phoneRule] ++ [ipv4Rule]

/-- One rule after the other, each on what the one before has left. -/
def replaceEach (rules : List Rule) (value : Text) : Text :=
  rules.foldl (fun scrubbed rule => rule.replace redactedMark scrubbed) value

def scrubStringPatterns (highEntropy : Text → Bool) (value : Text) : Text :=
  if COMBINED_QUICK_TEST_REGEX.test false value = false then
    if looksLikeHighEntropySecret highEntropy value then REDACTED else value
  else
    let scrubbed := replaceEach scrubbingRules value
    if looksLikeHighEntropySecret highEntropy scrubbed then REDACTED else scrubbed

/-! ## The rules and the marks they leave -/

/-- What the shape of a pattern has to be for a text to stay quiet while marks are put into it. -/
def hasCarefulShape (r : Regex) : Bool :=
  excludes redactedMark.opening r && excludes redactedMark.closing r &&
    needsOther redactedMark.inner r && (contextFree r || !opensWith '_' r)

theorem hasCarefulShape_of_mem : ∀ rule ∈ scrubbingRules, hasCarefulShape rule.regex = true := by
  decide +kernel

theorem foreign_of_hasCarefulShape {r : Regex} (h : hasCarefulShape r = true) :
    redactedMark.Foreign r := by
  simp only [hasCarefulShape, Bool.and_eq_true] at h
  exact ⟨h.1.1.1, h.1.1.2, h.1.2⟩

theorem foreign_of_mem {rule : Rule} (h : rule ∈ scrubbingRules) :
    redactedMark.Foreign rule.regex :=
  foreign_of_hasCarefulShape (hasCarefulShape_of_mem rule h)

/-- What lets a text stay quiet for the rule while later rules replace their matches. -/
structure Careful (rule : Rule) : Prop where
  foreign : redactedMark.Foreign rule.regex
  opens : contextFree rule.regex = true ∨ opensWith '_' rule.regex = false
  keeps : rule.KeepsWhole

theorem keepsWhole_patternRule (pattern : Regex) : (patternRule pattern).KeepsWhole :=
  Rule.keepsWhole_of_forall fun _ => rfl

/-- All rules up to the one for phone numbers. -/
def rulesThroughPhone : List Rule := rulesBeforePhone ++ [phoneRule]

theorem keepsWhole_of_mem : ∀ rule ∈ rulesThroughPhone, rule.KeepsWhole := by
  simp only [rulesThroughPhone, rulesBeforePhone, rulesBeforeGithub, rulesAfterEmail,
    rulesAfterGithub, emailRule, githubRule, phoneRule, List.forall_mem_append,
    List.forall_mem_cons]
  simp only [keepsWhole_patternRule, creditCardRule_keepsWhole, List.not_mem_nil, false_implies,
    implies_true, and_self]

theorem careful_of_mem : ∀ rule ∈ rulesThroughPhone, Careful rule := by
  intro rule hrule
  have hshape := hasCarefulShape_of_mem rule (List.mem_append_left [ipv4Rule] hrule)
  refine ⟨foreign_of_hasCarefulShape hshape, ?_, keepsWhole_of_mem rule hrule⟩
  rw [hasCarefulShape, Bool.and_eq_true, Bool.or_eq_true, Bool.not_eq_true'] at hshape
  exact hshape.2

theorem ipv4_foreign : redactedMark.Foreign ipv4Rule.regex :=
  foreign_of_mem (List.mem_append_right _ (List.mem_singleton_self ipv4Rule))

theorem standsFree_of_mem :
    ∀ rule ∈ rulesAfterEmail ++ rulesAfterGithub ++ [ipv4Rule],
      Rule.standsFree rule.regex = true := by
  decide +kernel

theorem guardsRight_github : guardsRight githubRule.regex = true := by decide +kernel

theorem guardsLeft_phone : guardsLeft phoneRule.regex = true := by decide

/-! ## A run of the rules -/

def QuietFor (rules : List Rule) (text : Text) : Prop := ∀ rule ∈ rules, rule.Quiet text

/-- What a rule does to the matches of those before it and to its own. -/
theorem quietFor_snoc {done : List Rule} {rule : Rule} {text : Text} (hrule : Careful rule)
    (h : QuietFor done text)
    (hstep : ∀ other ∈ done ++ [rule], QuietIn other (rule.cuts text) →
      other.Quiet (rule.replace redactedMark text)) :
    QuietFor (done ++ [rule]) (rule.replace redactedMark text) := by
  intro other hother
  apply hstep other hother
  rcases List.mem_append.mp hother with hmem | hmem
  · exact Rule.Quiet.quietIn_cuts hrule.foreign (h other hmem)
  · obtain rfl := List.mem_singleton.mp hmem
    exact Rule.quietIn_own_cuts hrule.foreign hrule.keeps text

theorem mem_email : emailRule ∈ rulesThroughPhone := List.mem_cons_self

theorem quietFor_email (text : Text) :
    QuietFor [emailRule] (emailRule.replace redactedMark text) := by
  have careful_email := careful_of_mem emailRule mem_email
  change QuietFor ([] ++ [emailRule]) (emailRule.replace redactedMark text)
  refine quietFor_snoc careful_email (List.forall_mem_nil _) ?_
  intro other hother hin
  obtain rfl := List.mem_singleton.mp hother
  exact quiet_render_of_contextFree careful_email.foreign (by decide) hin

/-- Rules whose matches stand free keep the text quiet for all that have run. -/
theorem quietFor_replaceEach {done rules : List Rule} {text : Text}
    (hdone : ∀ rule ∈ done, Careful rule) (hrules : ∀ rule ∈ rules, Careful rule)
    (hfree : ∀ rule ∈ rules, Rule.standsFree rule.regex = true) (h : QuietFor done text) :
    QuietFor (done ++ rules) (replaceEach rules text) := by
  induction rules generalizing done text with
  | nil =>
      rw [List.append_nil]
      exact h
  | cons rule rules ih =>
      have hrule := hrules rule List.mem_cons_self
      have hcareful : ∀ other ∈ done ++ [rule], Careful other :=
        List.forall_mem_append.mpr ⟨hdone, List.forall_mem_singleton.mpr hrule⟩
      have hstep : QuietFor (done ++ [rule]) (rule.replace redactedMark text) :=
        quietFor_snoc hrule h fun other hother hin =>
          Rule.quiet_replace_of_standsFree hrule.foreign (hcareful other hother).foreign
            (hfree rule List.mem_cons_self) (hcareful other hother).opens hin
      have hrest := ih hcareful (fun other hother => hrules other (List.mem_cons_of_mem _ hother))
        (fun other hother => hfree other (List.mem_cons_of_mem _ hother)) hstep
      rwa [List.append_assoc, List.singleton_append] at hrest

/-- So does a rule that uncovers nothing. -/
theorem quietFor_of_not_uncovers {done : List Rule} {rule : Rule} {text : Text}
    (hdone : ∀ rule ∈ done, Careful rule) (hrule : Careful rule)
    (hside : guardsLeft rule.regex = true ∨ guardsRight rule.regex = true)
    (h : QuietFor done text) (hnot : ∀ other ∈ done ++ [rule], ¬ rule.Uncovers other text) :
    QuietFor (done ++ [rule]) (rule.replace redactedMark text) := by
  have hcareful : ∀ other ∈ done ++ [rule], Careful other :=
    List.forall_mem_append.mpr ⟨hdone, List.forall_mem_singleton.mpr hrule⟩
  exact quietFor_snoc hrule h fun other hother hin =>
    Rule.quiet_replace_of_not_uncovers hrule.foreign (hcareful other hother).foreign hside
      (hcareful other hother).opens hin (hnot other hother)

theorem mem_of_mem_beforePhone {rule : Rule} (h : rule ∈ rulesBeforePhone) :
    rule ∈ rulesThroughPhone :=
  List.mem_append_left _ h

theorem mem_of_mem_beforeGithub {rule : Rule} (h : rule ∈ rulesBeforeGithub) :
    rule ∈ rulesThroughPhone :=
  mem_of_mem_beforePhone (List.mem_append_left _ (List.mem_append_left _ h))

theorem mem_of_mem_afterGithub {rule : Rule} (h : rule ∈ rulesAfterGithub) :
    rule ∈ rulesThroughPhone :=
  mem_of_mem_beforePhone (List.mem_append_right _ h)

theorem mem_github : githubRule ∈ rulesThroughPhone :=
  mem_of_mem_beforePhone
    (List.mem_append_left _ (List.mem_append_right _ (List.mem_singleton_self githubRule)))

theorem replaceEach_cons (rule : Rule) (rules : List Rule) (value : Text) :
    replaceEach (rule :: rules) value = replaceEach rules (rule.replace redactedMark value) :=
  rfl

theorem replaceEach_append (rules rules' : List Rule) (value : Text) :
    replaceEach (rules ++ rules') value = replaceEach rules' (replaceEach rules value) :=
  List.foldl_append

theorem replaceEach_snoc (rules : List Rule) (rule : Rule) (value : Text) :
    replaceEach (rules ++ [rule]) value = rule.replace redactedMark (replaceEach rules value) :=
  replaceEach_append rules [rule] value

theorem quietFor_beforeGithub (value : Text) :
    QuietFor rulesBeforeGithub (replaceEach rulesBeforeGithub value) := by
  rw [rulesBeforeGithub, replaceEach_cons, ← List.singleton_append]
  apply quietFor_replaceEach _ _ _ (quietFor_email value)
  · exact List.forall_mem_singleton.mpr (careful_of_mem emailRule mem_email)
  · intro rule hrule
    exact careful_of_mem rule (mem_of_mem_beforeGithub (List.mem_cons_of_mem _ hrule))
  · intro rule hrule
    exact standsFree_of_mem rule (List.mem_append_left _ (List.mem_append_left _ hrule))

/-- The rules that have run by the time of the one for phone numbers find nothing in the text. -/
theorem quietFor_beforePhone {value : Text}
    (hgithub : ∀ rule ∈ rulesBeforeGithub ++ [githubRule],
      ¬ githubRule.Uncovers rule (replaceEach rulesBeforeGithub value)) :
    QuietFor rulesBeforePhone (replaceEach rulesBeforePhone value) := by
  have hbefore : ∀ rule ∈ rulesBeforeGithub, Careful rule := fun rule hrule =>
    careful_of_mem rule (mem_of_mem_beforeGithub hrule)
  have hcareful := careful_of_mem githubRule mem_github
  have hstep := quietFor_of_not_uncovers hbefore hcareful (.inr guardsRight_github)
    (quietFor_beforeGithub value) hgithub
  rw [rulesBeforePhone, replaceEach_append, replaceEach_snoc]
  apply quietFor_replaceEach _ _ _ hstep
  · exact List.forall_mem_append.mpr ⟨hbefore, List.forall_mem_singleton.mpr hcareful⟩
  · intro rule hrule
    exact careful_of_mem rule (mem_of_mem_afterGithub hrule)
  · intro rule hrule
    exact standsFree_of_mem rule (List.mem_append_left _ (List.mem_append_right _ hrule))

/-- No rule changes what all of them have left. -/
theorem replace_replaceEach {value : Text}
    (hgithub : ∀ rule ∈ rulesBeforeGithub ++ [githubRule],
      ¬ githubRule.Uncovers rule (replaceEach rulesBeforeGithub value))
    (hphone : ∀ rule ∈ rulesBeforePhone ++ [phoneRule],
      ¬ phoneRule.Uncovers rule (replaceEach rulesBeforePhone value)) :
    ∀ rule ∈ scrubbingRules,
      rule.replace redactedMark (replaceEach scrubbingRules value) =
        replaceEach scrubbingRules value := by
  have hmem : phoneRule ∈ rulesThroughPhone :=
    List.mem_append_right _ (List.mem_singleton_self phoneRule)
  have hquiet := quietFor_of_not_uncovers
    (fun rule hrule => careful_of_mem rule (mem_of_mem_beforePhone hrule))
    (careful_of_mem phoneRule hmem) (.inl guardsLeft_phone) (quietFor_beforePhone hgithub) hphone
  rw [scrubbingRules, replaceEach_snoc, replaceEach_snoc]
  intro rule hrule
  rcases List.mem_append.mp hrule with hrule | hrule
  · have hcareful := careful_of_mem rule hrule
    apply Rule.replace_eq_self hcareful.foreign
    apply Rule.quiet_replace_of_standsFree ipv4_foreign hcareful.foreign _ hcareful.opens
    · exact Rule.Quiet.quietIn_cuts ipv4_foreign (hquiet rule hrule)
    · exact standsFree_of_mem ipv4Rule (List.mem_append_right _ (List.mem_singleton_self ipv4Rule))
  · obtain rfl := List.mem_singleton.mp hrule
    exact Rule.replace_replace ipv4_foreign ipv4_whole _

theorem replaceEach_eq_self {rules : List Rule} {value : Text}
    (h : ∀ rule ∈ rules, rule.replace redactedMark value = value) :
    replaceEach rules value = value := by
  induction rules with
  | nil => rfl
  | cons rule rules ih =>
      have hrest := ih fun other hother => h other (List.mem_cons_of_mem _ hother)
      rw [replaceEach_cons, h rule List.mem_cons_self]
      exact hrest

/-! ## The quick test -/

/-- What a rule matches, the quick test matches. -/
def Tested (rule : Rule) : Prop :=
  ∃ source ∈ quickTestSources, rule.regex = source ∨ rule.regex = ignoreCase source

theorem tested_of_mem : ∀ rule ∈ scrubbingRules, Tested rule := by
  have hsame : ∀ pattern ∈ quickTestSources, Tested (patternRule pattern) := fun pattern hmem =>
    ⟨pattern, hmem, .inl rfl⟩
  have hignore : ∀ pattern ∈ quickTestSources, Tested (patternRule (ignoreCase pattern)) :=
    fun pattern hmem => ⟨pattern, hmem, .inr rfl⟩
  have hcard : Tested creditCardRule := ⟨CREDIT_CARD_REGEX, by simp [quickTestSources], .inl rfl⟩
  have hip : Tested ipv4Rule := ⟨IPV4_REGEX, by simp [quickTestSources], .inl rfl⟩
  simp only [quickTestSources, List.forall_mem_cons] at hsame hignore
  obtain ⟨hemail, hssn, hjwt, -, -, haws, hgithub, hstripe, hsk, hphone, -⟩ := hsame
  obtain ⟨-, -, -, hbearer, hbasic, -⟩ := hignore
  simp only [scrubbingRules, rulesBeforePhone, rulesBeforeGithub, rulesAfterEmail,
    rulesAfterGithub, List.forall_mem_append, List.forall_mem_cons]
  exact ⟨⟨⟨⟨⟨hemail, hcard, hssn, hjwt, hbearer, hbasic, haws, List.forall_mem_nil _⟩,
    hgithub, List.forall_mem_nil _⟩, hstripe, hsk, List.forall_mem_nil _⟩,
    hphone, List.forall_mem_nil _⟩, hip, List.forall_mem_nil _⟩

theorem matches_quickTest {rule : Rule} (hrule : Tested rule) {before after : Bool} {m : Text}
    (h : rule.regex.Matches before m after) :
    COMBINED_QUICK_TEST_REGEX.Matches before m after := by
  obtain ⟨source, hmem, heq | heq⟩ := hrule
  · rw [heq] at h
    exact ignoreCase_matches_alternatives hmem h.ignoreCase
  · rw [heq] at h
    exact ignoreCase_matches_alternatives hmem h

/-- A text that fails the quick test is not changed by any rule. -/
theorem replace_of_quickTest {value : Text}
    (h : COMBINED_QUICK_TEST_REGEX.test false value = false) :
    ∀ rule ∈ scrubbingRules, rule.replace redactedMark value = value := by
  intro rule hrule
  apply Rule.replace_eq_self (foreign_of_mem hrule)
  intro left m right hvalue hm
  have htest := test_of_matches (matches_quickTest (tested_of_mem rule hrule) hm)
  rw [← hvalue, h] at htest
  exact absurd htest Bool.noConfusion

/-! ## The whole function -/

/-- Scrubbing again changes nothing, no rule finds something to replace, and a text that fails the
quick test has nothing to replace either. -/
def LeavesNoResidue (highEntropy : Text → Bool) (value : Text) : Prop :=
  let scrubbed := scrubStringPatterns highEntropy value
  scrubStringPatterns highEntropy scrubbed = scrubbed ∧
    (∀ rule ∈ scrubbingRules, rule.replace redactedMark scrubbed = scrubbed) ∧
    (COMBINED_QUICK_TEST_REGEX.test false value = false →
      ∀ rule ∈ scrubbingRules, rule.replace redactedMark value = value)

/-- The text is changed by no rule and does not look like a secret. -/
def FullyScrubbed (highEntropy : Text → Bool) (value : Text) : Prop :=
  (∀ rule ∈ scrubbingRules, rule.replace redactedMark value = value) ∧
    looksLikeHighEntropySecret highEntropy value = false

theorem scrubStringPatterns_of_fullyScrubbed {highEntropy : Text → Bool} {value : Text}
    (h : FullyScrubbed highEntropy value) : scrubStringPatterns highEntropy value = value := by
  obtain ⟨hreplace, hentropy⟩ := h
  have hpick : (if looksLikeHighEntropySecret highEntropy value = true then REDACTED else value) =
      value := if_neg (Bool.eq_false_iff.mp hentropy)
  by_cases htest : COMBINED_QUICK_TEST_REGEX.test false value = false
  · rw [scrubStringPatterns, if_pos htest, hpick]
  · rw [scrubStringPatterns, if_neg htest, replaceEach_eq_self hreplace, hpick]

theorem redactedMark_text : redactedMark.text = REDACTED := by decide +kernel

theorem fullyScrubbed_redacted (highEntropy : Text → Bool) :
    FullyScrubbed highEntropy REDACTED := by
  constructor
  · intro rule hrule
    have hforeign := foreign_of_mem hrule
    rw [← redactedMark_text]
    exact Rule.replace_eq_self hforeign (Rule.quiet_mark hforeign)
  · have hlength : utf16Length REDACTED = 10 := by decide +kernel
    rw [looksLikeHighEntropySecret, hlength]
    rfl

/-- The function returns a fully scrubbed text once its rules do. -/
theorem fullyScrubbed_scrubStringPatterns {highEntropy : Text → Bool} {value : Text}
    (h : ∀ rule ∈ scrubbingRules, rule.replace redactedMark (replaceEach scrubbingRules value) =
      replaceEach scrubbingRules value) :
    FullyScrubbed highEntropy (scrubStringPatterns highEntropy value) := by
  have hpick : ∀ text, (∀ rule ∈ scrubbingRules, rule.replace redactedMark text = text) →
      FullyScrubbed highEntropy
        (if looksLikeHighEntropySecret highEntropy text = true then REDACTED else text) := by
    intro text htext
    split
    · exact fullyScrubbed_redacted highEntropy
    · next hentropy => exact ⟨htext, Bool.eq_false_iff.mpr hentropy⟩
  by_cases htest : COMBINED_QUICK_TEST_REGEX.test false value = false
  · rw [scrubStringPatterns, if_pos htest]
    exact hpick value (replace_of_quickTest htest)
  · rw [scrubStringPatterns, if_neg htest]
    exact hpick _ h

/-- Scrubbing leaves no residue when no replaced GitHub token and no replaced phone number uncovers
a match of a rule that has run by then. -/
theorem scrubStringPatterns_leavesNoResidue (highEntropy : Text → Bool) (value : Text)
    (hgithub : ∀ rule ∈ rulesBeforeGithub ++ [githubRule],
      ¬ githubRule.Uncovers rule (replaceEach rulesBeforeGithub value))
    (hphone : ∀ rule ∈ rulesBeforePhone ++ [phoneRule],
      ¬ phoneRule.Uncovers rule (replaceEach rulesBeforePhone value)) :
    LeavesNoResidue highEntropy value := by
  have hscrubbed : FullyScrubbed highEntropy (scrubStringPatterns highEntropy value) :=
    fullyScrubbed_scrubStringPatterns (replace_replaceEach hgithub hphone)
  exact ⟨scrubStringPatterns_of_fullyScrubbed hscrubbed, hscrubbed.1, replace_of_quickTest⟩

theorem scrubStringPatterns_leavesNoResidue_contact :
    LeavesNoResidue (fun _ => false) "bob@example.com or +12345678901" := by
  apply scrubStringPatterns_leavesNoResidue
  · intro rule _
    have hcuts : githubRule.cuts
        (replaceEach rulesBeforeGithub "bob@example.com or +12345678901") =
          ("[REDACTED] or +12345678901" : Text).map Piece.copied := by
      decide +kernel
    exact Rule.not_uncovers_of_copied hcuts
  · intro rule hrule
    have hcuts : phoneRule.cuts (replaceEach rulesBeforePhone "bob@example.com or +12345678901") =
        ("[REDACTED] or " : Text).map Piece.copied ++ [Piece.found "+12345678901"] := by
      decide +kernel
    exact Rule.not_uncovers_of_last (careful_of_mem rule hrule).foreign hcuts (by decide)

/-- A phone number swallows the first digits of what is left as a social security number. -/
theorem scrubStringPatterns_leaves_ssn :
    ¬ ∀ highEntropy value, LeavesNoResidue highEntropy value := by
  intro h
  have hagain := (h (fun _ => false) "+1234567890123123-45-6789").1
  exact absurd hagain (by decide +kernel)

end ErrorCore
