import ErrorCore.Foundation.Regex.Quiet

/-!
# The patterns of sensitive text

The regular expressions of `src/pii/patterns.ts` with the checks on what they
match, and the rules that `scrubStringPatterns` makes of them. What the rest of
the development uses of a pattern is read off its shape below: the marks left by
earlier rules are never part of a match, and all matches stand apart from the
words around them, but for e-mail addresses, fine-grained GitHub tokens and
phone numbers.
-/

namespace ErrorCore

open Regex Text

/-- `\d` -/
def digit : Regex := char Char.isDigit

def EMAIL_REGEX : Regex :=
  chain
    [oneOrMore fun c => c.isAlphanum || oneOf "._%+-" c,
      char (· = '@'),
      oneOrMore fun c => c.isAlphanum || oneOf ".-" c,
      char (· = '.'),
      atLeast Char.isAlpha 2]

def CREDIT_CARD_REGEX : Regex := chain [boundary, between digit 13 19, boundary]

def SSN_REGEX : Regex :=
  chain
    [boundary, exactly digit 3, char (· = '-'), exactly digit 2, char (· = '-'), exactly digit 4,
      boundary]

/-- `[a-zA-Z0-9_-]` -/
def isBase64UrlChar (c : Char) : Bool := c.isAlphanum || oneOf "_-" c

def JWT_REGEX : Regex :=
  chain
    [boundary, literal "eyJ", oneOrMore isBase64UrlChar, char (· = '.'), literal "eyJ",
      oneOrMore isBase64UrlChar, char (· = '.'), oneOrMore isBase64UrlChar, boundary]

/-- The source of `BEARER_REGEX`. -/
def bearerSource : Regex :=
  chain
    [boundary, literal "Bearer", oneOrMore isWhitespace,
      oneOrMore fun c => c.isAlphanum || oneOf "_-.~+/=" c]

def BEARER_REGEX : Regex := ignoreCase bearerSource

/-- The source of `BASIC_AUTH_REGEX`. -/
def basicAuthSource : Regex :=
  chain
    [boundary, literal "Basic", oneOrMore isWhitespace,
      oneOrMore fun c => c.isAlphanum || oneOf "+/=" c]

def BASIC_AUTH_REGEX : Regex := ignoreCase basicAuthSource

def AWS_ACCESS_KEY_REGEX : Regex :=
  chain
    [boundary, alt (literal "AKIA") (literal "ASIA"),
      exactly (char fun c => c.isUpper || c.isDigit) 16, boundary]

def GITHUB_TOKEN_REGEX : Regex :=
  alt
    (chain
      [boundary, alt (literal "ghp") (literal "gho"), char (· = '_'),
        between (char Char.isAlphanum) 20 255, boundary])
    (chain
      [literal "github_pat_", between (char fun c => c.isAlphanum || c = '_') 20 255, boundary])

def STRIPE_KEY_REGEX : Regex :=
  chain
    [boundary, alt (literal "sk") (literal "rk"), char (· = '_'),
      alt (literal "live") (literal "test"), char (· = '_'), atLeast Char.isAlphanum 16, boundary]

def GENERIC_SK_KEY_REGEX : Regex :=
  chain [boundary, literal "sk-", atLeast Char.isAlphanum 10, boundary]

/-- `[\s().-]` -/
def isPhoneSeparator (c : Char) : Bool := isWhitespace c || oneOf "().-" c

/-- `[\s().-]*\d` -/
def separatedDigit : Regex := seq (many isPhoneSeparator) digit

def PHONE_REGEX : Regex :=
  alternatives
    [chain [char (· = '+'), between digit 1 3, separatedDigit, between separatedDigit 7 9],
      chain
        [char (· = '('), between digit 2 4, char (· = ')'), separatedDigit,
          between separatedDigit 5 7],
      chain
        [boundary, exactly digit 3, char isPhoneSeparator, exactly digit 3, char isPhoneSeparator,
          atLeast Char.isDigit 4, boundary]]

def IPV4_REGEX : Regex :=
  chain
    [boundary, exactly (seq (between digit 1 3) (char (· = '.'))) 3, between digit 1 3, boundary]

/-- The sources that `COMBINED_QUICK_TEST_REGEX` joins. -/
def quickTestSources : List Regex :=
  [EMAIL_REGEX, SSN_REGEX, JWT_REGEX, bearerSource, basicAuthSource, AWS_ACCESS_KEY_REGEX,
    GITHUB_TOKEN_REGEX, STRIPE_KEY_REGEX, GENERIC_SK_KEY_REGEX, PHONE_REGEX, IPV4_REGEX,
    CREDIT_CARD_REGEX]

def COMBINED_QUICK_TEST_REGEX : Regex := ignoreCase (alternatives quickTestSources)

/-! ## Checks on a match -/

/-- The sum of the loop over the digits, the last digit first. -/
def luhnSum : Bool → Text → Nat
  | _, [] => 0
  | shouldDouble, d :: ds =>
      let digit := d.toNat - 48
      let digit := if shouldDouble then digit * 2 else digit
      (if 9 < digit then digit - 9 else digit) + luhnSum (!shouldDouble) ds

def isValidLuhn (digits : Text) : Bool :=
  13 ≤ digits.length && digits.length ≤ 19 && digits.all Char.isDigit &&
    luhnSum false digits.reverse % 10 = 0

/-- `Number.parseInt(part, 10)` for a part of a match, which has digits only. -/
def parseOctet (part : Text) : Option Nat :=
  match part.takeWhile Char.isDigit with
  | [] => none
  | digits => some (digits.foldl (fun n c => n * 10 + (c.toNat - 48)) 0)

def isPrivateOrInfrastructureIp (ip : Text) : Bool :=
  match (Text.split '.' ip).map parseOctet with
  | [some a, some b, some c, some d] =>
      if 255 < a ∨ 255 < b ∨ 255 < c ∨ 255 < d then false
      else
        a = 0 || a = 10 || a = 127 || (a = 169 && b = 254) || (a = 172 && 16 ≤ b && b ≤ 31) ||
          (a = 192 && b = 168) || (224 ≤ a && a ≤ 239) || (a = 100 && 64 ≤ b && b ≤ 127)
  | _ => false

/-! ## Rules -/

/-- `[REDACTED]` -/
def redactedMark : Mark where
  opening := '['
  inner := "REDACTED"
  closing := ']'
  opening_not_word := by decide
  closing_not_word := by decide

/-- `value.replace(pattern, REDACTED)` -/
def patternRule (pattern : Regex) : Rule where
  regex := pattern
  keeps := fun _ => false

/-- The rule of `replaceCreditCards`. -/
def creditCardRule : Rule where
  regex := CREDIT_CARD_REGEX
  keeps := fun m => !isValidLuhn m

/-- The rule for public addresses. -/
def ipv4Rule : Rule where
  regex := IPV4_REGEX
  keeps := isPrivateOrInfrastructureIp

/-! ## What the rules match -/

theorem isWordChar_of_isDigit {c : Char} (h : c.isDigit = true) : isWordChar c = true := by
  rw [isWordChar, Char.isAlphanum, h, Bool.or_true, Bool.true_or]

theorem within_digit : Within (fun c => c.isDigit = true) digit := fun _ hc => hc

theorem within_creditCard : Within (fun c => c.isDigit = true) CREDIT_CARD_REGEX :=
  ⟨trivial, within_between within_digit 13 19, trivial⟩

theorem creditCardRule_keepsWhole : creditCardRule.KeepsWhole :=
  Rule.keepsWhole_of_words (by decide) (by decide) (by decide) fun hm c hc =>
    isWordChar_of_isDigit (hm.forall_mem within_creditCard c hc)

/-- One of the four numbers of an address. -/
structure IsNumber (d : Text) : Prop where
  ne_nil : d ≠ []
  digits : ∀ c ∈ d, c.isDigit = true

theorem isNumber_of_matches {before after : Bool} {d : Text}
    (h : (between digit 1 3).Matches before d after) : IsNumber d where
  ne_nil := ne_nil_of_matches (by decide) h
  digits := h.forall_mem (within_between within_digit 1 3)

theorem IsNumber.words {d : Text} (h : IsNumber d) : ∀ c ∈ d, isWordChar c = true :=
  fun c hc => isWordChar_of_isDigit (h.digits c hc)

theorem IsNumber.count_dot {d : Text} (h : IsNumber d) : d.count '.' = 0 := by
  rw [List.count_eq_zero]
  intro hmem
  exact absurd (h.digits '.' hmem) (by decide)

/-- Four numbers between dots. -/
theorem ipv4_shape {before after : Bool} {m : Text} (h : IPV4_REGEX.Matches before m after) :
    ∃ d₁ d₂ d₃ d₄, IsNumber d₁ ∧ IsNumber d₂ ∧ IsNumber d₃ ∧ IsNumber d₄ ∧
      m = d₁ ++ '.' :: (d₂ ++ '.' :: (d₃ ++ '.' :: d₄)) := by
  obtain ⟨_, _, rfl, ⟨rfl, -⟩, _, _, rfl, hgroups, d₄, _, rfl, h₄, rfl, -⟩ := h
  obtain ⟨_, _, rfl, ⟨d₁, _, rfl, h₁, c₁, rfl, hc₁⟩, hgroups⟩ := hgroups
  obtain ⟨_, _, rfl, ⟨d₂, _, rfl, h₂, c₂, rfl, hc₂⟩, hgroups⟩ := hgroups
  obtain ⟨_, _, rfl, ⟨d₃, _, rfl, h₃, c₃, rfl, hc₃⟩, rfl⟩ := hgroups
  obtain rfl := of_decide_eq_true hc₁
  obtain rfl := of_decide_eq_true hc₂
  obtain rfl := of_decide_eq_true hc₃
  refine ⟨d₁, d₂, d₃, d₄, isNumber_of_matches h₁, isNumber_of_matches h₂, isNumber_of_matches h₃,
    isNumber_of_matches h₄, ?_⟩
  simp only [List.append_assoc, List.append_nil, List.nil_append, List.cons_append]

theorem ipv4_starts {before after : Bool} {m : Text} (h : IPV4_REGEX.Matches before m after) :
    startsWord false m = true := by
  obtain ⟨d₁, d₂, d₃, d₄, h₁, -, -, -, rfl⟩ := ipv4_shape h
  rw [startsWord_append]
  exact Rule.startsWord_of_words h₁.ne_nil h₁.words _

theorem ipv4_ends {before after : Bool} {m : Text} (h : IPV4_REGEX.Matches before m after) :
    endsWord false m = true := by
  obtain ⟨d₁, d₂, d₃, d₄, -, -, -, h₄, rfl⟩ := ipv4_shape h
  rw [endsWord_append, endsWord_cons, endsWord_append, endsWord_cons, endsWord_append,
    endsWord_cons]
  exact Rule.endsWord_of_words h₄.ne_nil h₄.words _

theorem ipv4_unique {before : Bool} {m rest m' rest' : Text} (heq : m ++ rest = m' ++ rest')
    (h : IPV4_REGEX.Matches before m (startsWord false rest))
    (h' : IPV4_REGEX.Matches before m' (startsWord false rest')) : m = m' := by
  have hguard : guardsRight IPV4_REGEX = true := by decide
  have hne : nullable IPV4_REGEX = false := by decide
  have hrest := h.after_eq_false hguard
    (by rw [endsWord_of_ne_nil (ne_nil_of_matches hne h) before false, ipv4_ends h])
  have hrest' := h'.after_eq_false hguard
    (by rw [endsWord_of_ne_nil (ne_nil_of_matches hne h') before false, ipv4_ends h'])
  obtain ⟨d₁, d₂, d₃, d₄, h₁, h₂, h₃, h₄, rfl⟩ := ipv4_shape h
  obtain ⟨e₁, e₂, e₃, e₄, g₁, g₂, g₃, g₄, rfl⟩ := ipv4_shape h'
  simp only [List.append_assoc, List.cons_append] at heq
  obtain ⟨heq₁, heq⟩ := cut_unique heq (by rw [h₁.count_dot, g₁.count_dot])
  obtain ⟨heq₂, heq⟩ := cut_unique heq (by rw [h₂.count_dot, g₂.count_dot])
  obtain ⟨heq₃, heq⟩ := cut_unique heq (by rw [h₃.count_dot, g₃.count_dot])
  rw [heq₁, heq₂, heq₃, Rule.eq_of_words heq h₄.words g₄.words hrest hrest']

theorem ipv4_whole : Rule.Whole IPV4_REGEX where
  left := by decide
  right := by decide
  starts := ipv4_starts
  ends := ipv4_ends
  unique := ipv4_unique

end ErrorCore
