import ErrorCore.Foundation.Text

/-!
# JSON values and their text

`JSON.stringify` without indentation and `JSON.parse`. A number is represented by the text that ECMAScript prints for
it, so that two numbers are equal exactly when their texts are; how a literal is
read and printed again is floating point and a parameter of the parser.

Objects keep their fields in insertion order. A parsed object has one field for
each name: a later duplicate replaces the value and keeps the first position.
-/

namespace Json

inductive Value
  | null
  | bool (value : Bool)
  | number (text : Text)
  | string (value : Text)
  | array (items : List Value)
  | object (fields : List (Text × Value))
  deriving Repr, Inhabited

namespace Value

/-- Property access `value.name`; `none` is `undefined`. -/
def get? (name : Text) : Value → Option Value
  | .object fields => fields.lookup name
  | _ => none

/-- The property, if it is a string. -/
def getString? (name : Text) (value : Value) : Option Text :=
  match value.get? name with
  | some (.string s) => some s
  | _ => none

/-- The property, if it is a number. -/
def getNumber? (name : Text) (value : Value) : Option Text :=
  match value.get? name with
  | some (.number text) => some text
  | _ => none

end Value

/-! ## Serializing -/

def hexDigit (n : Nat) : Char :=
  if n < 10 then Char.ofNat (48 + n) else Char.ofNat (87 + n)

def escapeUnicode (n : Nat) : Text :=
  ['\\', 'u', hexDigit (n / 4096 % 16), hexDigit (n / 256 % 16), hexDigit (n / 16 % 16),
    hexDigit (n % 16)]

/-- One character between the quotes of a JSON string. -/
def escapeChar (c : Char) : Text :=
  match c with
  | '"' => ['\\', '"']
  | '\\' => ['\\', '\\']
  | '\n' => ['\\', 'n']
  | '\r' => ['\\', 'r']
  | '\t' => ['\\', 't']
  | '\x08' => ['\\', 'b']
  | '\x0c' => ['\\', 'f']
  | c => if c.toNat < 32 then escapeUnicode c.toNat else [c]

def quote (s : Text) : Text := '"' :: (s.flatMap escapeChar ++ ['"'])

mutual

def stringify : Value → Text
  | .null => "null"
  | .bool true => "true"
  | .bool false => "false"
  | .number text => text
  | .string s => quote s
  | .array items => '[' :: (stringifyItems items ++ [']'])
  | .object fields => '\x7b' :: (stringifyFields fields ++ ['\x7d'])

def stringifyItems : List Value → Text
  | [] => []
  | [item] => stringify item
  | item :: rest => stringify item ++ ',' :: stringifyItems rest

def stringifyFields : List (Text × Value) → Text
  | [] => []
  | [(name, value)] => quote name ++ ':' :: stringify value
  | (name, value) :: rest => quote name ++ ':' :: (stringify value ++ ',' :: stringifyFields rest)

end

/-! ### Written texts -/

theorem newline_not_mem_hexDigit : ∀ n, n < 16 → hexDigit n ≠ '\n' := by decide

theorem newline_not_mem_escapeChar (c : Char) : '\n' ∉ escapeChar c := by
  rw [escapeChar.eq_def]
  split
  case h_8 newline _ _ _ _ =>
    split
    · intro hmem
      simp only [escapeUnicode, List.mem_cons, List.not_mem_nil, or_false] at hmem
      have hdigit (m : Nat) : '\n' ≠ hexDigit (m % 16) :=
        (newline_not_mem_hexDigit _ (Nat.mod_lt _ (by decide))).symm
      simp [hdigit] at hmem
    · intro hmem
      exact newline (List.mem_singleton.mp hmem).symm
  all_goals decide

theorem newline_not_mem_quote (text : Text) : '\n' ∉ quote text := by
  rw [quote, List.mem_cons, List.mem_append, List.mem_flatMap]
  rintro (hquote | ⟨c, -, hmem⟩ | hquote)
  · exact absurd hquote (by decide)
  · exact newline_not_mem_escapeChar c hmem
  · exact absurd hquote (by decide)

theorem escapeChar_ne_nil (c : Char) : escapeChar c ≠ [] := by
  rw [escapeChar.eq_def]
  split
  case h_8 =>
    split
    · exact List.cons_ne_nil _ _
    · exact List.cons_ne_nil _ _
  all_goals exact List.cons_ne_nil _ _

theorem length_le_length_quote (text : Text) : text.length ≤ (quote text).length := by
  have hbody : text.length ≤ (text.flatMap escapeChar).length := by
    induction text with
    | nil => exact Nat.zero_le _
    | cons c text ih =>
        have hc := List.length_pos_of_ne_nil (escapeChar_ne_nil c)
        rw [List.flatMap_cons, List.length_append, List.length_cons]
        omega
  rw [quote, List.length_cons, List.length_append]
  omega

/-! ## Parsing -/

def skipWhitespace : Text → Text
  | [] => []
  | c :: rest =>
      if c = ' ' ∨ c = '\t' ∨ c = '\n' ∨ c = '\r' then skipWhitespace rest else c :: rest

def hexValue (c : Char) : Option Nat :=
  if '0' ≤ c ∧ c ≤ '9' then some (c.toNat - 48)
  else if 'a' ≤ c ∧ c ≤ 'f' then some (c.toNat - 87)
  else if 'A' ≤ c ∧ c ≤ 'F' then some (c.toNat - 55)
  else none

def hexUnit (a b c d : Char) : Option Nat := do
  let a ← hexValue a
  let b ← hexValue b
  let c ← hexValue c
  let d ← hexValue d
  return ((a * 16 + b) * 16 + c) * 16 + d

/-- The character a backslash and `c` stand for. -/
def unescape (c : Char) : Option Char :=
  match c with
  | '"' => some '"'
  | '\\' => some '\\'
  | '/' => some '/'
  | 'b' => some '\x08'
  | 'f' => some '\x0c'
  | 'n' => some '\n'
  | 'r' => some '\r'
  | 't' => some '\t'
  | _ => none

def isHighSurrogate (n : Nat) : Bool := 0xD800 ≤ n && n < 0xDC00

def isLowSurrogate (n : Nat) : Bool := 0xDC00 ≤ n && n < 0xE000

/-- What one step inside the quotes reads: a character, or an escaped code unit. -/
inductive Piece
  | char (c : Char)
  | unit (n : Nat)
  deriving DecidableEq, Repr

/-- The pieces up to the closing quote and what follows it. -/
def parsePieces : Text → Option (List Piece × Text)
  | [] => none
  | c :: rest =>
      if c = '"' then some ([], rest)
      else if c = '\\' then
        match rest with
        | [] => none
        | e :: rest =>
            if e = 'u' then
              match rest with
              | a :: b :: c :: d :: rest =>
                  match hexUnit a b c d, parsePieces rest with
                  | some n, some (pieces, after) => some (.unit n :: pieces, after)
                  | _, _ => none
              | _ => none
            else
              match unescape e, parsePieces rest with
              | some char, some (pieces, after) => some (.char char :: pieces, after)
              | _, _ => none
      else if c.toNat < 32 then none
      else
        match parsePieces rest with
        | some (pieces, after) => some (.char c :: pieces, after)
        | none => none

/-- The character of a code unit on its own; half a surrogate pair has none. -/
def unitChar (n : Nat) : Char :=
  if isHighSurrogate n || isLowSurrogate n then '\uFFFD' else Char.ofNat n

def joinPieces : List Piece → Text
  | [] => []
  | .char c :: rest => c :: joinPieces rest
  | .unit high :: .unit low :: rest =>
      if isHighSurrogate high && isLowSurrogate low then
        Char.ofNat (0x10000 + (high - 0xD800) * 1024 + (low - 0xDC00)) :: joinPieces rest
      else
        unitChar high :: joinPieces (.unit low :: rest)
  | .unit n :: rest => unitChar n :: joinPieces rest

/-- The text up to the closing quote and what follows it. -/
def parseStringBody (input : Text) : Option (Text × Text) :=
  (parsePieces input).map fun (pieces, after) => (joinPieces pieces, after)

def isDigit (c : Char) : Bool := '0' ≤ c && c ≤ '9'

def takeDigits (input : Text) : Text × Text :=
  (input.takeWhile isDigit, input.dropWhile isDigit)

def parseIntegerPart : Text → Option (Text × Text)
  | '0' :: rest => some (['0'], rest)
  | input =>
      match takeDigits input with
      | ([], _) => none
      | found => some found

def parseFraction : Text → Option (Text × Text)
  | '.' :: rest =>
      match takeDigits rest with
      | ([], _) => none
      | (digits, after) => some ('.' :: digits, after)
  | input => some ([], input)

def parseExponentDigits (mark : Text) (input : Text) :
    Option (Text × Text) :=
  match takeDigits input with
  | ([], _) => none
  | (digits, after) => some (mark ++ digits, after)

def parseExponent : Text → Option (Text × Text)
  | 'e' :: '+' :: rest | 'E' :: '+' :: rest => parseExponentDigits ['e', '+'] rest
  | 'e' :: '-' :: rest | 'E' :: '-' :: rest => parseExponentDigits ['e', '-'] rest
  | 'e' :: rest | 'E' :: rest => parseExponentDigits ['e'] rest
  | input => some ([], input)

def parseUnsignedNumber (input : Text) : Option (Text × Text) := do
  let (whole, rest) ← parseIntegerPart input
  let (fraction, rest) ← parseFraction rest
  let (exponent, rest) ← parseExponent rest
  return (whole ++ fraction ++ exponent, rest)

def parseNumber : Text → Option (Text × Text)
  | '-' :: rest => (parseUnsignedNumber rest).map fun (text, after) => ('-' :: text, after)
  | input => parseUnsignedNumber input

/-- `fields[name] = value` on a fresh object. -/
def setField (name : Text) (value : Value) : List (Text × Value) → List (Text × Value)
  | [] => [(name, value)]
  | (other, old) :: rest =>
      if other = name then (name, value) :: rest else (other, old) :: setField name value rest

/-- How the runtime prints the number a literal denotes. The safe integers print
as their decimal digits. -/
structure NumberFormat where
  print : Text → Text
  print_nat : ∀ n : Nat, n < 9007199254740992 → print (Nat.toDigits 10 n) = Nat.toDigits 10 n

section Parser

variable (formatNumber : Text → Text)

mutual

/-- One value and what follows it. The fuel bounds the nesting and the number of
elements, so the length of the input is enough. -/
def parseValue : Nat → Text → Option (Value × Text)
  | 0, _ => none
  | fuel + 1, input =>
      match skipWhitespace input with
      | 'n' :: 'u' :: 'l' :: 'l' :: rest => some (.null, rest)
      | 't' :: 'r' :: 'u' :: 'e' :: rest => some (.bool true, rest)
      | 'f' :: 'a' :: 'l' :: 's' :: 'e' :: rest => some (.bool false, rest)
      | '"' :: rest =>
          (parseStringBody rest).map fun (text, after) => (.string text, after)
      | '[' :: rest =>
          match skipWhitespace rest with
          | ']' :: after => some (.array [], after)
          | _ => (parseItems fuel rest).map fun (items, after) => (.array items, after)
      | '\x7b' :: rest =>
          match skipWhitespace rest with
          | '\x7d' :: after => some (.object [], after)
          | _ => (parseFields fuel [] rest).map fun (fields, after) => (.object fields, after)
      | input =>
          (parseNumber input).map fun (text, after) =>
            (.number (formatNumber text), after)

def parseItems : Nat → Text → Option (List Value × Text)
  | 0, _ => none
  | fuel + 1, input =>
      match parseValue fuel input with
      | none => none
      | some (item, rest) =>
          match skipWhitespace rest with
          | ',' :: rest => (parseItems fuel rest).map fun (items, after) => (item :: items, after)
          | ']' :: after => some ([item], after)
          | _ => none

def parseFields : Nat → List (Text × Value) → Text →
    Option (List (Text × Value) × Text)
  | 0, _, _ => none
  | fuel + 1, seen, input =>
      match skipWhitespace input with
      | '"' :: rest =>
          match parseStringBody rest with
          | none => none
          | some (name, rest) =>
              match skipWhitespace rest with
              | ':' :: rest =>
                  match parseValue fuel rest with
                  | none => none
                  | some (value, rest) =>
                      let seen := setField name value seen
                      match skipWhitespace rest with
                      | ',' :: rest => parseFields fuel seen rest
                      | '\x7d' :: after => some (seen, after)
                      | _ => none
              | _ => none
      | _ => none

end

/-- `JSON.parse`; `none` is the `SyntaxError`. -/
def parse (text : Text) : Option Value :=
  match parseValue formatNumber (text.length + 1) text with
  | none => none
  | some (value, rest) => if skipWhitespace rest = [] then some value else none

end Parser

end Json
