import Mathlib.Data.List.Basic

/-!
# Text

A text is the list of its Unicode scalar values, so that cutting it up and
putting it together are list operations. String literals are written where a
text is expected. `byteLength` is `Buffer.byteLength(text, 'utf8')`.
-/

abbrev Text := List Char

instance : Coe String Text := ⟨String.toList⟩

namespace Text

instance decidableMem (text : Text) (texts : List Text) : Decidable (text ∈ texts) :=
  List.instDecidableMemOfLawfulBEq text texts

/-- The number of bytes of the text in UTF-8. -/
def byteLength : Text → Nat
  | [] => 0
  | c :: text => c.utf8Size + byteLength text

@[simp] theorem byteLength_nil : byteLength [] = 0 := rfl

@[simp] theorem byteLength_cons (c : Char) (text : Text) :
    byteLength (c :: text) = c.utf8Size + byteLength text := rfl

@[simp] theorem byteLength_append (a b : Text) :
    byteLength (a ++ b) = byteLength a + byteLength b := by
  induction a with
  | nil => rw [List.nil_append, byteLength_nil, Nat.zero_add]
  | cons c a ih => rw [List.cons_append, byteLength_cons, byteLength_cons, ih, Nat.add_assoc]

theorem length_le_byteLength (text : Text) : text.length ≤ byteLength text := by
  induction text with
  | nil => exact Nat.le_refl _
  | cons c text ih =>
      have hc := c.utf8Size_pos
      rw [List.length_cons, byteLength_cons]
      omega

/-- `text.length`: the number of UTF-16 code units. -/
def utf16Length : Text → Nat
  | [] => 0
  | c :: text => (if c.toNat < 0x10000 then 1 else 2) + utf16Length text

theorem utf16Length_of_lt {text : Text} (h : ∀ c ∈ text, c.toNat < 0x10000) :
    utf16Length text = text.length := by
  induction text with
  | nil => rfl
  | cons c rest ih =>
      rw [utf16Length, if_pos (h c List.mem_cons_self), List.length_cons,
        ih fun d hd => h d (List.mem_cons_of_mem _ hd), Nat.add_comm]

/-- The UTF-16 code units of the text, which is what texts are sorted by. -/
def utf16Units (text : Text) : List Nat :=
  text.flatMap fun c =>
    if c.toNat < 0x10000 then [c.toNat]
    else [0xd800 + (c.toNat - 0x10000) / 0x400, 0xdc00 + (c.toNat - 0x10000) % 0x400]

/-- `text.slice(0, count)`. A cut inside a character of two code units leaves half of it, which is
written out as U+FFFD. -/
def sliceStart : Nat → Text → Text
  | 0, _ => []
  | _, [] => []
  | count + 1, c :: text =>
      if c.toNat < 0x10000 then c :: sliceStart count text
      else
        match count with
        | 0 => [Char.ofNat 0xfffd]
        | count + 1 => c :: sliceStart count text

/-- `text.split(separator)` for a separator of one character. -/
def split (separator : Char) (text : Text) : List Text := text.splitOn separator

def startsWith (text start : Text) : Bool := start.isPrefixOf text

def endsWith (text suffix : Text) : Bool := suffix.isSuffixOf text

def includes (text part : Text) : Bool := text.tails.any (part.isPrefixOf ·)

/-- The characters that `trim` removes. -/
def isWhitespace (c : Char) : Bool :=
  (9 ≤ c.toNat && c.toNat ≤ 13) || c.toNat = 0x20 || c.toNat = 0xa0 || c.toNat = 0x1680 ||
    (0x2000 ≤ c.toNat && c.toNat ≤ 0x200a) || c.toNat = 0x2028 || c.toNat = 0x2029 ||
    c.toNat = 0x202f || c.toNat = 0x205f || c.toNat = 0x3000 || c.toNat = 0xfeff

def trim (text : Text) : Text :=
  ((text.dropWhile isWhitespace).reverse.dropWhile isWhitespace).reverse

/-- `text.toLowerCase()`, as far as ASCII text can be compared with the result: besides `A` to `Z`
only U+0130 and the Kelvin sign have an ASCII letter in their lower case. -/
def toLowerCase (text : Text) : Text :=
  text.flatMap fun c =>
    if c.toNat = 0x130 then ['i', Char.ofNat 0x307]
    else if c.toNat = 0x212a then ['k']
    else [c.toLower]

/-- `parts.join(separator)`. -/
def join (separator : Text) (parts : List Text) : Text := separator.intercalate parts

/-- A text is cut at the same separator twice when equally many of them come before the cut. -/
theorem cut_unique {separator : Char} {a b x y : Text}
    (h : a ++ separator :: x = b ++ separator :: y)
    (hcount : a.count separator = b.count separator) : a = b ∧ x = y := by
  induction a generalizing b with
  | nil =>
      cases b with
      | nil => exact ⟨rfl, (List.cons.inj h).2⟩
      | cons d b =>
          obtain ⟨rfl, -⟩ := List.cons.inj h
          simp at hcount
  | cons c a ih =>
      cases b with
      | nil =>
          obtain ⟨rfl, -⟩ := List.cons.inj h
          simp at hcount
      | cons d b =>
          obtain ⟨rfl, hrest⟩ := List.cons.inj h
          have hcount' : a.count separator = b.count separator := by
            simpa [List.count_cons] using hcount
          obtain ⟨rfl, hxy⟩ := ih hrest hcount'
          exact ⟨rfl, hxy⟩

end Text
