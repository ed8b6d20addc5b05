import ErrorCore.Serialization.CloneAndLimit.Shape

/-!
# The texts of a clone

Strings and buffers are cut to `maxStringLength`. Other texts are copied whole:
keys, the digits of a bigint, what a symbol, a function, a date or a regular
expression is written as, the fields of an error, the name of a typed array and
the messages of what is thrown. Given the longest of these, every text of the
clone is bounded, and so is their total length, since every round of a loop
takes something from the budget and a frame by itself writes a bounded text.
-/

namespace ErrorCore

namespace CloneAndLimit

namespace Output

mutual

/-- The string leaves. -/
def strings : Output → List Text
  | .string value => [value]
  | .verbatim (.string value) => [value]
  | .array items => stringsItems items
  | .object _ fields => stringsFields fields
  | _ => []

def stringsItems : List Output → List Text
  | [] => []
  | item :: items => strings item ++ stringsItems items

def stringsFields : List (Text × Output) → List Text
  | [] => []
  | (_, value) :: fields => strings value ++ stringsFields fields

end

mutual

/-- The total length of the string leaves and keys. -/
def textLength : Output → Nat
  | .string value => Text.utf16Length value
  | .verbatim (.string value) => Text.utf16Length value
  | .array items => textLengthItems items
  | .object _ fields => textLengthFields fields
  | _ => 0

def textLengthItems : List Output → Nat
  | [] => 0
  | item :: items => textLength item + textLengthItems items

def textLengthFields : List (Text × Output) → Nat
  | [] => 0
  | (key, value) :: fields =>
      Text.utf16Length key + textLength value + textLengthFields fields

end

/-- The length of a field. -/
def fieldLength (field : Text × Output) : Nat :=
  Text.utf16Length field.1 + textLength field.2

theorem textLengthFields_cons (field : Text × Output) (fields : List (Text × Output)) :
    textLengthFields (field :: fields) = fieldLength field + textLengthFields fields := by
  rw [textLengthFields, fieldLength]

theorem textLengthFields_nil : textLengthFields [] = 0 := by rw [textLengthFields]

theorem mem_stringsItems {items : List Output} {text : Text} :
    text ∈ stringsItems items ↔ ∃ item ∈ items, text ∈ item.strings := by
  induction items with
  | nil => simp [stringsItems]
  | cons item items ih => simp [stringsItems, ih]

theorem mem_stringsFields {fields : List (Text × Output)} {text : Text} :
    text ∈ stringsFields fields ↔ ∃ field ∈ fields, text ∈ field.2.strings := by
  induction fields with
  | nil => simp [stringsFields]
  | cons field fields ih => simp [stringsFields, ih]

theorem textLengthFields_append (before after : List (Text × Output)) :
    textLengthFields (before ++ after) = textLengthFields before + textLengthFields after := by
  induction before with
  | nil => rw [List.nil_append, textLengthFields, Nat.zero_add]
  | cons field before ih =>
      rw [List.cons_append, textLengthFields_cons, textLengthFields_cons, ih, Nat.add_assoc]

end Output

/-! ## The texts that are copied whole -/

/-- The largest length of a string in the language. -/
def maxTextLength : Nat := 9007199254740991

/-- The value is not an object and, as a string, not longer. -/
def Value.IsShort (longest : Nat) : Value → Prop
  | .string value => Text.utf16Length value ≤ longest
  | .object _ => False
  | _ => True

/-- A message that is read from an error, or from what reading it throws. -/
inductive MessageOf (host : Host) : Value → Text → Prop
  | read {error : Value} {message : Text} (h : getErrorMessage host error = .ok message) :
      MessageOf host error message
  | thrown {error next : Value} {message : Text} (h : getErrorMessage host error = .error next)
      (hnext : MessageOf host next message) : MessageOf host error message

def Terse (host : Host) (longest : Nat) (thrown : Value) : Prop :=
  ∀ message, MessageOf host thrown message → Text.utf16Length message ≤ longest

/-- The texts that the node by itself brings into the clone as a whole, and the strings and buffers
that are cut. -/
def CopiesTexts (host : Host) (limits : SerializationLimits) (longest : Nat) : Value → Prop
  | .string value => Text.utf16Length value ≤ maxTextLength
  | .symbol description => Text.utf16Length description ≤ longest
  | .bigint value => Text.utf16Length (toString value).toList ≤ longest
  | .object id =>
      match host.heap id with
      | .function (.ok name) => Text.utf16Length name ≤ longest
      | .date (.ok iso) => Text.utf16Length iso ≤ longest
      | .regExp source flags =>
          Text.utf16Length source ≤ longest ∧ Text.utf16Length flags ≤ longest
      | .error (.ok name) (.ok message) (.ok stack) =>
          name.IsShort longest ∧ message.IsShort longest ∧ stack.IsShort longest
      | .buffer bytes => Text.utf16Length (Bytes.toBase64 bytes) ≤ maxTextLength
      | .typedArray (.ok typeName) _ => typeName.IsShort longest
      | .object (.ok properties) =>
          ∀ field ∈ properties.entries.take limits.keys, Text.utf16Length field.1 ≤ longest
      | _ => True
  | _ => True

/-- No text that a node within the levels brings into the clone as a whole is longer. -/
def LongestText (host : Host) (limits : SerializationLimits) (longest : Nat) (node : Value) :
    Prop :=
  CopiesTexts host limits longest node ∧
    ∀ thrown, Throws host limits node thrown → Terse host longest thrown

/-- The length of a leaf: a string that was cut with its note, or a text with what is written
around it. -/
def leafBound (limits : SerializationLimits) (longest : Nat) : Nat :=
  max (limits.maxStringLength.toNat + 38) (longest + 24)

/-- What a frame writes by itself. -/
def frameBound (limits : SerializationLimits) (longest : Nat) : Nat :=
  3 * leafBound limits longest + 48

/-- A round of a loop calls at most two frames. -/
def totalBound (limits : SerializationLimits) (longest : Nat) : Nat :=
  frameBound limits longest + 2 * frameBound limits longest * limits.maxPayloadSize.toNat

/-! ## Truncation -/

theorem utf16Length_sliceStart_le_count (count : Nat) (text : Text) :
    Text.utf16Length (Text.sliceStart count text) ≤ count := by
  induction count, text using Text.sliceStart.induct with
  | case1 text => exact Nat.le_refl _
  | case2 count => simp [Text.sliceStart, Text.utf16Length]
  | case3 count c text hc ih =>
      rw [Text.sliceStart.eq_def]
      simp only [Text.utf16Length, if_pos hc]
      omega
  | case4 c text hc =>
      have hmark : Text.utf16Length [Char.ofNat 0xfffd] = 1 := rfl
      rw [Text.sliceStart.eq_def]
      simp only [if_neg hc, hmark]
      omega
  | case5 c text hc count ih =>
      rw [Text.sliceStart.eq_def]
      simp only [Text.utf16Length, if_neg hc]
      omega

theorem utf16Length_toString_le {n : Nat} (h : n ≤ maxTextLength) :
    Text.utf16Length (toString n).toList ≤ 16 := by
  have hdigits : (toString n).toList = Nat.toDigits 10 n := Nat.toList_repr
  have hascii : ∀ c ∈ Nat.toDigits 10 n, c.toNat < 0x10000 := by
    intro c hmem
    have hdigit := Nat.isDigit_of_mem_toDigits (by decide) (by decide) hmem
    rw [Char.isDigit_iff_toNat] at hdigit
    exact Nat.lt_of_le_of_lt hdigit.2 (by decide)
  rw [hdigits, Text.utf16Length_of_lt hascii]
  exact (Nat.length_toDigits_le_iff (by decide) (by decide)).mpr (Nat.lt_of_le_of_lt h (by decide))

theorem utf16Length_truncateString_le {value : Text} {cap : Int} (hcap : 0 ≤ cap)
    (hvalue : Text.utf16Length value ≤ maxTextLength) :
    Text.utf16Length (truncateString value cap) ≤ cap.toNat + 38 := by
  unfold truncateString
  split
  · omega
  · have hslice := utf16Length_sliceStart_le_count cap.toNat value
    have hcount := utf16Length_toString_le hvalue
    have hstart : Text.utf16Length "...[truncated, ".toList = 15 := by decide
    have hend : Text.utf16Length " chars]".toList = 7 := by decide
    rw [sliceTo, if_neg (Int.not_lt.mpr hcap)]
    simp only [utf16Length_append]
    omega

/-! ## What a step writes -/

/-- The sizes of the outputs of a loop. -/
def totalSize {β : Type} (size : β → Nat) : List β → Nat
  | [] => 0
  | output :: outputs => size output + totalSize size outputs

/-- The budget does not grow, an exception is terse, and the size of what is returned is paid for
from the budget, but for an amount of its own. -/
structure Spends {β : Type} (host : Host) (longest weight own : Nat) (size : β → Nat)
    (P : β → Prop) (budget : Int) (result : Except Value β × Int) : Prop where
  budget_le : result.2 ≤ budget
  returned : ∀ output, result.1 = .ok output →
    P output ∧ size output + weight * result.2.toNat ≤ own + weight * budget.toNat
  thrown : ∀ thrown, result.1 = .error thrown → Terse host longest thrown

section Steps

variable {host : Host} {longest weight own : Nat} {α β : Type} {size : β → Nat} {P : β → Prop}
variable {budget rest : Int}

theorem weight_mul_le (weight : Nat) {a b : Int} (h : a ≤ b) :
    weight * a.toNat ≤ weight * b.toNat :=
  Nat.mul_le_mul_left weight (Int.toNat_le_toNat h)

theorem Spends.mono {result : Except Value β × Int} {own' : Nat}
    (h : Spends host longest weight own size P budget result) (hown : own ≤ own') :
    Spends host longest weight own' size P budget result where
  budget_le := h.budget_le
  returned := by
    intro output houtput
    obtain ⟨hP, hsize⟩ := h.returned output houtput
    exact ⟨hP, by omega⟩
  thrown := h.thrown

theorem Spends.ok {output : β} (hle : rest ≤ budget) (hP : P output)
    (hsize : size output + weight * rest.toNat ≤ own + weight * budget.toNat) :
    Spends host longest weight own size P budget (.ok output, rest) where
  budget_le := hle
  returned := by
    rintro output ⟨⟩
    exact ⟨hP, hsize⟩
  thrown := fun thrown h => by cases h

theorem Spends.error {thrown : Value} (hle : rest ≤ budget)
    (hterse : Terse host longest thrown) :
    Spends host longest weight own size P budget (.error thrown, rest) where
  budget_le := hle
  returned := fun output h => by cases h
  thrown := by
    rintro thrown ⟨⟩
    exact hterse

/-- A text of its own, for which nothing is taken from the budget. -/
theorem Spends.free {output : β} (hP : P output) (hsize : size output ≤ own) :
    Spends host longest weight own size P budget (.ok output, budget) :=
  .ok (Int.le_refl _) hP (Nat.add_le_add_right hsize _)

/-- A round costs at least one of the budget, which pays for what its item writes by itself. -/
theorem cloneLoop_spends {cost : α → Nat} {clone : α → Clone β} {items : List α}
    (hcost : ∀ item, 1 ≤ cost item)
    (h : ∀ item ∈ items, ∀ budget,
      Spends host longest weight weight size P budget (clone item budget)) (budget : Int) :
    Spends host longest weight 0 (fun result : List β × Bool => totalSize size result.1)
      (fun result => ∀ output ∈ result.1, P output) budget
      (cloneLoop cost clone items budget) := by
  induction items generalizing budget with
  | nil => exact .free (List.forall_mem_nil _) (Nat.le_refl _)
  | cons item items ih =>
      unfold cloneLoop
      split
      · exact .free (List.forall_mem_nil _) (Nat.le_refl _)
      · next hbudget =>
          have hpaid : weight + weight * (budget - cost item).toNat ≤ weight * budget.toNat := by
            have hitem := hcost item
            rw [Nat.add_comm, ← Nat.mul_succ]
            exact Nat.mul_le_mul_left weight (by omega)
          have hitem := h item List.mem_cons_self (budget - cost item)
          have hrest := ih fun item hmem => h item (List.mem_cons_of_mem _ hmem)
          have hbefore : (clone item (budget - cost item)).2 ≤ budget := by
            have := hitem.budget_le
            omega
          generalize clone item (budget - cost item) = step at hitem hbefore
          rcases step with ⟨first | first, rest⟩
          · exact .error hbefore (hitem.thrown first rfl)
          · obtain ⟨hfirst, hsize⟩ := hitem.returned first rfl
            have hle : rest ≤ budget := hbefore
            have hitems := hrest rest
            dsimp only
            generalize cloneLoop cost clone items rest = steps at hitems
            rcases steps with ⟨outputs | outputs, rest'⟩
            · exact .error (hitems.budget_le.trans hle) (hitems.thrown outputs rfl)
            · obtain ⟨houtputs, hsizes⟩ := hitems.returned outputs rfl
              refine .ok (hitems.budget_le.trans hle)
                (List.forall_mem_cons.mpr ⟨hfirst, houtputs⟩) ?_
              dsimp only at hsize hsizes ⊢
              rw [totalSize]
              omega

theorem assemble_spends {build : List β → Bool → Output} {Q : Output → Prop}
    {result : Except Value (List β × Bool) × Int}
    (h : Spends host longest weight 0 (fun result : List β × Bool => totalSize size result.1)
      (fun result => ∀ output ∈ result.1, P output) budget result)
    (hbuild : ∀ outputs truncated, (∀ output ∈ outputs, P output) → Q (build outputs truncated) ∧
      (build outputs truncated).textLength ≤ own + totalSize size outputs) :
    Spends host longest weight own Output.textLength Q budget (assemble build result) := by
  rcases result with ⟨thrown | outputs, rest⟩
  · exact .error h.budget_le (h.thrown thrown rfl)
  · obtain ⟨houtputs, hsizes⟩ := h.returned _ rfl
    obtain ⟨hQ, hsize⟩ := hbuild outputs.1 outputs.2 houtputs
    refine .ok h.budget_le hQ ?_
    dsimp only at hsizes
    omega

end Steps

/-! ## What a frame writes -/

section Frames

variable {host : Host} {limits : SerializationLimits} {longest : Nat} {budget : Int}

/-- No string leaf is longer. -/
def Leaves (limits : SerializationLimits) (longest : Nat) (output : Output) : Prop :=
  ∀ text ∈ output.strings, Text.utf16Length text ≤ leafBound limits longest

/-- What a frame does with the budget. -/
abbrev FrameSpends (host : Host) (limits : SerializationLimits) (longest : Nat) (budget : Int)
    (result : Except Value Output × Int) : Prop :=
  Spends host longest (2 * frameBound limits longest) (frameBound limits longest)
    Output.textLength (Leaves limits longest) budget result

theorem spends_string {text : Text} (h : Text.utf16Length text ≤ leafBound limits longest) :
    FrameSpends host limits longest budget (.ok (.string text), budget) := by
  refine .free ?_ ?_
  · intro other hmem
    rw [Output.strings] at hmem
    rwa [List.mem_singleton.mp hmem]
  · rw [Output.textLength, frameBound]
    omega

/-- A text of the code. -/
theorem spends_mark {text : Text} (h : Text.utf16Length text ≤ 24) :
    FrameSpends host limits longest budget (.ok (.string text), budget) := by
  refine spends_string ?_
  rw [leafBound]
  omega

/-- A text with what is written around it. -/
theorem spends_wrapped (start finish : Text) {text : Text} (h : Text.utf16Length text ≤ longest)
    (haround : Text.utf16Length start + Text.utf16Length finish ≤ 24) :
    FrameSpends host limits longest budget (.ok (.string (start ++ text ++ finish)), budget) := by
  refine spends_string ?_
  rw [utf16Length_append, utf16Length_append, leafBound]
  omega

theorem orSerializationError_spends {result : Except Value Output × Int}
    (h : FrameSpends host limits longest budget result) :
    FrameSpends host limits longest budget (orSerializationError host result) := by
  rcases result with ⟨thrown | output, rest⟩
  · have hterse := h.thrown thrown rfl
    have hle := weight_mul_le (2 * frameBound limits longest) h.budget_le
    dsimp only [orSerializationError, serializationError]
    cases hmessage : getErrorMessage host thrown with
    | ok message =>
        have hstring : FrameSpends host limits longest rest _ :=
          spends_wrapped "[Serialization error: ".toList "]".toList
            (hterse message (.read hmessage)) (by decide)
        obtain ⟨hleaves, hsize⟩ := hstring.returned _ rfl
        refine .ok h.budget_le hleaves ?_
        dsimp only at hle hsize ⊢
        omega
    | error next =>
        exact .error h.budget_le fun message hnext => hterse message (.thrown hmessage hnext)
  · exact h

theorem cloneProperty_spends {clone : Value → Clone Output} {property : Property}
    (hok : ∀ value, property = .ok value → ∀ budget,
      FrameSpends host limits longest budget (clone value budget))
    (herror : ∀ thrown, property = .error thrown → Terse host longest thrown) (budget : Int) :
    FrameSpends host limits longest budget (cloneProperty host clone property budget) := by
  cases property with
  | error thrown =>
      exact orSerializationError_spends (.error (Int.le_refl _) (herror thrown rfl))
  | ok value => exact orSerializationError_spends (hok value rfl budget)

/-- A key counts as a text of the round that copies its field. -/
theorem cloneField_spends {clone : Value → Clone Output} {field : Text × Property}
    (hkey : Text.utf16Length field.1 ≤ longest)
    (h : ∀ budget, FrameSpends host limits longest budget
      (cloneProperty host clone field.2 budget)) (budget : Int) :
    Spends host longest (2 * frameBound limits longest) (2 * frameBound limits longest)
      Output.fieldLength (fun output => Leaves limits longest output.2) budget
      (cloneField host clone field budget) := by
  have hproperty := h budget
  have hlongest : longest ≤ frameBound limits longest := by
    unfold frameBound leafBound
    omega
  unfold cloneField
  generalize cloneProperty host clone field.2 budget = step at hproperty
  rcases step with ⟨thrown | output, rest⟩
  · exact .error hproperty.budget_le (hproperty.thrown thrown rfl)
  · obtain ⟨hleaves, hsize⟩ := hproperty.returned output rfl
    refine .ok hproperty.budget_le hleaves ?_
    dsimp only [Output.fieldLength] at hsize ⊢
    omega

theorem strings_pair {key value : Output} {text : Text}
    (h : text ∈ (Output.array [key, value]).strings) :
    text ∈ key.strings ∨ text ∈ value.strings := by
  simpa [Output.strings, Output.stringsItems] using h

theorem cloneEntry_spends {clone : Value → Clone Output} {entry : Value × Value}
    (hkey : ∀ budget, FrameSpends host limits longest budget (clone entry.1 budget))
    (hvalue : ∀ budget, FrameSpends host limits longest budget (clone entry.2 budget))
    (budget : Int) :
    Spends host longest (2 * frameBound limits longest) (2 * frameBound limits longest)
      Output.textLength (Leaves limits longest) budget (cloneEntry clone entry budget) := by
  have hfirst := hkey budget
  unfold cloneEntry
  generalize clone entry.1 budget = first at hfirst
  rcases first with ⟨thrown | key, rest⟩
  · exact .error hfirst.budget_le (hfirst.thrown thrown rfl)
  · obtain ⟨hkeys, hkeysize⟩ := hfirst.returned key rfl
    have hsecond := hvalue rest
    dsimp only
    generalize clone entry.2 rest = second at hsecond
    rcases second with ⟨thrown | value, rest'⟩
    · exact .error (hsecond.budget_le.trans hfirst.budget_le) (hsecond.thrown thrown rfl)
    · obtain ⟨hvalues, hvaluesize⟩ := hsecond.returned value rfl
      refine .ok (hsecond.budget_le.trans hfirst.budget_le) ?_ ?_
      · intro text hmem
        exact (strings_pair hmem).elim (hkeys text) (hvalues text)
      · dsimp only at hkeysize hvaluesize ⊢
        rw [Output.textLength, Output.textLengthItems, Output.textLengthItems,
          Output.textLengthItems]
        omega

/-! ## Containers -/

theorem textLengthItems_eq (items : List Output) :
    Output.textLengthItems items = totalSize Output.textLength items := by
  induction items with
  | nil => rw [Output.textLengthItems, totalSize]
  | cons item items ih => rw [Output.textLengthItems, totalSize, ih]

theorem textLengthFields_eq (fields : List (Text × Output)) :
    Output.textLengthFields fields = totalSize Output.fieldLength fields := by
  induction fields with
  | nil => rw [Output.textLengthFields, totalSize]
  | cons field fields ih => rw [Output.textLengthFields_cons, totalSize, ih]

theorem leaves_array {items : List Output} (h : ∀ item ∈ items, Leaves limits longest item) :
    Leaves limits longest (.array items) := by
  intro text hmem
  rw [Output.strings] at hmem
  obtain ⟨item, hitem, htext⟩ := Output.mem_stringsItems.mp hmem
  exact h item hitem text htext

theorem leaves_object {plain : Bool} {fields : List (Text × Output)}
    (h : ∀ field ∈ fields, Leaves limits longest field.2) :
    Leaves limits longest (.object plain fields) := by
  intro text hmem
  rw [Output.strings] at hmem
  obtain ⟨field, hfield, htext⟩ := Output.mem_stringsFields.mp hmem
  exact h field hfield text htext

/-- The texts that the code writes have less than 24 characters. -/
theorem leaves_mark {text : Text} (h : Text.utf16Length text ≤ 24) :
    Leaves limits longest (.string text) := by
  intro other hmem
  rw [Output.strings] at hmem
  rw [List.mem_singleton.mp hmem, leafBound]
  omega

theorem leaves_of_strings_nil {output : Output} (h : output.strings = []) :
    Leaves limits longest output := by
  intro text hmem
  rw [h] at hmem
  cases hmem

theorem truncatedField_texts (limits : SerializationLimits) (longest : Nat) (truncated : Bool) :
    (∀ field ∈ truncatedField truncated, Leaves limits longest field.2) ∧
      Output.textLengthFields (truncatedField truncated) ≤ 10 := by
  cases truncated with
  | true =>
      constructor
      · intro field hmem
        obtain rfl := List.mem_singleton.mp hmem
        exact leaves_of_strings_nil rfl
      · decide
  | false => exact ⟨List.forall_mem_nil _, by decide⟩

/-- The clones of a container among the fields of a record. -/
theorem record_texts (before : List (Text × Output)) (key : Text) (after : List (Text × Output))
    {items : List Output} (hbefore : ∀ field ∈ before, Leaves limits longest field.2)
    (hafter : ∀ field ∈ after, Leaves limits longest field.2)
    (hitems : ∀ item ∈ items, Leaves limits longest item)
    (hlength : Output.textLengthFields before + Text.utf16Length key +
      Output.textLengthFields after ≤ 48) :
    Leaves limits longest (.record (before ++ (key, .array items) :: after)) ∧
      (Output.record (before ++ (key, .array items) :: after)).textLength ≤
        frameBound limits longest + totalSize Output.textLength items := by
  constructor
  · refine leaves_object fun field hmem => ?_
    rcases List.mem_append.mp hmem with hmem | hmem
    · exact hbefore field hmem
    · rcases List.mem_cons.mp hmem with rfl | hmem
      · exact leaves_array hitems
      · exact hafter field hmem
  · rw [Output.record, Output.textLength, Output.textLengthFields_append,
      Output.textLengthFields_cons, Output.fieldLength, Output.textLength, textLengthItems_eq,
      frameBound]
    dsimp only
    omega

theorem leaves_typed (name : Text) (size : Nat) (key : Text) (hname : Text.utf16Length name ≤ 24) :
    ∀ field ∈ [("_type".toList, Output.string name), (key, Output.count size)],
      Leaves limits longest field.2 := by
  intro field hmem
  rcases List.mem_pair.mp hmem with rfl | rfl
  · exact leaves_mark hname
  · exact leaves_of_strings_nil rfl

theorem cloneMap_spends {clone : Value → Clone Output} {entries : List (Value × Value)}
    (h : ∀ entry ∈ entries.take limits.items, ∀ budget,
      FrameSpends host limits longest budget (clone entry.1 budget) ∧
        FrameSpends host limits longest budget (clone entry.2 budget)) (budget : Int) :
    FrameSpends host limits longest budget (cloneMap limits clone entries budget) := by
  refine assemble_spends (cloneLoop_spends (fun _ => by decide) (fun entry hmem =>
    cloneEntry_spends (fun budget => (h entry hmem budget).1)
      fun budget => (h entry hmem budget).2) budget) fun outputs truncated houtputs => ?_
  obtain ⟨hleaves, hlength⟩ := truncatedField_texts limits longest
    (truncated || decide (outputs.length < entries.length))
  refine record_texts [("_type".toList, .string "Map"), ("size".toList, .count entries.length)]
    "entries".toList (truncatedField (truncated || decide (outputs.length < entries.length)))
    (leaves_typed _ _ _ (by decide)) hleaves houtputs ?_
  have hbefore : Output.textLengthFields [("_type".toList, .string "Map"),
    ("size".toList, .count entries.length)] = 12 := rfl
  have hkey : Text.utf16Length "entries".toList = 7 := rfl
  omega

theorem frameBound_le_weight : frameBound limits longest ≤ 2 * frameBound limits longest :=
  Nat.le_mul_of_pos_left _ (by decide)

theorem cloneSet_spends {clone : Value → Clone Output} {values : List Value}
    (h : ∀ value ∈ values.take limits.items, ∀ budget,
      FrameSpends host limits longest budget (clone value budget)) (budget : Int) :
    FrameSpends host limits longest budget (cloneSet limits clone values budget) := by
  refine assemble_spends (cloneLoop_spends (fun _ => by decide) (fun value hmem budget =>
    (h value hmem budget).mono frameBound_le_weight) budget) fun outputs truncated houtputs => ?_
  obtain ⟨hleaves, hlength⟩ := truncatedField_texts limits longest
    (truncated || decide (outputs.length < values.length))
  refine record_texts [("_type".toList, .string "Set"), ("size".toList, .count values.length)]
    "values".toList (truncatedField (truncated || decide (outputs.length < values.length)))
    (leaves_typed _ _ _ (by decide)) hleaves houtputs ?_
  have hbefore : Output.textLengthFields [("_type".toList, .string "Set"),
    ("size".toList, .count values.length)] = 12 := rfl
  have hkey : Text.utf16Length "values".toList = 6 := rfl
  omega

theorem cloneArray_spends {clone : Value → Clone Output} {items : List Property}
    (h : ∀ item ∈ items.take limits.items, ∀ budget,
      FrameSpends host limits longest budget (cloneProperty host clone item budget))
    (budget : Int) :
    FrameSpends host limits longest budget (cloneArray host limits clone items budget) := by
  refine assemble_spends (cloneLoop_spends (fun _ => by decide) (fun item hmem budget =>
    (h item hmem budget).mono frameBound_le_weight) budget) fun outputs truncated houtputs => ?_
  unfold arrayOutput
  split
  · refine ⟨leaves_array houtputs, ?_⟩
    rw [Output.textLength, textLengthItems_eq]
    omega
  · refine record_texts [] "_items".toList
      [("_truncated".toList, .boolean true), ("_originalLength".toList, .count items.length)]
      (List.forall_mem_nil _) ?_ houtputs ?_
    · intro field hmem
      rcases List.mem_pair.mp hmem with rfl | rfl <;> exact leaves_of_strings_nil rfl
    · have hafter : Output.textLengthFields [("_truncated".toList, .boolean true),
        ("_originalLength".toList, .count items.length)] = 25 := rfl
      have hkey : Text.utf16Length "_items".toList = 6 := rfl
      rw [hafter, hkey, Output.textLengthFields]
      omega

/-! ## The fields of an object -/

theorem fieldLength_setField_le (key : Text) (value : Output) (fields : List (Text × Output)) :
    Output.textLengthFields (Record.setField key value fields) ≤
      Output.textLengthFields fields + Output.fieldLength (key, value) := by
  induction fields with
  | nil =>
      rw [Record.setField, Output.textLengthFields_cons]
      omega
  | cons field fields ih =>
      obtain ⟨name, old⟩ := field
      unfold Record.setField
      split
      · rw [Output.textLengthFields_cons, Output.textLengthFields_cons]
        omega
      · rw [Output.textLengthFields_cons, Output.textLengthFields_cons]
        omega

theorem textLength_assign_le (cloned : Record) (key : Text) (value : Output) :
    Output.textLengthFields (cloned.assign key value).fields ≤
      Output.textLengthFields cloned.fields + Output.fieldLength (key, value) := by
  unfold Record.assign
  split
  · exact Nat.le_add_right _ _
  · exact fieldLength_setField_le key value cloned.fields

theorem textLength_assignAll_le (cloned : Record) (fields : List (Text × Output)) :
    Output.textLengthFields (cloned.assignAll fields).fields ≤
      Output.textLengthFields cloned.fields + totalSize Output.fieldLength fields := by
  induction fields generalizing cloned with
  | nil => exact Nat.le_refl _
  | cons field fields ih =>
      have hassign : _ ≤ _ + Output.fieldLength field :=
        textLength_assign_le cloned field.1 field.2
      have hrest := ih (cloned.assign field.1 field.2)
      rw [Record.assignAll, totalSize]
      omega

theorem textLength_markTruncated_le (cloned : Record) (keyCount : Nat) :
    Output.textLengthFields (cloned.markTruncated keyCount).fields ≤
      Output.textLengthFields cloned.fields + 28 := by
  have hfirst := textLength_assign_le cloned "_truncated".toList (.boolean true)
  have hsecond := textLength_assign_le (cloned.assign "_truncated".toList (.boolean true))
    "_originalKeyCount".toList (.count keyCount)
  have htruncated : Output.fieldLength ("_truncated".toList, .boolean true) = 10 := rfl
  have hcount : Output.fieldLength ("_originalKeyCount".toList, .count keyCount) = 17 := rfl
  unfold Record.markTruncated
  omega

theorem leaves_markTruncated (keyCount : Nat) {cloned : Record}
    (h : ∀ field ∈ cloned.fields, Leaves limits longest field.2) :
    ∀ field ∈ (cloned.markTruncated keyCount).fields, Leaves limits longest field.2 := by
  intro field hmem
  rcases Record.of_mem_assign hmem with rfl | hmem
  · exact leaves_of_strings_nil rfl
  · rcases Record.of_mem_assign hmem with rfl | hmem
    · exact leaves_of_strings_nil rfl
    · exact h field hmem

theorem objectOutput_texts {keyCount : Nat} {fields : List (Text × Output)} {truncated : Bool}
    (h : ∀ field ∈ fields, Leaves limits longest field.2) :
    Leaves limits longest (objectOutput limits keyCount fields truncated) ∧
      (objectOutput limits keyCount fields truncated).textLength ≤
        frameBound limits longest + totalSize Output.fieldLength fields := by
  have hlength := textLength_assignAll_le (Record.mk true []) fields
  have hleaves : ∀ field ∈ ((Record.mk true []).assignAll fields).fields,
      Leaves limits longest field.2 := by
    intro field hmem
    rcases Record.of_mem_assignAll hmem with hmem | hmem
    · exact h field hmem
    · cases hmem
  have hnil : Output.textLengthFields [] = 0 := rfl
  unfold objectOutput Record.toOutput frameBound leafBound
  dsimp only at hlength ⊢
  generalize (Record.mk true []).assignAll fields = cloned at hlength hleaves
  have hone := textLength_markTruncated_le cloned keyCount
  have htwo := textLength_markTruncated_le (cloned.markTruncated keyCount) keyCount
  have hmarked := leaves_markTruncated keyCount hleaves
  rw [Output.textLength]
  cases truncated with
  | true =>
      rw [if_pos rfl]
      split
      · exact ⟨leaves_object (leaves_markTruncated keyCount hmarked), by omega⟩
      · exact ⟨leaves_object hmarked, by omega⟩
  | false =>
      rw [if_neg Bool.false_ne_true]
      split
      · exact ⟨leaves_object hmarked, by omega⟩
      · exact ⟨leaves_object hleaves, by omega⟩

theorem cloneObject_spends {clone : Value → Clone Output} {properties : OwnProperties}
    (hkeys : ∀ field ∈ properties.entries.take limits.keys, Text.utf16Length field.1 ≤ longest)
    (h : ∀ field ∈ properties.entries.take limits.keys, ∀ budget,
      FrameSpends host limits longest budget (cloneProperty host clone field.2 budget))
    (budget : Int) :
    FrameSpends host limits longest budget (cloneObject host limits clone properties budget) :=
  assemble_spends (cloneLoop_spends (fun field => by simp [entryOverhead]; omega)
    (fun field hmem => cloneField_spends (hkeys field hmem) (h field hmem)) budget)
    fun _ _ houtputs => objectOutput_texts houtputs

/-! ## The traversal -/

theorem spends_record {fields : List (Text × Output)}
    (hleaves : ∀ field ∈ fields, Leaves limits longest field.2)
    (hlength : Output.textLengthFields fields ≤ frameBound limits longest) :
    FrameSpends host limits longest budget (.ok (.record fields), budget) :=
  .free (leaves_object hleaves) hlength

theorem verbatim_texts (limits : SerializationLimits) {value : Value} (h : value.IsShort longest) :
    Leaves limits longest (.verbatim value) ∧ (Output.verbatim value).textLength ≤ longest := by
  cases value with
  | string text =>
      have htext : Text.utf16Length text ≤ longest := h
      constructor
      · intro other hmem
        rw [Output.strings] at hmem
        rw [List.mem_singleton.mp hmem, leafBound]
        omega
      · rwa [Output.textLength]
  | object id => exact h.elim
  | _ => exact ⟨leaves_of_strings_nil rfl, Nat.zero_le _⟩

theorem leaves_longest {text : Text} (h : Text.utf16Length text ≤ longest) :
    Leaves limits longest (.string text) := by
  intro other hmem
  rw [Output.strings] at hmem
  rw [List.mem_singleton.mp hmem, leafBound]
  omega

theorem leaves_truncateString {text : Text} {cap : Int} (hcap : 0 ≤ cap)
    (hle : cap ≤ limits.maxStringLength) (htext : Text.utf16Length text ≤ maxTextLength) :
    Text.utf16Length (truncateString text cap) ≤ leafBound limits longest := by
  have hcut := utf16Length_truncateString_le hcap htext
  rw [leafBound]
  omega

theorem regExp_spends {source flags : Text} (hsource : Text.utf16Length source ≤ longest)
    (hflags : Text.utf16Length flags ≤ longest) :
    FrameSpends host limits longest budget
      (.ok (.record [("_type".toList, .string "RegExp"), ("source".toList, .string source),
        ("flags".toList, .string flags)]), budget) := by
  refine spends_record ?_ ?_
  · simp only [List.forall_mem_cons]
    exact ⟨leaves_mark (by decide), leaves_longest hsource, leaves_longest hflags,
      List.forall_mem_nil _⟩
  · have htype : Output.fieldLength ("_type".toList, .string "RegExp") = 11 := rfl
    have hsource' : Output.fieldLength ("source".toList, .string source) =
      6 + Text.utf16Length source := rfl
    have hflags' : Output.fieldLength ("flags".toList, .string flags) =
      5 + Text.utf16Length flags := rfl
    simp only [Output.textLengthFields_cons, htype, hsource', hflags',
      Output.textLengthFields_nil, frameBound, leafBound]
    omega

theorem buffer_spends {bytes : Bytes} (hcap : 0 ≤ limits.maxStringLength)
    (h : Text.utf16Length (Bytes.toBase64 bytes) ≤ maxTextLength) :
    FrameSpends host limits longest budget
      (.ok (.record [("_type".toList, .string "Buffer"), ("encoding".toList, .string "base64"),
        ("data".toList, .string (truncateString (Bytes.toBase64 bytes) limits.maxStringLength)),
        ("length".toList, .count bytes.length)]), budget) := by
  have hdata : Text.utf16Length (truncateString (Bytes.toBase64 bytes) limits.maxStringLength) ≤
      leafBound limits longest := leaves_truncateString hcap (Int.le_refl _) h
  refine spends_record ?_ ?_
  · simp only [List.forall_mem_cons]
    refine ⟨leaves_mark (by decide), leaves_mark (by decide), ?_, leaves_of_strings_nil rfl,
      List.forall_mem_nil _⟩
    intro text hmem
    rw [Output.strings] at hmem
    rwa [List.mem_singleton.mp hmem]
  · have htype : Output.fieldLength ("_type".toList, .string "Buffer") = 11 := rfl
    have hencoding : Output.fieldLength ("encoding".toList, .string "base64") = 14 := rfl
    have hfield : ∀ data, Output.fieldLength ("data".toList, .string data) =
      4 + Text.utf16Length data := fun _ => rfl
    have hcount : Output.fieldLength ("length".toList, .count bytes.length) = 6 := rfl
    simp only [Output.textLengthFields_cons, htype, hencoding, hfield, hcount,
      Output.textLengthFields_nil, frameBound]
    omega

theorem error_spends {name message stack : Value} (hname : name.IsShort longest)
    (hmessage : message.IsShort longest) (hstack : stack.IsShort longest) :
    FrameSpends host limits longest budget
      (cloneError (.ok name) (.ok message) (.ok stack), budget) := by
  obtain ⟨hnames, hnamelength⟩ := verbatim_texts limits hname
  obtain ⟨hmessages, hmessagelength⟩ := verbatim_texts limits hmessage
  have hstacks : Leaves limits longest (if stack = .undefined ∨ stack = .null then
        Output.string [] else .verbatim stack) ∧
      (if stack = .undefined ∨ stack = .null then Output.string [] else
        .verbatim stack).textLength ≤ longest := by
    split
    · exact ⟨leaves_mark (by decide), Nat.zero_le _⟩
    · exact verbatim_texts limits hstack
  refine spends_record ?_ ?_
  · simp only [List.forall_mem_cons]
    exact ⟨leaves_mark (by decide), hnames, hmessages, hstacks.1, List.forall_mem_nil _⟩
  · have htype : Output.fieldLength ("_type".toList, .string "Error") = 10 := rfl
    have hnamekey : Text.utf16Length "name".toList = 4 := rfl
    have hmessagekey : Text.utf16Length "message".toList = 7 := rfl
    have hstackkey : Text.utf16Length "stack".toList = 5 := rfl
    have hstacklength := hstacks.2
    simp only [Output.textLengthFields_cons, htype, Output.textLengthFields_nil]
    simp only [Output.fieldLength, hnamekey, hmessagekey, hstackkey, frameBound, leafBound]
    omega

theorem typedArray_spends {typeName : Value} {elements : List Element}
    (h : typeName.IsShort longest) :
    FrameSpends host limits longest budget
      (.ok (cloneTypedArray limits typeName elements), budget) := by
  obtain ⟨hname, hlength⟩ := verbatim_texts limits h
  have hsample : ∀ element : Element, (Output.verbatim element.toValue).strings = [] ∧
      (Output.verbatim element.toValue).textLength = 0 := by
    intro element
    cases element <;> exact ⟨rfl, rfl⟩
  have hitems : ∀ elements : List Element,
      (∀ item ∈ elements.map fun element => Output.verbatim element.toValue,
        Leaves limits longest item) ∧
      Output.textLengthItems (elements.map fun element => .verbatim element.toValue) = 0 := by
    intro elements
    induction elements with
    | nil => exact ⟨List.forall_mem_nil _, rfl⟩
    | cons element elements ih =>
        rw [List.map_cons, Output.textLengthItems, ih.2, (hsample element).2]
        exact ⟨List.forall_mem_cons.mpr ⟨leaves_of_strings_nil (hsample element).1, ih.1⟩, rfl⟩
  obtain ⟨hleaves, hzero⟩ := hitems (elements.take limits.items)
  refine spends_record ?_ ?_
  · simp only [List.forall_mem_cons]
    exact ⟨hname, leaves_of_strings_nil rfl, leaves_array hleaves, List.forall_mem_nil _⟩
  · have htypekey : Text.utf16Length "_type".toList = 5 := rfl
    have hcount : Output.fieldLength ("length".toList, .count elements.length) = 6 := rfl
    have hsamplekey : Text.utf16Length "sample".toList = 6 := rfl
    simp only [Output.textLengthFields_cons, hcount, Output.textLengthFields_nil]
    have hsample : (Output.array ((elements.take limits.items).map fun element =>
      .verbatim element.toValue)).textLength = 0 := by rw [Output.textLength, hzero]
    simp only [Output.fieldLength, htypekey, hsamplekey, hsample, frameBound, leafBound]
    omega

/-- A container that is not on the current path is cloned. -/
theorem container_spends (step : Clone Output) {visited : List Nat} {id : Nat}
    (h : FrameSpends host limits longest budget (step budget)) :
    FrameSpends host limits longest budget
      (if id ∈ visited then (.ok (.string "[Circular]"), budget) else step budget) := by
  split
  · exact spends_mark (by decide)
  · exact h

section Branches

variable {clone : List Nat → Value → Clone Output} {id : Nat}

theorem cloneHeapObject_spends (hcap : 0 ≤ limits.maxStringLength)
    (hnode : LongestText host limits longest (.object id))
    (h : ∀ visited next, Child host limits (.object id) next → ∀ budget,
      FrameSpends host limits longest budget (clone visited next budget))
    (visited : List Nat) (budget : Int) :
    FrameSpends host limits longest budget
      (cloneHeapObject host limits clone visited id budget) := by
  obtain ⟨hcopies, hthrows⟩ := hnode
  unfold cloneHeapObject
  cases hobject : host.heap id with
  | function name =>
      cases name with
      | error thrown => exact .error (Int.le_refl _) (hthrows thrown (.name hobject))
      | ok name =>
          simp only [CopiesTexts, hobject] at hcopies
          exact spends_wrapped "[Function: ".toList "]".toList hcopies (by decide)
  | trapped thrown => exact .error (Int.le_refl _) (hthrows thrown (.trap hobject))
  | date iso =>
      cases iso with
      | error thrown => exact .error (Int.le_refl _) (hthrows thrown (.date hobject))
      | ok iso =>
          simp only [CopiesTexts, hobject] at hcopies
          have hwrapped : FrameSpends host limits longest budget
            (.ok (.string ([] ++ iso ++ [])), budget) := spends_wrapped [] [] hcopies (by decide)
          rwa [List.nil_append, List.append_nil] at hwrapped
  | regExp source flags =>
      simp only [CopiesTexts, hobject] at hcopies
      exact regExp_spends hcopies.1 hcopies.2
  | error name message stack =>
      have hthrown : ∀ thrown, .error thrown ∈ [name, message, stack] →
          FrameSpends host limits longest budget (.error thrown, budget) := fun thrown hmem =>
        .error (Int.le_refl _) (hthrows thrown (.error hobject hmem))
      cases name with
      | error thrown => exact hthrown thrown (by simp)
      | ok name =>
          cases message with
          | error thrown => exact hthrown thrown (by simp)
          | ok message =>
              cases stack with
              | error thrown => exact hthrown thrown (by simp)
              | ok stack =>
                  simp only [CopiesTexts, hobject] at hcopies
                  exact error_spends hcopies.1 hcopies.2.1 hcopies.2.2
  | buffer bytes =>
      simp only [CopiesTexts, hobject] at hcopies
      exact buffer_spends hcap hcopies
  | map entries =>
      exact container_spends _ (cloneMap_spends (fun entry hmem budget =>
        ⟨h _ _ (.key hobject hmem) budget, h _ _ (.value hobject hmem) budget⟩) budget)
  | set values =>
      exact container_spends _ (cloneSet_spends (fun value hmem =>
        h _ _ (.member hobject hmem)) budget)
  | typedArray typeName elements =>
      cases typeName with
      | error thrown => exact .error (Int.le_refl _) (hthrows thrown (.typeName hobject))
      | ok typeName =>
          simp only [CopiesTexts, hobject] at hcopies
          exact typedArray_spends hcopies
  | arrayBuffer byteLength =>
      refine spends_record ?_ ?_
      · simp only [List.forall_mem_cons]
        exact ⟨leaves_mark (by decide), leaves_of_strings_nil rfl, List.forall_mem_nil _⟩
      · have hlength : Output.textLengthFields [("_type".toList, .string "ArrayBuffer"),
          ("byteLength".toList, .count byteLength)] = 26 := rfl
        rw [hlength, frameBound]
        omega
  | array items =>
      refine container_spends _ (cloneArray_spends (fun item hmem => ?_) budget)
      refine cloneProperty_spends ?_ ?_
      · rintro value rfl
        exact h _ _ (.item hobject hmem)
      · rintro thrown rfl
        exact hthrows thrown (.item hobject hmem)
  | object properties =>
      cases properties with
      | error thrown =>
          exact container_spends (fun budget => (.error thrown, budget))
            (.error (Int.le_refl _) (hthrows thrown (.keys hobject)))
      | ok properties =>
          simp only [CopiesTexts, hobject] at hcopies
          refine container_spends _ (cloneObject_spends hcopies (fun field hmem => ?_) budget)
          obtain ⟨key, property⟩ := field
          refine cloneProperty_spends ?_ ?_
          · rintro value rfl
            exact h _ _ (.property hobject hmem)
          · rintro thrown rfl
            exact hthrows thrown (.property hobject hmem)

theorem cloneValue_spends {value : Value}
    (hcap : 0 ≤ limits.maxStringLength) (hnode : LongestText host limits longest value)
    (h : ∀ visited next, Child host limits value next → ∀ budget,
      FrameSpends host limits longest budget (clone visited next budget))
    (visited : List Nat) (budget : Int) :
    FrameSpends host limits longest budget
      (cloneValue host limits clone visited value budget) := by
  have hpays : ∀ {output : Output} (cost : Nat), output.strings = [] → output.textLength = 0 →
      FrameSpends host limits longest budget (.ok output, budget - cost) := by
    intro output cost hstrings hlength
    have hle := weight_mul_le (2 * frameBound limits longest)
      (show budget - cost ≤ budget by omega)
    exact .ok (by omega) (leaves_of_strings_nil hstrings) (by omega)
  cases value with
  | undefined => exact hpays primitiveCost rfl rfl
  | null => exact hpays primitiveCost rfl rfl
  | boolean value => exact hpays primitiveCost rfl rfl
  | number value => cases value <;> exact hpays primitiveCost rfl rfl
  | bigint value =>
      have hdigits : Text.utf16Length (toString value).toList ≤ longest := hnode.1
      have hle := weight_mul_le (2 * frameBound limits longest)
        (show budget - (Text.utf16Length (toString value).toList + 20) ≤ budget by omega)
      refine .ok (by omega) ?_ ?_
      · refine leaves_object fun field hmem => ?_
        rcases List.mem_pair.mp hmem with rfl | rfl
        · exact leaves_mark (by decide)
        · exact leaves_longest hdigits
      · have htype : Output.fieldLength ("_type".toList, .string "BigInt") = 11 := rfl
        have hvalue : ∀ digits, Output.fieldLength ("value".toList, .string digits) =
          5 + Text.utf16Length digits := fun _ => rfl
        rw [Output.record, Output.textLength]
        simp only [Output.textLengthFields_cons, htype, hvalue,
          Output.textLengthFields_nil]
        have hframe : longest + 72 ≤ frameBound limits longest := by
          rw [frameBound, leafBound]
          omega
        omega
  | string value =>
      have hlength : Text.utf16Length value ≤ maxTextLength := hnode.1
      have hcut : Text.utf16Length (truncateString value
          (min limits.maxStringLength (max 0 budget))) ≤ leafBound limits longest :=
        leaves_truncateString (by omega) (by omega) hlength
      dsimp only [cloneValue]
      generalize truncateString value (min limits.maxStringLength (max 0 budget)) = text at hcut ⊢
      have hle := weight_mul_le (2 * frameBound limits longest)
        (show budget - Text.utf16Length text ≤ budget by omega)
      have hframe : leafBound limits longest ≤ frameBound limits longest := by
        rw [frameBound]
        omega
      refine .ok (by omega) ?_ ?_
      · intro other hmem
        rw [Output.strings] at hmem
        rwa [List.mem_singleton.mp hmem]
      · rw [Output.textLength]
        omega
  | symbol description =>
      exact spends_wrapped "[Symbol: ".toList "]".toList hnode.1 (by decide)
  | object id => exact cloneHeapObject_spends hcap hnode h visited budget

end Branches

/-- The induction is on the levels that are left. -/
theorem cloneAndLimitInternal_spends (hcap : 0 ≤ limits.maxStringLength) {levels : Nat}
    {value : Value}
    (h : ∀ node, Within host limits levels value node → LongestText host limits longest node)
    (visited : List Nat) (budget : Int) :
    FrameSpends host limits longest budget
      (cloneAndLimitInternal host limits levels visited value budget) := by
  induction levels generalizing visited value budget with
  | zero =>
      unfold cloneAndLimitInternal
      split
      · exact spends_mark (by decide)
      · exact spends_mark (by decide)
  | succ levels ih =>
      unfold cloneAndLimitInternal
      split
      · exact spends_mark (by decide)
      · exact orSerializationError_spends (cloneValue_spends hcap (h value .self)
          (fun visited next hchild => ih (fun node hnode => h node (.child hchild hnode)) visited)
          visited budget)

end Frames

/-- The graph of the witness: an array with one string. -/
def oneString : Host := ⟨fun _ => .array [.ok (.string "abcd")], fun _ => none⟩

/-- Every map holds the next one. -/
def endlessMaps : Host := ⟨fun id => .map [(.null, .object (id + 1))], fun _ => none⟩

theorem cloneNull_height (host : Host) (limits : SerializationLimits) (levels : Nat)
    (visited : List Nat) {budget : Int} (hbudget : 0 < budget) :
    ∃ output rest, cloneAndLimitInternal host limits levels visited .null budget =
      (.ok output, rest) ∧ output.height = 0 ∧ budget - 8 ≤ rest := by
  cases levels with
  | zero =>
      refine ⟨.string "[Depth limit]", budget, ?_, rfl, by omega⟩
      rw [cloneAndLimitInternal, if_neg (Int.not_le.mpr hbudget)]
  | succ levels =>
      refine ⟨.null, budget - 8, ?_, rfl, Int.le_refl _⟩
      rw [cloneAndLimitInternal, if_neg (Int.not_le.mpr hbudget)]
      rfl

theorem endlessMaps_height (limits : SerializationLimits) (hitems : 0 < limits.items) (levels : Nat)
    {visited : List Nat} {id : Nat} {budget : Int} (hvisited : ∀ seen ∈ visited, seen < id)
    (hbudget : 12 * levels < budget) :
    ∃ output rest, cloneAndLimitInternal endlessMaps limits levels visited (.object id) budget =
      (.ok output, rest) ∧ output.height = 3 * levels := by
  induction levels generalizing visited id budget with
  | zero =>
      refine ⟨.string "[Depth limit]", budget, ?_, rfl⟩
      rw [cloneAndLimitInternal, if_neg (by omega)]
  | succ levels ih =>
      obtain ⟨key, rest, hkey, hkeyheight, hrest⟩ := cloneNull_height endlessMaps limits levels
        (id :: visited) (show 0 < budget - 4 by omega)
      have hnext : ∀ seen ∈ id :: visited, seen < id + 1 := by
        intro seen hmem
        rcases List.mem_cons.mp hmem with rfl | hmem
        · exact Nat.lt_succ_self _
        · exact Nat.lt_succ_of_lt (hvisited seen hmem)
      obtain ⟨value, rest', hvalue, hheight⟩ := ih hnext (show 12 * levels < rest by omega)
      have hnew : id ∉ visited := fun hmem => absurd (hvisited id hmem) (Nat.lt_irrefl id)
      have htake : [(Value.null, Value.object (id + 1))].take limits.items =
          [(.null, .object (id + 1))] := List.take_of_length_le hitems
      have hcost : budget - ((entryOverhead : Nat) : Int) = budget - 4 := rfl
      have hloop : cloneLoop (fun _ => entryOverhead)
          (cloneEntry (cloneAndLimitInternal endlessMaps limits levels (id :: visited)))
          [(.null, .object (id + 1))] budget = (.ok ([.array [key, value]], false), rest') := by
        rw [cloneLoop, if_neg (by omega), hcost, cloneEntry, hkey]
        dsimp only
        rw [hvalue]
        rfl
      refine ⟨mapRecord 1 [.array [key, value]] false, rest', ?_, ?_⟩
      · rw [cloneAndLimitInternal, if_neg (by omega), cloneValue, cloneHeapObject]
        simp only [endlessMaps] at *
        rw [if_neg hnew, cloneMap, htake, hloop]
        rfl
      · have hmap : (mapRecord 1 [.array [key, value]] false).height =
          max 1 (max 1 (max (max (max (key.height + 1) (max (value.height + 1) 0) + 1) 0 + 1) 0)) :=
          rfl
        omega

end CloneAndLimit

end ErrorCore
