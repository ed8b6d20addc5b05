import ErrorCore.Serialization.CloneAndLimit

/-!
# When a clone can be serialized

A JSON-safe output is a tree of null, booleans, finite numbers, strings, arrays
and plain objects. `Output` is a finite tree by construction, and what could
share an object with the input, or hold a bigint or `NaN`, is `verbatim`.

The fields of an error and the elements of a typed array are copied verbatim,
so they have to be JSON primitives already, and a thrown error has to be
readable, since `getErrorMessage` reads its message outside the `try`. With
these two conditions on the nodes within the limits the clone is JSON-safe
under every budget. The first is necessary: a budget that is large enough takes
the traversal to the node, unless something on the way hides it.
-/

namespace ErrorCore

namespace CloneAndLimit

/-! ## JSON-safe outputs -/

namespace Value

def IsJsonPrimitive : Value → Prop
  | .null => True
  | .boolean _ => True
  | .number (.finite _) => True
  | .string _ => True
  | _ => False

/-- `value ?? ''` is a JSON primitive. -/
def IsOptionalPrimitive (value : Value) : Prop :=
  value = .undefined ∨ value = .null ∨ value.IsJsonPrimitive

/-- The value is neither an object nor cloned to one. -/
def IsScalar : Value → Prop
  | .bigint _ => False
  | .object _ => False
  | _ => True

end Value

inductive JsonSafe : Output → Prop
  | null : JsonSafe .null
  | boolean (value : Bool) : JsonSafe (.boolean value)
  | number (text : Text) : JsonSafe (.number text)
  | string (value : Text) : JsonSafe (.string value)
  | array {items : List Output} (h : ∀ item ∈ items, JsonSafe item) : JsonSafe (.array items)
  | object {fields : List (Text × Output)} (h : ∀ field ∈ fields, JsonSafe field.2) :
      JsonSafe (.object true fields)
  | verbatim {value : Value} (h : value.IsJsonPrimitive) : JsonSafe (.verbatim value)

namespace JsonSafe

theorem record_iff {fields : List (Text × Output)} :
    JsonSafe (.record fields) ↔ ∀ field ∈ fields, JsonSafe field.2 := by
  constructor
  · intro h
    cases h with
    | object h => exact h
  · exact .object

theorem array_iff {items : List Output} :
    JsonSafe (.array items) ↔ ∀ item ∈ items, JsonSafe item := by
  constructor
  · intro h
    cases h with
    | array h => exact h
  · exact .array

theorem verbatim_iff {value : Value} : JsonSafe (.verbatim value) ↔ value.IsJsonPrimitive := by
  constructor
  · intro h
    cases h with
    | verbatim h => exact h
  · exact .verbatim

theorem count (n : Nat) : JsonSafe (.count n) := .number _

end JsonSafe

/-! ## The nodes within the limits -/

section Nodes

variable (host : Host) (limits : SerializationLimits)

/-- The recursive calls for a value. -/
inductive Child : Value → Value → Prop
  | key {id : Nat} {entries : List (Value × Value)} {entry : Value × Value}
      (hmap : host.heap id = .map entries) (hmem : entry ∈ entries.take limits.items) :
      Child (.object id) entry.1
  | value {id : Nat} {entries : List (Value × Value)} {entry : Value × Value}
      (hmap : host.heap id = .map entries) (hmem : entry ∈ entries.take limits.items) :
      Child (.object id) entry.2
  | member {id : Nat} {values : List Value} {value : Value}
      (hset : host.heap id = .set values) (hmem : value ∈ values.take limits.items) :
      Child (.object id) value
  | item {id : Nat} {items : List Property} {value : Value}
      (harray : host.heap id = .array items) (hmem : .ok value ∈ items.take limits.items) :
      Child (.object id) value
  | property {id : Nat} {properties : OwnProperties} {key : Text} {value : Value}
      (hobject : host.heap id = .object (.ok properties))
      (hmem : (key, .ok value) ∈ properties.entries.take limits.keys) :
      Child (.object id) value

/-- The node is reached from the value in fewer than `levels` steps. -/
inductive Within : Nat → Value → Value → Prop
  | self {levels : Nat} {value : Value} : Within (levels + 1) value value
  | child {levels : Nat} {value next node : Value} (hchild : Child host limits value next)
      (hnode : Within levels next node) : Within (levels + 1) value node

/-- Cloning the value itself may run into this exception. -/
inductive Throws : Value → Value → Prop
  | name {id : Nat} {thrown : Value} (h : host.heap id = .function (.error thrown)) :
      Throws (.object id) thrown
  | trap {id : Nat} {thrown : Value} (h : host.heap id = .trapped thrown) :
      Throws (.object id) thrown
  | date {id : Nat} {thrown : Value} (h : host.heap id = .date (.error thrown)) :
      Throws (.object id) thrown
  | error {id : Nat} {name message stack : Property} {thrown : Value}
      (h : host.heap id = .error name message stack)
      (hmem : .error thrown ∈ [name, message, stack]) : Throws (.object id) thrown
  | typeName {id : Nat} {elements : List Element} {thrown : Value}
      (h : host.heap id = .typedArray (.error thrown) elements) : Throws (.object id) thrown
  | item {id : Nat} {items : List Property} {thrown : Value}
      (h : host.heap id = .array items) (hmem : .error thrown ∈ items.take limits.items) :
      Throws (.object id) thrown
  | keys {id : Nat} {thrown : Value} (h : host.heap id = .object (.error thrown)) :
      Throws (.object id) thrown
  | property {id : Nat} {properties : OwnProperties} {key : Text} {thrown : Value}
      (h : host.heap id = .object (.ok properties))
      (hmem : (key, .error thrown) ∈ properties.entries.take limits.keys) :
      Throws (.object id) thrown

def Readable (error : Value) : Prop :=
  ∃ message, getErrorMessage host error = .ok message

/-- What cloning the node may throw is readable. -/
def Recoverable (node : Value) : Prop :=
  ∀ thrown, Throws host limits node thrown → Readable host thrown

/-- No copied key of the node replaces the prototype of the clone. -/
def KeepsPrototype (node : Value) : Prop :=
  ∀ id properties value, node = .object id → host.heap id = .object (.ok properties) →
    ("__proto__".toList, .ok value) ∈ properties.entries.take limits.keys → value.IsScalar

/-- What the node copies verbatim are JSON primitives. -/
def CopiesPrimitives : Value → Prop
  | .object id =>
      match host.heap id with
      | .error (.ok name) (.ok message) (.ok stack) =>
          name.IsJsonPrimitive ∧ message.IsJsonPrimitive ∧ stack.IsOptionalPrimitive
      | .typedArray (.ok typeName) elements =>
          typeName.IsJsonPrimitive ∧
            ∀ element ∈ elements.take limits.items, element.toValue.IsJsonPrimitive
      | _ => True
  | _ => True

/-- The truncation marks of the clone do not overwrite one of its keys. -/
def KeepsKeys (node : Value) : Prop :=
  ∀ id properties, node = .object id → host.heap id = .object (.ok properties) →
    ∀ field ∈ properties.entries.take limits.keys,
      field.1 ≠ "_truncated".toList ∧ field.1 ≠ "_originalKeyCount".toList

/-- The clone is returned and JSON-safe. -/
def ReturnsJsonSafe (value : Value) : Prop :=
  ∃ output, cloneAndLimit host limits value = .ok output ∧ JsonSafe output

end Nodes

section Proofs

variable {host : Host} {limits : SerializationLimits}

namespace Within

theorem mono {levels levels' : Nat} {value node : Value} (h : Within host limits levels value node)
    (hle : levels ≤ levels') : Within host limits levels' value node := by
  induction h generalizing levels' with
  | self =>
      obtain ⟨n, rfl⟩ := Nat.exists_eq_add_of_lt (Nat.lt_of_lt_of_le (Nat.succ_pos _) hle)
      rw [Nat.zero_add]
      exact .self
  | child hchild _ ih =>
      obtain ⟨n, rfl⟩ := Nat.exists_eq_add_of_lt (Nat.lt_of_lt_of_le (Nat.succ_pos _) hle)
      rw [Nat.zero_add] at hle ⊢
      exact .child hchild (ih (Nat.le_of_succ_le_succ hle))

end Within

/-! ## Lengths -/

theorem utf16Length_append (a b : Text) :
    Text.utf16Length (a ++ b) = Text.utf16Length a + Text.utf16Length b := by
  induction a with
  | nil => exact (Nat.zero_add _).symm
  | cons c a ih => simp only [List.cons_append, Text.utf16Length, ih, Nat.add_assoc]

theorem utf16Length_sliceStart_le (count : Nat) (text : Text) :
    Text.utf16Length (Text.sliceStart count text) ≤ Text.utf16Length text := by
  induction count, text using Text.sliceStart.induct with
  | case1 text => exact Nat.zero_le _
  | case2 count => simp [Text.sliceStart]
  | case3 count c text hc ih =>
      rw [Text.sliceStart.eq_def]
      simp only [Text.utf16Length, if_pos hc]
      omega
  | case4 c text hc =>
      have hmark : Text.utf16Length [Char.ofNat 0xfffd] = 1 := rfl
      rw [Text.sliceStart.eq_def]
      simp only [if_neg hc, hmark]
      simp only [Text.utf16Length, if_neg hc]
      omega
  | case5 c text hc count ih =>
      rw [Text.sliceStart.eq_def]
      simp only [Text.utf16Length, if_neg hc]
      omega

/-- Truncation adds a note of a bounded length. -/
theorem exists_truncateString_le (value : Text) :
    ∃ bound, ∀ cap, Text.utf16Length (truncateString value cap) ≤ bound := by
  refine ⟨Text.utf16Length value + Text.utf16Length ("...[truncated, ".toList ++
    (toString (Text.utf16Length value)).toList ++ " chars]".toList), fun cap => ?_⟩
  unfold truncateString
  split
  · exact Nat.le_add_right _ _
  · have hslice : Text.utf16Length (sliceTo value cap) ≤ Text.utf16Length value := by
      unfold sliceTo
      split
      · exact utf16Length_sliceStart_le _ _
      · exact utf16Length_sliceStart_le _ _
    simp only [utf16Length_append]
    omega

/-! ## Steps of the traversal -/

/-- Whatever the budget, the step returns something with the property. -/
def Yields {α : Type} (step : Clone α) (P : α → Prop) : Prop :=
  ∀ budget, ∃ output rest, step budget = (.ok output, rest) ∧ P output

/-- The step takes a bounded part of the budget. -/
def Affordable {α : Type} (step : Clone α) : Prop :=
  ∃ cost : Nat, ∀ budget, budget - cost ≤ (step budget).2

/-- Whenever the budget is large enough, the step returns something with the property. -/
def EventuallyYields {α : Type} (step : Clone α) (P : α → Prop) : Prop :=
  ∃ bound : Nat, ∀ budget : Int, bound < budget → ∃ output rest, step budget = (.ok output, rest) ∧
    P output

theorem Yields.mono {α : Type} {step : Clone α} {P Q : α → Prop} (h : Yields step P)
    (hPQ : ∀ output, P output → Q output) : Yields step Q := by
  intro budget
  obtain ⟨output, rest, hstep, hP⟩ := h budget
  exact ⟨output, rest, hstep, hPQ output hP⟩

section Loop

variable {α β : Type} {cost : α → Nat} {clone : α → Clone β} {items : List α} {P Q : β → Prop}

theorem cloneLoop_yields (h : ∀ item ∈ items, Yields (clone item) P) :
    Yields (cloneLoop cost clone items) fun result => ∀ output ∈ result.1, P output := by
  induction items with
  | nil => exact fun budget => ⟨_, _, rfl, List.forall_mem_nil _⟩
  | cons item items ih =>
      intro budget
      unfold cloneLoop
      split
      · exact ⟨_, _, rfl, List.forall_mem_nil _⟩
      · obtain ⟨output, rest, hitem, hP⟩ := h item List.mem_cons_self (budget - cost item)
        obtain ⟨result, rest', hitems, hPs⟩ :=
          ih (fun item hmem => h item (List.mem_cons_of_mem _ hmem)) rest
        rw [hitem]
        dsimp only
        rw [hitems]
        exact ⟨_, _, rfl, List.forall_mem_cons.mpr ⟨hP, hPs⟩⟩

theorem cloneLoop_affordable (h : ∀ item ∈ items, Affordable (clone item)) :
    Affordable (cloneLoop cost clone items) := by
  induction items with
  | nil => exact ⟨0, fun budget => by simp [cloneLoop]⟩
  | cons item items ih =>
      obtain ⟨c, hc⟩ := h item List.mem_cons_self
      obtain ⟨d, hd⟩ := ih fun item hmem => h item (List.mem_cons_of_mem _ hmem)
      refine ⟨cost item + c + d, fun budget => ?_⟩
      unfold cloneLoop
      split
      · dsimp only
        omega
      · have hitem := hc (budget - cost item)
        rcases hstep : clone item (budget - cost item) with ⟨output | output, rest⟩
        · rw [hstep] at hitem
          dsimp only at hitem ⊢
          omega
        · rw [hstep] at hitem
          have hitems := hd rest
          dsimp only at hitem ⊢
          rcases hrest : cloneLoop cost clone items rest with ⟨result | result, rest'⟩ <;>
          · rw [hrest] at hitems
            dsimp only at hitems ⊢
            omega

/-- A budget that pays for the items before it takes the loop to the item. -/
theorem cloneLoop_reaches (hyields : ∀ item ∈ items, Yields (clone item) Q)
    (hcost : ∀ item ∈ items, Affordable (clone item)) {item : α} (hmem : item ∈ items)
    (hitem : EventuallyYields (clone item) P) :
    EventuallyYields (cloneLoop cost clone items) fun result => ∃ output ∈ result.1, P output := by
  induction items with
  | nil => contradiction
  | cons first items ih =>
      have hrest : Yields (cloneLoop cost clone items) fun result =>
          ∀ output ∈ result.1, Q output :=
        cloneLoop_yields fun item hmem => hyields item (List.mem_cons_of_mem _ hmem)
      by_cases hfirst : item = first
      · subst hfirst
        obtain ⟨bound, hbound⟩ := hitem
        refine ⟨bound + cost item, fun budget hbudget => ?_⟩
        obtain ⟨output, rest, hstep, hP⟩ := hbound (budget - cost item) (by omega)
        obtain ⟨result, rest', hitems, -⟩ := hrest rest
        unfold cloneLoop
        rw [if_neg (by omega), hstep]
        dsimp only
        rw [hitems]
        exact ⟨_, _, rfl, output, List.mem_cons_self, hP⟩
      · have htail : item ∈ items := (List.mem_cons.mp hmem).resolve_left hfirst
        obtain ⟨bound, hbound⟩ := ih (fun item hmem => hyields item (List.mem_cons_of_mem _ hmem))
          (fun item hmem => hcost item (List.mem_cons_of_mem _ hmem)) htail
        obtain ⟨c, hc⟩ := hcost first List.mem_cons_self
        refine ⟨bound + c + cost first, fun budget hbudget => ?_⟩
        obtain ⟨output, rest, hstep, -⟩ := hyields first List.mem_cons_self (budget - cost first)
        have hleft := hc (budget - cost first)
        rw [hstep] at hleft
        obtain ⟨result, rest', hitems, found, hfound, hP⟩ :=
          hbound rest (by dsimp only at hleft; omega)
        unfold cloneLoop
        rw [if_neg (by omega), hstep]
        dsimp only
        rw [hitems]
        exact ⟨_, _, rfl, found, List.mem_cons_of_mem _ hfound, hP⟩

/-- The copies are those of the first items, in order. -/
theorem cloneLoop_prefix {γ : Type} {nameOf : α → γ} {nameOf' : β → γ}
    (hname : ∀ item budget output rest, clone item budget = (.ok output, rest) →
      nameOf' output = nameOf item) {budget rest : Int} {result : List β × Bool}
    (h : cloneLoop cost clone items budget = (.ok result, rest)) :
    result.1.map nameOf' <+: items.map nameOf := by
  induction items generalizing budget rest result with
  | nil =>
      obtain ⟨hresult, -⟩ := Prod.mk.inj h
      rw [← Except.ok.inj hresult]
      exact List.nil_prefix
  | cons item items ih =>
      unfold cloneLoop at h
      split at h
      · obtain ⟨hresult, -⟩ := Prod.mk.inj h
        rw [← Except.ok.inj hresult]
        exact List.nil_prefix
      · rcases hstep : clone item (budget - cost item) with ⟨output | output, left⟩
        · simp [hstep] at h
        · rcases hrest : cloneLoop cost clone items left with ⟨outputs | outputs, left'⟩
          · simp [hstep, hrest] at h
          · simp only [hstep, hrest, Prod.mk.injEq, Except.ok.injEq] at h
            rw [← h.1]
            simp only [List.map_cons, hname _ _ _ _ hstep]
            exact List.cons_prefix_cons.mpr ⟨rfl, ih hrest⟩

end Loop

section Assemble

variable {β : Type} {loop : Clone (List β × Bool)} {build : List β → Bool → Output}
  {P : List β × Bool → Prop} {Q : Output → Prop}

theorem assemble_yields (h : Yields loop P)
    (hbuild : ∀ result, P result → Q (build result.1 result.2)) :
    Yields (fun budget => assemble build (loop budget)) Q := by
  intro budget
  obtain ⟨result, rest, hloop, hP⟩ := h budget
  refine ⟨build result.1 result.2, rest, ?_, hbuild result hP⟩
  dsimp only
  rw [hloop]
  rfl

theorem assemble_eventuallyYields (h : EventuallyYields loop P)
    (hbuild : ∀ budget rest result, loop budget = (.ok result, rest) → P result →
      Q (build result.1 result.2)) :
    EventuallyYields (fun budget => assemble build (loop budget)) Q := by
  obtain ⟨bound, hbound⟩ := h
  refine ⟨bound, fun budget hbudget => ?_⟩
  obtain ⟨result, rest, hloop, hP⟩ := hbound budget hbudget
  refine ⟨build result.1 result.2, rest, ?_, hbuild _ _ _ hloop hP⟩
  dsimp only
  rw [hloop]
  rfl

theorem assemble_snd (result : Except Value (List β × Bool) × Int) :
    (assemble build result).2 = result.2 := by
  rcases result with ⟨result | result, rest⟩ <;> rfl

theorem assemble_affordable (h : Affordable loop) :
    Affordable fun budget => assemble build (loop budget) := by
  obtain ⟨cost, hcost⟩ := h
  refine ⟨cost, fun budget => ?_⟩
  rw [assemble_snd]
  exact hcost budget

end Assemble

/-! ## Exceptions -/

theorem serializationError_of_readable {thrown : Value} (h : Readable host thrown) :
    ∃ message, serializationError host thrown = .ok (.string message) := by
  obtain ⟨message, hmessage⟩ := h
  exact ⟨_, by unfold serializationError; rw [hmessage]⟩

theorem orSerializationError_snd (result : Except Value Output × Int) :
    (orSerializationError host result).2 = result.2 := by
  rcases result with ⟨result | result, rest⟩ <;> rfl

/-- A frame of the traversal returns when whatever its body throws is readable. -/
theorem orSerializationError_returns {P : Output → Prop} {result : Except Value Output × Int}
    (hok : ∀ output, result.1 = .ok output → P output)
    (herror : ∀ thrown, result.1 = .error thrown → Readable host thrown)
    (hstring : ∀ message, P (.string message)) :
    ∃ output rest, orSerializationError host result = (.ok output, rest) ∧ P output := by
  rcases result with ⟨thrown | output, rest⟩
  · obtain ⟨message, hmessage⟩ := serializationError_of_readable (herror thrown rfl)
    exact ⟨_, rest, by rw [orSerializationError, hmessage], hstring message⟩
  · exact ⟨output, rest, rfl, hok output rfl⟩

/-! ## Entries and properties -/

section Items

variable {clone : Value → Clone Output} {P : Output → Prop}

theorem cloneEntry_yields {entry : Value × Value} {Q : Output → Prop}
    (hkey : Yields (clone entry.1) P) (hvalue : Yields (clone entry.2) P)
    (hpair : ∀ key value, P key → P value → Q (.array [key, value])) :
    Yields (cloneEntry clone entry) Q := by
  intro budget
  obtain ⟨key, rest, hk, hPk⟩ := hkey budget
  obtain ⟨value, rest', hv, hPv⟩ := hvalue rest
  refine ⟨.array [key, value], rest', ?_, hpair key value hPk hPv⟩
  unfold cloneEntry
  rw [hk]
  dsimp only
  rw [hv]

theorem cloneEntry_affordable {entry : Value × Value} (hkey : Affordable (clone entry.1))
    (hvalue : Affordable (clone entry.2)) : Affordable (cloneEntry clone entry) := by
  obtain ⟨c, hc⟩ := hkey
  obtain ⟨d, hd⟩ := hvalue
  refine ⟨c + d, fun budget => ?_⟩
  have hkey := hc budget
  unfold cloneEntry
  rcases hk : clone entry.1 budget with ⟨key | key, rest⟩
  · rw [hk] at hkey
    dsimp only at hkey ⊢
    omega
  · rw [hk] at hkey
    have hvalue := hd rest
    dsimp only at hkey ⊢
    rcases hv : clone entry.2 rest with ⟨value | value, rest'⟩ <;>
    · rw [hv] at hvalue
      dsimp only at hvalue ⊢
      omega

/-- An entry is spoiled by its key. -/
theorem cloneEntry_reaches_key {entry : Value × Value}
    (hkey : EventuallyYields (clone entry.1) (¬ JsonSafe ·))
    (hvalue : Yields (clone entry.2) fun _ => True) :
    EventuallyYields (cloneEntry clone entry) (¬ JsonSafe ·) := by
  obtain ⟨bound, hbound⟩ := hkey
  refine ⟨bound, fun budget hbudget => ?_⟩
  obtain ⟨key, rest, hk, hbad⟩ := hbound budget hbudget
  obtain ⟨value, rest', hv, -⟩ := hvalue rest
  refine ⟨.array [key, value], rest', ?_, fun hsafe => ?_⟩
  · unfold cloneEntry
    rw [hk]
    dsimp only
    rw [hv]
  · exact hbad (JsonSafe.array_iff.mp hsafe key List.mem_cons_self)

/-- An entry is spoiled by its value, once the budget pays for the key. -/
theorem cloneEntry_reaches_value {entry : Value × Value}
    (hkey : Yields (clone entry.1) fun _ => True) (hcost : Affordable (clone entry.1))
    (hvalue : EventuallyYields (clone entry.2) (¬ JsonSafe ·)) :
    EventuallyYields (cloneEntry clone entry) (¬ JsonSafe ·) := by
  obtain ⟨bound, hbound⟩ := hvalue
  obtain ⟨c, hc⟩ := hcost
  refine ⟨bound + c, fun budget hbudget => ?_⟩
  obtain ⟨key, rest, hk, -⟩ := hkey budget
  have hleft := hc budget
  rw [hk] at hleft
  obtain ⟨value, rest', hv, hbad⟩ := hbound rest (by dsimp only at hleft; omega)
  refine ⟨.array [key, value], rest', ?_, fun hsafe => ?_⟩
  · unfold cloneEntry
    rw [hk]
    dsimp only
    rw [hv]
  · exact hbad (JsonSafe.array_iff.mp hsafe value
      (List.mem_cons_of_mem _ List.mem_cons_self))

theorem cloneProperty_yields {property : Property}
    (hok : ∀ value, property = .ok value → Yields (clone value) P)
    (herror : ∀ thrown, property = .error thrown → Readable host thrown)
    (hstring : ∀ message, P (.string message)) :
    Yields (cloneProperty host clone property) P := by
  intro budget
  cases property with
  | error thrown =>
      obtain ⟨message, hmessage⟩ := serializationError_of_readable (herror thrown rfl)
      refine ⟨_, budget, ?_, hstring message⟩
      simp only [cloneProperty, orSerializationError, hmessage]
  | ok value =>
      obtain ⟨output, rest, hclone, hP⟩ := hok value rfl budget
      refine ⟨output, rest, ?_, hP⟩
      simp only [cloneProperty, hclone, orSerializationError]

theorem cloneProperty_affordable {property : Property}
    (hok : ∀ value, property = .ok value → Affordable (clone value)) :
    Affordable (cloneProperty host clone property) := by
  cases property with
  | error thrown => exact ⟨0, fun budget => by simp [cloneProperty, orSerializationError_snd]⟩
  | ok value =>
      obtain ⟨cost, hcost⟩ := hok value rfl
      refine ⟨cost, fun budget => ?_⟩
      simp only [cloneProperty, orSerializationError_snd]
      exact hcost budget

theorem cloneProperty_reaches {value : Value} (h : EventuallyYields (clone value) P) :
    EventuallyYields (cloneProperty host clone (.ok value)) P := by
  obtain ⟨bound, hbound⟩ := h
  refine ⟨bound, fun budget hbudget => ?_⟩
  obtain ⟨output, rest, hclone, hP⟩ := hbound budget hbudget
  refine ⟨output, rest, ?_, hP⟩
  simp only [cloneProperty, hclone, orSerializationError]

theorem cloneField_yields {field : Text × Property}
    (h : Yields (cloneProperty host clone field.2) P) :
    Yields (cloneField host clone field) fun output => output.1 = field.1 ∧ P output.2 := by
  intro budget
  obtain ⟨output, rest, hclone, hP⟩ := h budget
  refine ⟨(field.1, output), rest, ?_, rfl, hP⟩
  simp only [cloneField, hclone]

theorem cloneField_affordable {field : Text × Property}
    (h : Affordable (cloneProperty host clone field.2)) :
    Affordable (cloneField host clone field) := by
  obtain ⟨cost, hcost⟩ := h
  refine ⟨cost, fun budget => ?_⟩
  have hclone := hcost budget
  unfold cloneField
  rcases hstep : cloneProperty host clone field.2 budget with ⟨output | output, rest⟩ <;>
  · rw [hstep] at hclone
    exact hclone

theorem cloneField_reaches {field : Text × Property}
    (h : EventuallyYields (cloneProperty host clone field.2) P) :
    EventuallyYields (cloneField host clone field) fun output =>
      output.1 = field.1 ∧ P output.2 := by
  obtain ⟨bound, hbound⟩ := h
  refine ⟨bound, fun budget hbudget => ?_⟩
  obtain ⟨output, rest, hclone, hP⟩ := hbound budget hbudget
  refine ⟨(field.1, output), rest, ?_, rfl, hP⟩
  simp only [cloneField, hclone]

theorem cloneField_fst (field : Text × Property) (budget : Int) (output : Text × Output)
    (rest : Int) (h : cloneField host clone field budget = (.ok output, rest)) :
    output.1 = field.1 := by
  unfold cloneField at h
  rcases hstep : cloneProperty host clone field.2 budget with ⟨result | result, left⟩
  · simp [hstep] at h
  · simp only [hstep, Prod.mk.injEq, Except.ok.injEq] at h
    rw [← h.1]

end Items

/-! ## The fields of a cloned object -/

namespace Record

variable {key name : Text} {value output : Output} {fields : List (Text × Output)}
  {cloned : Record}

theorem mem_setField_self : (key, value) ∈ setField key value fields := by
  induction fields with
  | nil => exact List.mem_cons_self
  | cons field fields ih =>
      unfold setField
      split
      · exact List.mem_cons_self
      · exact List.mem_cons_of_mem _ ih

theorem mem_setField_of_ne (hmem : (name, output) ∈ fields) (hne : name ≠ key) :
    (name, output) ∈ setField key value fields := by
  induction fields with
  | nil => contradiction
  | cons field fields ih =>
      unfold setField
      rcases List.mem_cons.mp hmem with rfl | hrest
      · rw [if_neg hne]
        exact List.mem_cons_self
      · split
        · exact List.mem_cons_of_mem _ hrest
        · exact List.mem_cons_of_mem _ (ih hrest)

theorem of_mem_setField {field : Text × Output} (hmem : field ∈ setField key value fields) :
    field = (key, value) ∨ field ∈ fields := by
  induction fields with
  | nil => exact .inl (List.mem_singleton.mp hmem)
  | cons first fields ih =>
      unfold setField at hmem
      split at hmem
      · exact (List.mem_cons.mp hmem).imp_right (List.mem_cons_of_mem _)
      · rcases List.mem_cons.mp hmem with rfl | hrest
        · exact .inr List.mem_cons_self
        · exact (ih hrest).imp_right (List.mem_cons_of_mem _)

/-- The object that the record becomes is JSON-safe. -/
structure Safe (cloned : Record) : Prop where
  plain : cloned.plain = true
  fields : ∀ field ∈ cloned.fields, JsonSafe field.2

theorem Safe.toOutput (h : cloned.Safe) : JsonSafe cloned.toOutput := by
  unfold Record.toOutput
  rw [h.plain]
  exact .object h.fields

theorem Safe.assign (h : cloned.Safe) (hvalue : JsonSafe value)
    (hkey : key = "__proto__".toList → ¬ value.IsContainer) : (cloned.assign key value).Safe := by
  unfold Record.assign
  split
  · rename_i hproto
    exact ⟨by simp [h.plain, hkey hproto], h.fields⟩
  · refine ⟨h.plain, fun field hmem => ?_⟩
    rcases of_mem_setField hmem with rfl | hmem
    · exact hvalue
    · exact h.fields field hmem

theorem Safe.assignAll (h : cloned.Safe)
    (hfields : ∀ field ∈ fields, JsonSafe field.2 ∧
      (field.1 = "__proto__".toList → ¬ field.2.IsContainer)) :
    (cloned.assignAll fields).Safe := by
  induction fields generalizing cloned with
  | nil => exact h
  | cons field fields ih =>
      obtain ⟨hvalue, hkey⟩ := hfields field List.mem_cons_self
      exact ih (h.assign hvalue hkey) fun field hmem =>
        hfields field (List.mem_cons_of_mem _ hmem)

theorem Safe.markTruncated (h : cloned.Safe) (keyCount : Nat) :
    (cloned.markTruncated keyCount).Safe :=
  (h.assign (.boolean true) (fun h => absurd h (by decide))).assign (.count keyCount)
    (fun h => absurd h (by decide))

theorem mem_assign_of_ne (hmem : (name, output) ∈ cloned.fields) (hne : name ≠ key) :
    (name, output) ∈ (cloned.assign key value).fields := by
  unfold Record.assign
  split
  · exact hmem
  · exact mem_setField_of_ne hmem hne

theorem mem_assign_self (hkey : key ≠ "__proto__".toList) :
    (key, value) ∈ (cloned.assign key value).fields := by
  unfold Record.assign
  rw [if_neg hkey]
  exact mem_setField_self

theorem mem_assignAll_of_notMem (hmem : (name, output) ∈ cloned.fields)
    (hnot : name ∉ fields.map Prod.fst) : (name, output) ∈ (cloned.assignAll fields).fields := by
  induction fields generalizing cloned with
  | nil => exact hmem
  | cons field fields ih =>
      rw [List.map_cons, List.mem_cons, not_or] at hnot
      exact ih (mem_assign_of_ne hmem hnot.1) hnot.2

/-- Every assigned field with a key of its own is there in the end. -/
theorem mem_assignAll (hmem : (name, output) ∈ fields) (hnodup : (fields.map Prod.fst).Nodup)
    (hname : name ≠ "__proto__".toList) :
    (name, output) ∈ (cloned.assignAll fields).fields := by
  induction fields generalizing cloned with
  | nil => contradiction
  | cons field fields ih =>
      rw [List.map_cons, List.nodup_cons] at hnodup
      unfold Record.assignAll
      rcases List.mem_cons.mp hmem with rfl | hrest
      · exact mem_assignAll_of_notMem (mem_assign_self hname) hnodup.1
      · exact ih hrest hnodup.2

theorem mem_markTruncated (hmem : (name, output) ∈ cloned.fields)
    (htruncated : name ≠ "_truncated".toList) (hcount : name ≠ "_originalKeyCount".toList)
    (keyCount : Nat) : (name, output) ∈ (cloned.markTruncated keyCount).fields :=
  mem_assign_of_ne (mem_assign_of_ne hmem htruncated) hcount

end Record

section Builders

variable {fields : List (Text × Output)} {items : List Output} {truncated : Bool} {size : Nat}

theorem truncatedField_safe {field : Text × Output} (h : field ∈ truncatedField truncated) :
    JsonSafe field.2 := by
  unfold truncatedField at h
  split at h
  · rw [List.mem_singleton.mp h]
    exact .boolean true
  · contradiction

theorem mapRecord_safe_iff :
    JsonSafe (mapRecord size items truncated) ↔ ∀ item ∈ items, JsonSafe item := by
  unfold mapRecord
  rw [JsonSafe.record_iff]
  constructor
  · intro h
    exact JsonSafe.array_iff.mp (h ("entries".toList, .array items) (by simp))
  · intro h
    simp only [List.forall_mem_append, List.forall_mem_cons]
    exact ⟨⟨.string _, .count _, .array h, List.forall_mem_nil _⟩,
      fun field hmem => truncatedField_safe hmem⟩

theorem setRecord_safe_iff :
    JsonSafe (setRecord size items truncated) ↔ ∀ item ∈ items, JsonSafe item := by
  unfold setRecord
  rw [JsonSafe.record_iff]
  constructor
  · intro h
    exact JsonSafe.array_iff.mp (h ("values".toList, .array items) (by simp))
  · intro h
    simp only [List.forall_mem_append, List.forall_mem_cons]
    exact ⟨⟨.string _, .count _, .array h, List.forall_mem_nil _⟩,
      fun field hmem => truncatedField_safe hmem⟩

theorem arrayOutput_safe_iff :
    JsonSafe (arrayOutput limits size items truncated) ↔ ∀ item ∈ items, JsonSafe item := by
  unfold arrayOutput
  split
  · exact JsonSafe.array_iff
  · rw [JsonSafe.record_iff]
    simp only [List.forall_mem_cons, JsonSafe.array_iff]
    exact ⟨fun h => h.1, fun h => ⟨h, .boolean true, .count _, List.forall_mem_nil _⟩⟩

theorem objectOutput_safe
    (h : ∀ field ∈ fields, JsonSafe field.2 ∧
      (field.1 = "__proto__".toList → ¬ field.2.IsContainer)) :
    JsonSafe (objectOutput limits size fields truncated) := by
  have hempty : (Record.mk true []).Safe := ⟨rfl, List.forall_mem_nil _⟩
  have hall := hempty.assignAll h
  unfold objectOutput
  dsimp only
  split <;> split
  · exact ((hall.markTruncated _).markTruncated _).toOutput
  · exact (hall.markTruncated _).toOutput
  · exact (hall.markTruncated _).toOutput
  · exact hall.toOutput

/-- A copy that is not JSON-safe is a field of the object. -/
theorem objectOutput_unsafe {name : Text} {output : Output} (hmem : (name, output) ∈ fields)
    (hnodup : (fields.map Prod.fst).Nodup) (hproto : name ≠ "__proto__".toList)
    (htruncated : name ≠ "_truncated".toList) (hcount : name ≠ "_originalKeyCount".toList)
    (hbad : ¬ JsonSafe output) : ¬ JsonSafe (objectOutput limits size fields truncated) := by
  intro hsafe
  have hall : (name, output) ∈ ((Record.mk true []).assignAll fields).fields :=
    Record.mem_assignAll hmem hnodup hproto
  have hfields : ∀ cloned : Record, JsonSafe cloned.toOutput → (name, output) ∉ cloned.fields := by
    intro cloned hcloned hin
    unfold Record.toOutput at hcloned
    cases hplain : cloned.plain with
    | false =>
        rw [hplain] at hcloned
        cases hcloned
    | true =>
        rw [hplain] at hcloned
        exact hbad (JsonSafe.record_iff.mp hcloned _ hin)
  unfold objectOutput at hsafe
  dsimp only at hsafe
  split at hsafe <;> split at hsafe
  · exact hfields _ hsafe (Record.mem_markTruncated
      (Record.mem_markTruncated hall htruncated hcount _) htruncated hcount _)
  · exact hfields _ hsafe (Record.mem_markTruncated hall htruncated hcount _)
  · exact hfields _ hsafe (Record.mem_markTruncated hall htruncated hcount _)
  · exact hfields _ hsafe hall

end Builders

/-! ## Frames return -/

/-- Every node within the levels satisfies the conditions of a JSON-safe clone. -/
def Convertible (host : Host) (limits : SerializationLimits) (levels : Nat) (value : Value) :
    Prop :=
  ∀ node, Within host limits levels value node →
    KeepsPrototype host limits node ∧ CopiesPrimitives host limits node

theorem Convertible.child {levels : Nat} {value next : Value}
    (h : Convertible host limits (levels + 1) value) (hchild : Child host limits value next) :
    Convertible host limits levels next :=
  fun node hnode => h node (.child hchild hnode)

/-- What a frame guarantees of its result. -/
def Cloned (host : Host) (limits : SerializationLimits) (levels : Nat) (value : Value)
    (output : Output) : Prop :=
  (Convertible host limits levels value → JsonSafe output) ∧
    (value.IsScalar → ¬ output.IsContainer)

theorem cloned_string (levels : Nat) (value : Value) (text : Text) :
    Cloned host limits levels value (.string text) :=
  ⟨fun _ => .string text, fun _ h => h⟩

theorem cloned_object {levels id : Nat} {output : Output}
    (h : Convertible host limits levels (.object id) → JsonSafe output) :
    Cloned host limits levels (.object id) output :=
  ⟨h, fun hscalar => hscalar.elim⟩

section Frames

variable {levels : Nat} {visited : List Nat}

/-- The recursive call returns for every child. -/
def ChildrenReturn (host : Host) (limits : SerializationLimits) (levels : Nat) (value : Value)
    (clone : Value → Clone Output) : Prop :=
  ∀ next, Child host limits value next → Yields (clone next) (Cloned host limits levels next)

variable {id : Nat} {clone : Value → Clone Output}

theorem cloneMap_yields {entries : List (Value × Value)} (hmap : host.heap id = .map entries)
    (hchildren : ChildrenReturn host limits levels (.object id) clone) :
    Yields (cloneMap limits clone entries) (Cloned host limits (levels + 1) (.object id)) := by
  have hentry : ∀ entry ∈ entries.take limits.items, Yields (cloneEntry clone entry) fun output =>
      Convertible host limits (levels + 1) (.object id) → JsonSafe output := by
    intro entry hmem
    refine cloneEntry_yields
      (P := fun output =>
        Convertible host limits (levels + 1) (.object id) → JsonSafe output) ?_ ?_ ?_
    · exact (hchildren _ (.key hmap hmem)).mono fun output h hsafe =>
        h.1 (hsafe.child (.key hmap hmem))
    · exact (hchildren _ (.value hmap hmem)).mono fun output h hsafe =>
        h.1 (hsafe.child (.value hmap hmem))
    · intro key value hkey hvalue hsafe
      exact JsonSafe.array_iff.mpr (List.forall_mem_cons.mpr
        ⟨hkey hsafe, List.forall_mem_singleton.mpr (hvalue hsafe)⟩)
  refine assemble_yields (cloneLoop_yields hentry) fun result h => cloned_object fun hsafe => ?_
  exact mapRecord_safe_iff.mpr fun item hmem => h item hmem hsafe

theorem cloneSet_yields {values : List Value} (hset : host.heap id = .set values)
    (hchildren : ChildrenReturn host limits levels (.object id) clone) :
    Yields (cloneSet limits clone values) (Cloned host limits (levels + 1) (.object id)) := by
  have hvalue : ∀ value ∈ values.take limits.items, Yields (clone value) fun output =>
      Convertible host limits (levels + 1) (.object id) → JsonSafe output := by
    intro value hmem
    exact (hchildren _ (.member hset hmem)).mono fun output h hsafe =>
      h.1 (hsafe.child (.member hset hmem))
  refine assemble_yields (cloneLoop_yields hvalue) fun result h => cloned_object fun hsafe => ?_
  exact setRecord_safe_iff.mpr fun item hmem => h item hmem hsafe

theorem cloneArray_yields {items : List Property} (harray : host.heap id = .array items)
    (hrec : Recoverable host limits (.object id))
    (hchildren : ChildrenReturn host limits levels (.object id) clone) :
    Yields (cloneArray host limits clone items)
      (Cloned host limits (levels + 1) (.object id)) := by
  have hitem : ∀ item ∈ items.take limits.items,
      Yields (cloneProperty host clone item) fun output =>
        Convertible host limits (levels + 1) (.object id) → JsonSafe output := by
    intro item hmem
    refine cloneProperty_yields ?_ ?_ ?_
    · rintro value rfl
      exact (hchildren _ (.item harray hmem)).mono fun output h hsafe =>
        h.1 (hsafe.child (.item harray hmem))
    · rintro thrown rfl
      exact hrec thrown (.item harray hmem)
    · exact fun message _ => .string message
  refine assemble_yields (cloneLoop_yields hitem) fun result h => cloned_object fun hsafe => ?_
  exact arrayOutput_safe_iff.mpr fun item hmem => h item hmem hsafe

theorem cloneObject_yields {properties : OwnProperties}
    (hobject : host.heap id = .object (.ok properties))
    (hrec : Recoverable host limits (.object id))
    (hchildren : ChildrenReturn host limits levels (.object id) clone) :
    Yields (cloneObject host limits clone properties)
      (Cloned host limits (levels + 1) (.object id)) := by
  have hfield : ∀ field ∈ properties.entries.take limits.keys,
      Yields (cloneField host clone field) fun output =>
        Convertible host limits (levels + 1) (.object id) →
          JsonSafe output.2 ∧ (output.1 = "__proto__".toList → ¬ output.2.IsContainer) := by
    rintro ⟨key, property⟩ hmem
    have hproperty : Yields (cloneProperty host clone property) fun output =>
        Convertible host limits (levels + 1) (.object id) →
          JsonSafe output ∧ (key = "__proto__".toList → ¬ output.IsContainer) := by
      refine cloneProperty_yields ?_ ?_ ?_
      · rintro value rfl
        refine (hchildren _ (.property hobject hmem)).mono fun output h hsafe => ⟨?_, ?_⟩
        · exact h.1 (hsafe.child (.property hobject hmem))
        · rintro rfl
          exact h.2 ((hsafe _ .self).1 id properties value rfl hobject hmem)
      · rintro thrown rfl
        exact hrec thrown (.property hobject hmem)
      · exact fun message _ => ⟨.string message, fun _ h => h⟩
    refine (cloneField_yields hproperty).mono fun output h hsafe => ?_
    rw [h.1]
    exact h.2 hsafe
  refine assemble_yields (cloneLoop_yields hfield) fun result h => cloned_object fun hsafe => ?_
  exact objectOutput_safe fun field hmem => h field hmem hsafe

theorem cloneTypedArray_safe_iff {typeName : Value} {elements : List Element} :
    JsonSafe (cloneTypedArray limits typeName elements) ↔ typeName.IsJsonPrimitive ∧
      ∀ element ∈ elements.take limits.items, element.toValue.IsJsonPrimitive := by
  unfold cloneTypedArray
  rw [JsonSafe.record_iff]
  simp only [List.forall_mem_cons, JsonSafe.array_iff, JsonSafe.verbatim_iff, List.forall_mem_map]
  exact ⟨fun h => ⟨h.1, h.2.2.1⟩, fun h => ⟨h.1, .count _, h.2, List.forall_mem_nil _⟩⟩

theorem errorRecord_safe_iff {name message stack : Value} {output : Output}
    (h : cloneError (.ok name) (.ok message) (.ok stack) = .ok output) :
    JsonSafe output ↔
      name.IsJsonPrimitive ∧ message.IsJsonPrimitive ∧ stack.IsOptionalPrimitive := by
  rw [← Except.ok.inj h, JsonSafe.record_iff]
  simp only [List.forall_mem_cons, JsonSafe.verbatim_iff, Value.IsOptionalPrimitive]
  have hstack : JsonSafe
      (if stack = .undefined ∨ stack = .null then .string [] else .verbatim stack) ↔
      stack = .undefined ∨ stack = .null ∨ stack.IsJsonPrimitive := by
    split
    · rename_i hnone
      exact ⟨fun _ => hnone.imp_right .inl, fun _ => .string []⟩
    · rename_i hsome
      rw [not_or] at hsome
      rw [JsonSafe.verbatim_iff]
      exact ⟨fun h => .inr (.inr h), fun h => (h.resolve_left hsome.1).resolve_left hsome.2⟩
  rw [hstack]
  exact ⟨fun h => ⟨h.2.1, h.2.2.1, h.2.2.2.1⟩,
    fun h => ⟨.string _, h.1, h.2.1, h.2.2, List.forall_mem_nil _⟩⟩

/-- The body of a frame returns, or it throws what the value throws. -/
def Outcome (value : Value) (host : Host) (limits : SerializationLimits) (levels : Nat)
    (result : Except Value Output × Int) : Prop :=
  (∃ output rest, result = (.ok output, rest) ∧ Cloned host limits levels value output) ∨
    ∃ thrown rest, result = (.error thrown, rest) ∧ Throws host limits value thrown

theorem cloneError_outcome {name message stack : Property}
    (herror : host.heap id = .error name message stack) (budget : Int) :
    Outcome (.object id) host limits (levels + 1) (cloneError name message stack, budget) := by
  cases name with
  | error thrown => exact .inr ⟨thrown, budget, rfl, .error herror (by simp)⟩
  | ok name =>
      cases message with
      | error thrown => exact .inr ⟨thrown, budget, rfl, .error herror (by simp)⟩
      | ok message =>
          cases stack with
          | error thrown => exact .inr ⟨thrown, budget, rfl, .error herror (by simp)⟩
          | ok stack =>
              refine .inl ⟨_, budget, rfl, cloned_object fun hsafe => ?_⟩
              have hcopies := (hsafe _ .self).2
              simp only [CopiesPrimitives, herror] at hcopies
              exact (errorRecord_safe_iff rfl).mpr hcopies

/-- A container that is not on the current path is cloned. -/
theorem container_outcome {step : Clone Output}
    (h : Yields step (Cloned host limits (levels + 1) (.object id))) (budget : Int) :
    Outcome (.object id) host limits (levels + 1)
      (if id ∈ visited then (.ok (.string "[Circular]"), budget) else step budget) := by
  split
  · exact .inl ⟨_, budget, rfl, cloned_string _ _ _⟩
  · exact .inl (h budget)

theorem cloneHeapObject_outcome {clone : List Nat → Value → Clone Output}
    (hrec : Recoverable host limits (.object id))
    (hchildren : ∀ visited, ChildrenReturn host limits levels (.object id) (clone visited))
    (budget : Int) :
    Outcome (.object id) host limits (levels + 1)
      (cloneHeapObject host limits clone visited id budget) := by
  unfold cloneHeapObject
  cases hobject : host.heap id with
  | function name =>
      cases name with
      | error thrown => exact .inr ⟨thrown, budget, rfl, .name hobject⟩
      | ok name => exact .inl ⟨_, budget, rfl, cloned_string _ _ _⟩
  | trapped thrown => exact .inr ⟨thrown, budget, rfl, .trap hobject⟩
  | date iso =>
      cases iso with
      | error thrown => exact .inr ⟨thrown, budget, rfl, .date hobject⟩
      | ok iso => exact .inl ⟨_, budget, rfl, cloned_string _ _ _⟩
  | regExp source flags =>
      refine .inl ⟨_, budget, rfl, cloned_object fun _ => JsonSafe.record_iff.mpr ?_⟩
      simp only [List.forall_mem_cons]
      exact ⟨.string _, .string _, .string _, List.forall_mem_nil _⟩
  | error name message stack => exact cloneError_outcome hobject budget
  | buffer bytes =>
      refine .inl ⟨_, budget, rfl, cloned_object fun _ => JsonSafe.record_iff.mpr ?_⟩
      simp only [List.forall_mem_cons]
      exact ⟨.string _, .string _, .string _, .count _, List.forall_mem_nil _⟩
  | map entries => exact container_outcome (cloneMap_yields hobject (hchildren _)) budget
  | set values => exact container_outcome (cloneSet_yields hobject (hchildren _)) budget
  | typedArray typeName elements =>
      cases typeName with
      | error thrown => exact .inr ⟨thrown, budget, rfl, .typeName hobject⟩
      | ok typeName =>
          refine .inl ⟨_, budget, rfl, cloned_object fun hsafe => ?_⟩
          have hcopies := (hsafe _ .self).2
          simp only [CopiesPrimitives, hobject] at hcopies
          exact cloneTypedArray_safe_iff.mpr hcopies
  | arrayBuffer byteLength =>
      refine .inl ⟨_, budget, rfl, cloned_object fun _ => JsonSafe.record_iff.mpr ?_⟩
      simp only [List.forall_mem_cons]
      exact ⟨.string _, .count _, List.forall_mem_nil _⟩
  | array items =>
      exact container_outcome (cloneArray_yields hobject hrec (hchildren _)) budget
  | object properties =>
      cases properties with
      | error thrown =>
          dsimp only
          split
          · exact .inl ⟨_, budget, rfl, cloned_string _ _ _⟩
          · exact .inr ⟨thrown, budget, rfl, .keys hobject⟩
      | ok properties =>
          exact container_outcome (cloneObject_yields hobject hrec (hchildren _)) budget

theorem cloneValue_outcome {clone : List Nat → Value → Clone Output} {value : Value}
    (hrec : Recoverable host limits value)
    (hchildren : ∀ visited, ChildrenReturn host limits levels value (clone visited))
    (budget : Int) :
    Outcome value host limits (levels + 1) (cloneValue host limits clone visited value budget) := by
  cases value with
  | undefined => exact .inl ⟨_, _, rfl, fun _ => .null, fun _ h => h⟩
  | null => exact .inl ⟨_, _, rfl, fun _ => .null, fun _ h => h⟩
  | boolean value => exact .inl ⟨_, _, rfl, fun _ => .boolean value, fun _ h => h⟩
  | number value =>
      cases value with
      | finite text => exact .inl ⟨_, _, rfl, fun _ => .number text, fun _ h => h⟩
      | nan => exact .inl ⟨_, _, rfl, fun _ => .null, fun _ h => h⟩
      | infinity negative => exact .inl ⟨_, _, rfl, fun _ => .null, fun _ h => h⟩
  | bigint value =>
      refine .inl ⟨_, _, rfl, fun _ => JsonSafe.record_iff.mpr ?_, fun h => h.elim⟩
      simp only [List.forall_mem_cons]
      exact ⟨.string _, .string _, List.forall_mem_nil _⟩
  | string value => exact .inl ⟨_, _, rfl, cloned_string _ _ _⟩
  | symbol description => exact .inl ⟨_, _, rfl, cloned_string _ _ _⟩
  | object id => exact cloneHeapObject_outcome hrec hchildren budget

end Frames

/-- A frame returns when the errors within its levels are readable, and what it returns is JSON-safe
when the nodes are convertible. The induction is on the levels that are left. -/
theorem cloneAndLimitInternal_yields {levels : Nat} {visited : List Nat} {value : Value}
    (hrec : ∀ node, Within host limits levels value node → Recoverable host limits node) :
    Yields (cloneAndLimitInternal host limits levels visited value)
      (Cloned host limits levels value) := by
  induction levels generalizing visited value with
  | zero =>
      intro budget
      unfold cloneAndLimitInternal
      split
      · exact ⟨_, _, rfl, cloned_string _ _ _⟩
      · exact ⟨_, _, rfl, cloned_string _ _ _⟩
  | succ levels ih =>
      intro budget
      unfold cloneAndLimitInternal
      split
      · exact ⟨_, _, rfl, cloned_string _ _ _⟩
      · have hchildren : ∀ visited, ChildrenReturn host limits levels value
            (cloneAndLimitInternal host limits levels visited) :=
          fun visited next hchild => ih fun node hnode => hrec node (.child hchild hnode)
        have houtcome : Outcome value host limits (levels + 1) (cloneValue host limits
            (cloneAndLimitInternal host limits levels) visited value budget) :=
          cloneValue_outcome (hrec _ .self) hchildren budget
        rcases houtcome with ⟨output, rest, hbody, hcloned⟩ | ⟨thrown, rest, hbody, hthrows⟩
        · exact ⟨output, rest, by rw [hbody, orSerializationError], hcloned⟩
        · obtain ⟨message, hmessage⟩ := serializationError_of_readable (hrec _ .self _ hthrows)
          exact ⟨_, rest, by rw [hbody, orSerializationError, hmessage], cloned_string _ _ _⟩

/-! ## What a frame costs -/

theorem cloneHeapObject_affordable {clone : List Nat → Value → Clone Output}
    (hclone : ∀ visited next, Affordable (clone visited next)) (visited : List Nat) (id : Nat) :
    Affordable (cloneHeapObject host limits clone visited id) := by
  have hfree : ∀ result : Except Value Output,
      Affordable fun budget => (result, budget) := fun result => ⟨0, fun budget => by simp⟩
  have hcircular : ∀ {step : Clone Output}, Affordable step → Affordable fun budget =>
      if id ∈ visited then (.ok (.string "[Circular]"), budget) else step budget := by
    intro step h
    split
    · exact hfree _
    · exact h
  unfold cloneHeapObject
  cases host.heap id with
  | function name => cases name <;> exact hfree _
  | trapped thrown => exact hfree _
  | date iso => cases iso <;> exact hfree _
  | regExp source flags => exact hfree _
  | error name message stack => exact hfree _
  | buffer bytes => exact hfree _
  | map entries =>
      exact hcircular (assemble_affordable (cloneLoop_affordable fun entry _ =>
        cloneEntry_affordable (hclone _ _) (hclone _ _)))
  | set values =>
      exact hcircular (assemble_affordable (cloneLoop_affordable fun value _ => hclone _ _))
  | typedArray typeName elements => cases typeName <;> exact hfree _
  | arrayBuffer byteLength => exact hfree _
  | array items =>
      exact hcircular (assemble_affordable (cloneLoop_affordable fun item _ =>
        cloneProperty_affordable fun value _ => hclone _ _))
  | object properties =>
      cases properties with
      | error thrown => exact hcircular (hfree _)
      | ok properties =>
          exact hcircular (assemble_affordable (cloneLoop_affordable fun field _ =>
            cloneField_affordable (cloneProperty_affordable fun value _ => hclone _ _)))

theorem cloneValue_affordable {clone : List Nat → Value → Clone Output}
    (hclone : ∀ visited next, Affordable (clone visited next)) (visited : List Nat)
    (value : Value) : Affordable (cloneValue host limits clone visited value) := by
  have hpays : ∀ (cost : Nat) (result : Except Value Output),
      Affordable fun budget => (result, budget - (cost : Int)) :=
    fun cost result => ⟨cost, fun budget => Int.le_refl _⟩
  cases value with
  | undefined => exact hpays primitiveCost _
  | null => exact hpays primitiveCost _
  | boolean value => exact hpays primitiveCost _
  | number value => cases value <;> exact hpays primitiveCost _
  | bigint value =>
      refine ⟨Text.utf16Length (toString value).toList + 20, fun budget => ?_⟩
      dsimp only [cloneValue]
      omega
  | string value =>
      obtain ⟨bound, hbound⟩ := exists_truncateString_le value
      refine ⟨bound, fun budget => ?_⟩
      have hlength := hbound (min limits.maxStringLength (max 0 budget))
      dsimp only [cloneValue]
      omega
  | symbol description => exact ⟨0, fun budget => by simp [cloneValue]⟩
  | object id => exact cloneHeapObject_affordable hclone visited id

theorem cloneAndLimitInternal_affordable (levels : Nat) (visited : List Nat) (value : Value) :
    Affordable (cloneAndLimitInternal host limits levels visited value) := by
  induction levels generalizing visited value with
  | zero =>
      refine ⟨0, fun budget => ?_⟩
      unfold cloneAndLimitInternal
      split <;> simp
  | succ levels ih =>
      have hbody : Affordable
          (cloneValue host limits (cloneAndLimitInternal host limits levels) visited value) :=
        cloneValue_affordable ih visited value
      obtain ⟨cost, hcost⟩ := hbody
      refine ⟨cost, fun budget => ?_⟩
      unfold cloneAndLimitInternal
      split
      · dsimp only
        omega
      · rw [orSerializationError_snd]
        exact hcost budget

/-! ## Reaching a node -/

/-- Nothing on the way to a node can hide it. -/
def Transparent (host : Host) (limits : SerializationLimits) (node : Value) : Prop :=
  Recoverable host limits node ∧ KeepsPrototype host limits node ∧ KeepsKeys host limits node

section Reaching

variable {levels : Nat} {visited : List Nat} {node : Value}

/-- The clone of a node that copies something else verbatim is not JSON-safe. -/
theorem cloneValue_unsafe {clone : List Nat → Value → Clone Output} {value : Value}
    (hbad : ¬ CopiesPrimitives host limits value) (budget : Int) :
    ∃ output, cloneValue host limits clone visited value budget = (.ok output, budget) ∧
      ¬ JsonSafe output := by
  cases value with
  | object id =>
      simp only [cloneValue, cloneHeapObject]
      simp only [CopiesPrimitives] at hbad
      cases hobject : host.heap id with
      | error name message stack =>
          rw [hobject] at hbad
          cases name with
          | error thrown => exact absurd trivial hbad
          | ok name =>
              cases message with
              | error thrown => exact absurd trivial hbad
              | ok message =>
                  cases stack with
                  | error thrown => exact absurd trivial hbad
                  | ok stack =>
                      exact ⟨_, rfl, fun hsafe => hbad ((errorRecord_safe_iff rfl).mp hsafe)⟩
      | typedArray typeName elements =>
          rw [hobject] at hbad
          cases typeName with
          | error thrown => exact absurd trivial hbad
          | ok typeName =>
              exact ⟨_, rfl, fun hsafe => hbad (cloneTypedArray_safe_iff.mp hsafe)⟩
      | function | trapped | date | regExp | buffer | map | set | arrayBuffer | array | object =>
          rw [hobject] at hbad
          exact absurd trivial hbad
  | undefined | null | boolean | number | bigint | string | symbol => exact absurd trivial hbad

theorem child_object {value next : Value} (h : Child host limits value next) :
    ∃ id, value = .object id := by
  cases h <;> exact ⟨_, rfl⟩

/-- A scalar has no children and copies nothing verbatim. -/
theorem copiesPrimitives_of_scalar {value : Value} (hscalar : value.IsScalar)
    (hnode : Within host limits levels value node) : CopiesPrimitives host limits node := by
  cases hnode with
  | self =>
      cases node with
      | object id => exact hscalar.elim
      | undefined | null | boolean | number | bigint | string | symbol => trivial
  | child hchild _ =>
      obtain ⟨id, rfl⟩ := child_object hchild
      exact hscalar.elim

/-- A child that is reached spoils the container. -/
theorem cloneValue_reaches {clone : List Nat → Value → Clone Output} {value next : Value}
    (hchild : Child host limits value next) (hfresh : ∀ id, value = .object id → id ∉ visited)
    (htransparent : Transparent host limits value)
    (hscalar : ¬ next.IsScalar)
    (hreturn : ∀ visited, ChildrenReturn host limits levels value (clone visited))
    (hcost : ∀ visited next, Affordable (clone visited next))
    (hnext : ∀ id, value = .object id →
      EventuallyYields (clone (id :: visited) next) (¬ JsonSafe ·)) :
    EventuallyYields (cloneValue host limits clone visited value) (¬ JsonSafe ·) := by
  obtain ⟨hrec, hproto, hkeys⟩ := htransparent
  obtain ⟨id, rfl⟩ := child_object hchild
  have hfresh := hfresh id rfl
  have hnext := hnext id rfl
  have hreturn := hreturn (id :: visited)
  have htrue : ∀ next, Child host limits (.object id) next →
      Yields (clone (id :: visited) next) fun _ => True :=
    fun next hchild => (hreturn next hchild).mono fun _ _ => trivial
  have hbody : cloneValue host limits clone visited (.object id) =
      cloneHeapObject host limits clone visited id := rfl
  rw [hbody]
  unfold cloneHeapObject
  cases hchild with
  | key hmap hmem =>
      simp only [hmap, if_neg hfresh]
      refine assemble_eventuallyYields (P := fun result => ∃ output ∈ result.1, ¬ JsonSafe output)
        (cloneLoop_reaches (Q := fun _ => True) ?_ ?_ hmem
          (cloneEntry_reaches_key hnext (htrue _ (.value hmap hmem)))) ?_
      · exact fun entry hentry => cloneEntry_yields (P := fun _ => True)
          (htrue _ (.key hmap hentry)) (htrue _ (.value hmap hentry)) fun _ _ _ _ => trivial
      · exact fun entry _ => cloneEntry_affordable (hcost _ _) (hcost _ _)
      · rintro _ _ result - ⟨output, houtput, hbad⟩ hsafe
        exact hbad (mapRecord_safe_iff.mp hsafe output houtput)
  | value hmap hmem =>
      simp only [hmap, if_neg hfresh]
      refine assemble_eventuallyYields (P := fun result => ∃ output ∈ result.1, ¬ JsonSafe output)
        (cloneLoop_reaches (Q := fun _ => True) ?_ ?_ hmem
          (cloneEntry_reaches_value (htrue _ (.key hmap hmem)) (hcost _ _) hnext)) ?_
      · exact fun entry hentry => cloneEntry_yields (P := fun _ => True)
          (htrue _ (.key hmap hentry)) (htrue _ (.value hmap hentry)) fun _ _ _ _ => trivial
      · exact fun entry _ => cloneEntry_affordable (hcost _ _) (hcost _ _)
      · rintro _ _ result - ⟨output, houtput, hbad⟩ hsafe
        exact hbad (mapRecord_safe_iff.mp hsafe output houtput)
  | member hset hmem =>
      simp only [hset, if_neg hfresh]
      refine assemble_eventuallyYields (P := fun result => ∃ output ∈ result.1, ¬ JsonSafe output)
        (cloneLoop_reaches (Q := fun _ => True) ?_ ?_ hmem hnext) ?_
      · exact fun value hvalue => htrue _ (.member hset hvalue)
      · exact fun value _ => hcost _ _
      · rintro _ _ result - ⟨output, houtput, hbad⟩ hsafe
        exact hbad (setRecord_safe_iff.mp hsafe output houtput)
  | item harray hmem =>
      simp only [harray, if_neg hfresh]
      refine assemble_eventuallyYields (P := fun result => ∃ output ∈ result.1, ¬ JsonSafe output)
        (cloneLoop_reaches (Q := fun _ => True) ?_ ?_ hmem (cloneProperty_reaches hnext)) ?_
      · intro item hitem
        refine cloneProperty_yields ?_ ?_ fun _ => trivial
        · rintro value rfl
          exact htrue _ (.item harray hitem)
        · rintro thrown rfl
          exact hrec thrown (.item harray hitem)
      · exact fun item _ => cloneProperty_affordable fun value _ => hcost _ _
      · rintro _ _ result - ⟨output, houtput, hbad⟩ hsafe
        exact hbad (arrayOutput_safe_iff.mp hsafe output houtput)
  | @property id properties key next hobject hmem =>
      simp only [hobject, if_neg hfresh]
      refine assemble_eventuallyYields
        (P := fun result => ∃ output ∈ result.1, output.1 = key ∧ ¬ JsonSafe output.2)
        (cloneLoop_reaches (Q := fun _ => True) ?_ ?_ hmem
          (cloneField_reaches (cloneProperty_reaches hnext))) ?_
      · intro field hfield
        refine (cloneField_yields (P := fun _ => True)
          (cloneProperty_yields ?_ ?_ fun _ => trivial)).mono fun _ _ => trivial
        · rintro value hvalue
          obtain ⟨name, property⟩ := field
          obtain rfl : property = .ok value := hvalue
          exact htrue _ (.property hobject hfield)
        · intro thrown hthrown
          obtain ⟨name, property⟩ := field
          obtain rfl : property = .error thrown := hthrown
          exact hrec thrown (.property hobject hfield)
      · exact fun field _ =>
          cloneField_affordable (cloneProperty_affordable fun value _ => hcost _ _)
      · rintro budget rest result hloop ⟨⟨name, output⟩, houtput, rfl, hbad⟩
        have hprefix := cloneLoop_prefix cloneField_fst hloop
        have hnodup : (result.1.map Prod.fst).Nodup :=
          (properties.distinct.sublist ((List.take_sublist _ _).map _)).sublist hprefix.sublist
        exact objectOutput_unsafe houtput hnodup
          (fun hname => hscalar (hproto id properties next rfl hobject (hname ▸ hmem)))
          (hkeys id properties rfl hobject _ hmem).1 (hkeys id properties rfl hobject _ hmem).2 hbad

/-- With a large enough budget the traversal reaches a node that is `steps` away and no nearer, by
a path on which no object is visited twice. The induction is on the distance. -/
theorem cloneAndLimitInternal_reaches {steps : Nat} {value : Value}
    (hbad : ¬ CopiesPrimitives host limits node) (hle : steps ≤ levels)
    (hnode : Within host limits steps value node)
    (hnearest : ∀ fewer < steps, ¬ Within host limits fewer value node)
    (hvisited : ∀ id ∈ visited, ¬ Within host limits steps (.object id) node)
    (htransparent : ∀ other, Within host limits levels value other →
      Transparent host limits other) :
    EventuallyYields (cloneAndLimitInternal host limits levels visited value) (¬ JsonSafe ·) := by
  induction steps generalizing levels visited value with
  | zero => cases hnode
  | succ steps ih =>
      obtain ⟨levels, rfl⟩ := Nat.exists_eq_add_of_lt (Nat.lt_of_lt_of_le (Nat.succ_pos _) hle)
      rw [Nat.zero_add] at hle htransparent ⊢
      have hframe : EventuallyYields
          (cloneValue host limits (cloneAndLimitInternal host limits levels) visited value)
            (¬ JsonSafe ·) := by
        cases hnode with
        | self =>
            refine ⟨0, fun budget _ => ?_⟩
            obtain ⟨output, hclone, hunsafe⟩ := cloneValue_unsafe hbad budget
            exact ⟨output, budget, hclone, hunsafe⟩
        | @child _ _ next _ hchild hnext =>
            have hreturn : ∀ visited, ChildrenReturn host limits levels value
                (cloneAndLimitInternal host limits levels visited) :=
              fun visited other hother => cloneAndLimitInternal_yields fun node hwithin =>
                (htransparent node (.child hother hwithin)).1
            refine cloneValue_reaches hchild ?_ (htransparent _ .self) ?_ hreturn ?_ ?_
            · rintro id rfl hmem
              exact hvisited id hmem (.child hchild hnext)
            · exact fun hscalar => hbad (copiesPrimitives_of_scalar hscalar hnext)
            · exact cloneAndLimitInternal_affordable levels
            · rintro id rfl
              refine ih (Nat.le_of_succ_le_succ hle) hnext ?_ ?_ ?_
              · exact fun fewer hfewer hwithin =>
                  hnearest (fewer + 1) (Nat.succ_lt_succ hfewer) (.child hchild hwithin)
              · intro other hmem
                rcases List.mem_cons.mp hmem with rfl | hmem
                · exact hnearest steps (Nat.lt_succ_self _)
                · exact fun hwithin => hvisited other hmem (hwithin.mono (Nat.le_succ _))
              · exact fun other hwithin => htransparent other (.child hchild hwithin)
      obtain ⟨bound, hbound⟩ := hframe
      refine ⟨bound, fun budget hbudget => ?_⟩
      obtain ⟨output, rest, hclone, hunsafe⟩ := hbound budget hbudget
      refine ⟨output, rest, ?_, hunsafe⟩
      unfold cloneAndLimitInternal
      rw [if_neg (by omega), hclone, orSerializationError]

end Reaching

/-- The traversal reads every limit but the payload size, which is the initial budget. -/
theorem cloneAndLimitInternal_withPayloadSize (budget : Int) (levels : Nat) :
    cloneAndLimitInternal host { limits with maxPayloadSize := budget } levels =
      cloneAndLimitInternal host limits levels := by
  induction levels with
  | zero => rfl
  | succ levels ih =>
      funext visited value remaining
      unfold cloneAndLimitInternal
      rw [ih]
      rfl

theorem cloneAndLimit_withPayloadSize (budget : Int) (value : Value) :
    cloneAndLimit host { limits with maxPayloadSize := budget } value =
      (cloneAndLimitInternal host limits limits.levels [] value budget).1 := by
  unfold cloneAndLimit
  rw [cloneAndLimitInternal_withPayloadSize]
  rfl

theorem returnsJsonSafe_of_convertible {value : Value}
    (hrec : ∀ node, Within host limits limits.levels value node → Recoverable host limits node)
    (hconvertible : Convertible host limits limits.levels value) (budget : Int) :
    ReturnsJsonSafe host { limits with maxPayloadSize := budget } value := by
  obtain ⟨output, rest, hclone, hcloned⟩ := cloneAndLimitInternal_yields hrec budget
  exact ⟨output, by rw [cloneAndLimit_withPayloadSize, hclone], hcloned.1 hconvertible⟩

/-- A nearest node that copies something else spoils the clone under a large enough budget. -/
theorem copiesPrimitives_of_returnsJsonSafe {value : Value}
    (htransparent : ∀ node, Within host limits limits.levels value node →
      Transparent host limits node)
    (hsafe : ∀ budget, ReturnsJsonSafe host { limits with maxPayloadSize := budget } value)
    (node : Value) (hnode : Within host limits limits.levels value node) :
    CopiesPrimitives host limits node := by
  classical
  by_contra hbad
  have hexists : ∃ steps, Within host limits steps value node := ⟨_, hnode⟩
  obtain ⟨bound, hbound⟩ := cloneAndLimitInternal_reaches hbad
    (Nat.find_min' hexists hnode) (Nat.find_spec hexists)
    (fun _ hfewer => Nat.find_min hexists hfewer)
    (List.forall_mem_nil fun id => ¬ Within host limits _ (.object id) node) htransparent
  obtain ⟨output, rest, hclone, hunsafe⟩ := hbound (bound + 1) (by omega)
  obtain ⟨output', hclone', houtput⟩ := hsafe (bound + 1)
  rw [cloneAndLimit_withPayloadSize, hclone] at hclone'
  exact hunsafe (Except.ok.inj hclone' ▸ houtput)

end Proofs

end CloneAndLimit

end ErrorCore
