import ErrorCore.Serialization.CloneAndLimit.JsonSafe

/-!
# The shape of a clone

What a frame returns is built from what the frames one level down return, in
one of a few ways: a leaf, a record of leaves, or a container of clones. The
limits on items and keys can be read off each of them. A frame adds at most
three levels to the tree, since a map is an object that holds an array of
pairs, so the tree may be three times as deep as the part of the graph that is
copied.
-/

namespace ErrorCore

namespace CloneAndLimit

namespace Output

def IsLeaf : Output → Prop
  | .array _ => False
  | .object _ _ => False
  | _ => True

mutual

/-- How far the deepest node is below the root. -/
def height : Output → Nat
  | .array items => heightItems items
  | .object _ fields => heightFields fields
  | _ => 0

def heightItems : List Output → Nat
  | [] => 0
  | item :: items => max (height item + 1) (heightItems items)

def heightFields : List (Text × Output) → Nat
  | [] => 0
  | (_, value) :: fields => max (height value + 1) (heightFields fields)

end

theorem height_of_isLeaf {output : Output} (h : output.IsLeaf) : output.height = 0 := by
  cases output with
  | array items => exact h.elim
  | object plain fields => exact h.elim
  | _ => rfl

theorem heightItems_le {items : List Output} {n : Nat} (h : ∀ item ∈ items, item.height ≤ n) :
    heightItems items ≤ n + 1 := by
  induction items with
  | nil => exact Nat.zero_le _
  | cons item items ih =>
      rw [List.forall_mem_cons] at h
      rw [heightItems]
      exact max_le (Nat.succ_le_succ h.1) (ih h.2)

theorem heightFields_le {fields : List (Text × Output)} {n : Nat}
    (h : ∀ field ∈ fields, field.2.height ≤ n) : heightFields fields ≤ n + 1 := by
  induction fields with
  | nil => exact Nat.zero_le _
  | cons field fields ih =>
      rw [List.forall_mem_cons] at h
      rw [heightFields]
      exact max_le (Nat.succ_le_succ h.1) (ih h.2)

end Output

/-- A clone of a part of the graph that is so many levels high. -/
inductive Limited (limits : SerializationLimits) : Nat → Output → Prop
  | leaf {levels : Nat} {output : Output} (h : output.IsLeaf) : Limited limits levels output
  /-- A bigint, a regular expression, an error, a buffer or an array buffer. -/
  | record {levels : Nat} {fields : List (Text × Output)} (hcount : fields.length ≤ 4)
      (hleaves : ∀ field ∈ fields, field.2.IsLeaf) : Limited limits (levels + 1) (.record fields)
  | typedArray {levels : Nat} {typeName length : Output} {sample : List Output}
      (hcount : sample.length ≤ limits.items) (htypeName : typeName.IsLeaf)
      (hlength : length.IsLeaf) (hleaves : ∀ item ∈ sample, item.IsLeaf) :
      Limited limits (levels + 1)
        (.record [("_type".toList, typeName), ("length".toList, length),
          ("sample".toList, .array sample)])
  | map {levels size : Nat} {truncated : Bool} {entries : List (Output × Output)}
      (hcount : entries.length ≤ limits.items)
      (hkeys : ∀ entry ∈ entries, Limited limits levels entry.1)
      (hvalues : ∀ entry ∈ entries, Limited limits levels entry.2) :
      Limited limits (levels + 1)
        (mapRecord size (entries.map fun entry => .array [entry.1, entry.2]) truncated)
  | set {levels size : Nat} {truncated : Bool} {values : List Output}
      (hcount : values.length ≤ limits.items)
      (hvalues : ∀ value ∈ values, Limited limits levels value) :
      Limited limits (levels + 1) (setRecord size values truncated)
  | array {levels length : Nat} {truncated : Bool} {items : List Output}
      (hcount : items.length ≤ limits.items)
      (hitems : ∀ item ∈ items, Limited limits levels item) :
      Limited limits (levels + 1) (arrayOutput limits length items truncated)
  | object {levels : Nat} {plain : Bool} {fields : List (Text × Output)}
      (hcount : fields.length ≤ limits.keys + 2)
      (hfields : ∀ field ∈ fields, Limited limits levels field.2) :
      Limited limits (levels + 1) (.object plain fields)

section Shape

variable {host : Host} {limits : SerializationLimits}

/-! ## The height -/

theorem truncatedField_isLeaf {truncated : Bool} {field : Text × Output}
    (h : field ∈ truncatedField truncated) : field.2.IsLeaf := by
  cases truncated with
  | true =>
      obtain rfl := List.mem_singleton.mp h
      exact trivial
  | false => cases h

/-- A record with one list of clones among its fields. -/
theorem height_record_le (before : List (Text × Output)) (key : Text)
    (after : List (Text × Output)) {items : List Output} {n : Nat}
    (hbefore : ∀ field ∈ before, field.2.IsLeaf) (hafter : ∀ field ∈ after, field.2.IsLeaf)
    (hitems : ∀ item ∈ items, item.height ≤ n) :
    (Output.record (before ++ (key, .array items) :: after)).height ≤ n + 2 := by
  refine Output.heightFields_le fun field hmem => ?_
  rcases List.mem_append.mp hmem with hmem | hmem
  · rw [Output.height_of_isLeaf (hbefore field hmem)]
    exact Nat.zero_le _
  · rcases List.mem_cons.mp hmem with rfl | hmem
    · exact Output.heightItems_le hitems
    · rw [Output.height_of_isLeaf (hafter field hmem)]
      exact Nat.zero_le _

theorem isLeaf_pair {first second : Text × Output} (hfirst : first.2.IsLeaf)
    (hsecond : second.2.IsLeaf) : ∀ field ∈ [first, second], field.2.IsLeaf := by
  intro field hmem
  rcases List.mem_pair.mp hmem with rfl | rfl
  · exact hfirst
  · exact hsecond

theorem Limited.height_le {levels : Nat} {output : Output} (h : Limited limits levels output) :
    output.height ≤ 3 * levels := by
  induction h with
  | leaf h =>
      rw [Output.height_of_isLeaf h]
      exact Nat.zero_le _
  | record hcount hleaves =>
      have hfields := Output.heightFields_le (n := 0) fun field hmem =>
        (Output.height_of_isLeaf (hleaves field hmem)).le
      rw [Output.record, Output.height]
      omega
  | @typedArray levels typeName length sample hcount htypeName hlength hleaves =>
      have hrecord := height_record_le [("_type".toList, typeName), ("length".toList, length)]
        "sample".toList [] (isLeaf_pair htypeName hlength) (List.forall_mem_nil _)
        fun item hmem => (Output.height_of_isLeaf (hleaves item hmem)).le
      exact hrecord.trans (by omega)
  | @map levels size truncated entries hcount hkeys hvalues ihkeys ihvalues =>
      have hpairs : ∀ item ∈ entries.map fun entry => Output.array [entry.1, entry.2],
          item.height ≤ 3 * levels + 1 := by
        intro item hmem
        obtain ⟨entry, hentry, rfl⟩ := List.mem_map.mp hmem
        refine Output.heightItems_le fun item hmem => ?_
        rcases List.mem_pair.mp hmem with rfl | rfl
        · exact ihkeys entry hentry
        · exact ihvalues entry hentry
      exact height_record_le [("_type".toList, .string "Map"), ("size".toList, .count size)]
        "entries".toList _ (isLeaf_pair trivial trivial)
        (fun field hmem => truncatedField_isLeaf hmem) hpairs
  | @set levels size truncated values hcount hvalues ihvalues =>
      have hrecord := height_record_le
        [("_type".toList, .string "Set"), ("size".toList, .count size)] "values".toList
        (truncatedField (truncated || decide (values.length < size)))
        (isLeaf_pair trivial trivial) (fun field hmem => truncatedField_isLeaf hmem) ihvalues
      exact hrecord.trans (by omega)
  | @array levels length truncated items hcount hitems ihitems =>
      unfold arrayOutput
      split
      · have := Output.heightItems_le ihitems
        rw [Output.height]
        omega
      · have hrecord := height_record_le [] "_items".toList
          [("_truncated".toList, .boolean true), ("_originalLength".toList, .count length)]
          (List.forall_mem_nil _) (isLeaf_pair trivial trivial) ihitems
        exact hrecord.trans (by omega)
  | object hcount hfields ihfields =>
      have := Output.heightFields_le ihfields
      rw [Output.height]
      omega

/-! ## The fields of an object -/

namespace Record

variable {key : Text} {value : Output} {fields : List (Text × Output)} {cloned : Record}

theorem length_setField_le :
    (setField key value fields).length ≤ fields.length + 1 := by
  induction fields with
  | nil => exact Nat.le_refl _
  | cons field fields ih =>
      unfold setField
      split
      · exact Nat.le_succ _
      · exact Nat.succ_le_succ ih

theorem length_setField_of_mem (h : key ∈ fields.map Prod.fst) :
    (setField key value fields).length = fields.length := by
  induction fields with
  | nil => cases h
  | cons field fields ih =>
      unfold setField
      split
      · rfl
      · next hne =>
          have hrest : key ∈ fields.map Prod.fst :=
            (List.mem_cons.mp h).resolve_left fun heq => hne heq.symm
          exact congrArg Nat.succ (ih hrest)

theorem keys_setField_subset (h : key ∈ fields.map Prod.fst) (other : Text) (new : Output) :
    key ∈ (setField other new fields).map Prod.fst := by
  obtain ⟨⟨name, old⟩, hmem, rfl⟩ := List.mem_map.mp h
  by_cases hne : name = other
  · subst hne
    exact List.mem_map.mpr ⟨_, mem_setField_self, rfl⟩
  · exact List.mem_map.mpr ⟨_, mem_setField_of_ne hmem hne, rfl⟩

/-- Both marks of a truncated object. -/
def Marked (cloned : Record) : Prop :=
  "_truncated".toList ∈ cloned.fields.map Prod.fst ∧
    "_originalKeyCount".toList ∈ cloned.fields.map Prod.fst

theorem markTruncated_fields (cloned : Record) (keyCount : Nat) :
    (cloned.markTruncated keyCount).fields =
      setField "_originalKeyCount".toList (.count keyCount)
        (setField "_truncated".toList (.boolean true) cloned.fields) := by
  have htruncated : "_truncated".toList ≠ "__proto__".toList := by decide
  have hcount : "_originalKeyCount".toList ≠ "__proto__".toList := by decide
  unfold markTruncated assign
  rw [if_neg htruncated, if_neg hcount]

theorem marked_markTruncated (cloned : Record) (keyCount : Nat) :
    (cloned.markTruncated keyCount).Marked := by
  unfold Marked
  rw [markTruncated_fields]
  exact ⟨keys_setField_subset (List.mem_map.mpr ⟨_, mem_setField_self, rfl⟩) _ _,
    List.mem_map.mpr ⟨_, mem_setField_self, rfl⟩⟩

theorem length_markTruncated_le (cloned : Record) (keyCount : Nat) :
    (cloned.markTruncated keyCount).fields.length ≤ cloned.fields.length + 2 := by
  rw [markTruncated_fields]
  exact length_setField_le.trans (Nat.succ_le_succ length_setField_le)

theorem Marked.length_markTruncated (h : cloned.Marked) (keyCount : Nat) :
    (cloned.markTruncated keyCount).fields.length = cloned.fields.length := by
  rw [markTruncated_fields,
    length_setField_of_mem (keys_setField_subset h.2 _ _), length_setField_of_mem h.1]

theorem length_assign_le (cloned : Record) (key : Text) (value : Output) :
    (cloned.assign key value).fields.length ≤ cloned.fields.length + 1 := by
  unfold assign
  split
  · exact Nat.le_succ _
  · exact length_setField_le

theorem length_assignAll_le (cloned : Record) (new : List (Text × Output)) :
    (cloned.assignAll new).fields.length ≤ cloned.fields.length + new.length := by
  induction new generalizing cloned with
  | nil => exact Nat.le_refl _
  | cons field new ih =>
      have hassign := length_assign_le cloned field.1 field.2
      have hrest := ih (cloned.assign field.1 field.2)
      rw [assignAll, List.length_cons]
      omega

/-- The fields of a record are among those that were assigned. -/
theorem of_mem_assign {field : Text × Output} (h : field ∈ (cloned.assign key value).fields) :
    field = (key, value) ∨ field ∈ cloned.fields := by
  unfold assign at h
  split at h
  · exact .inr h
  · exact of_mem_setField h

theorem of_mem_assignAll {new : List (Text × Output)} {field : Text × Output}
    (h : field ∈ (cloned.assignAll new).fields) : field ∈ new ∨ field ∈ cloned.fields := by
  induction new generalizing cloned with
  | nil => exact .inr h
  | cons first new ih =>
      rcases ih h with hmem | hmem
      · exact .inl (List.mem_cons_of_mem _ hmem)
      · rcases of_mem_assign hmem with rfl | hmem
        · exact .inl List.mem_cons_self
        · exact .inr hmem

theorem of_mem_markTruncated {keyCount : Nat} {field : Text × Output}
    (h : field ∈ (cloned.markTruncated keyCount).fields) :
    field.2.IsLeaf ∨ field ∈ cloned.fields := by
  rcases of_mem_assign h with rfl | hmem
  · exact .inl trivial
  · rcases of_mem_assign hmem with rfl | hmem
    · exact .inl trivial
    · exact .inr hmem

end Record

theorem limited_objectOutput {levels keyCount : Nat} {fields : List (Text × Output)}
    {truncated : Bool} (hcount : fields.length ≤ limits.keys)
    (hfields : ∀ field ∈ fields, Limited limits levels field.2) :
    Limited limits (levels + 1) (objectOutput limits keyCount fields truncated) := by
  have hassigned : ((Record.mk true []).assignAll fields).fields.length ≤ fields.length := by
    simpa using Record.length_assignAll_le (Record.mk true []) fields
  have hmem : ∀ field ∈ ((Record.mk true []).assignAll fields).fields,
      Limited limits levels field.2 := by
    intro field h
    rcases Record.of_mem_assignAll h with h | h
    · exact hfields field h
    · cases h
  have hmarked : ∀ cloned : Record, (∀ field ∈ cloned.fields, Limited limits levels field.2) →
      ∀ field ∈ (cloned.markTruncated keyCount).fields, Limited limits levels field.2 := by
    intro cloned hcloned field h
    rcases Record.of_mem_markTruncated h with h | h
    · exact .leaf h
    · exact hcloned field h
  unfold objectOutput Record.toOutput
  generalize (Record.mk true []).assignAll fields = cloned at hassigned hmem
  have hone := Record.length_markTruncated_le cloned keyCount
  have htwo := (Record.marked_markTruncated cloned keyCount).length_markTruncated keyCount
  cases truncated with
  | true =>
      dsimp only
      rw [if_pos rfl]
      split
      · exact .object (by omega) (hmarked _ (hmarked _ hmem))
      · exact .object (by omega) (hmarked _ hmem)
  | false =>
      dsimp only
      rw [if_neg Bool.false_ne_true]
      split
      · exact .object (by omega) (hmarked _ hmem)
      · exact .object (by omega) hmem

/-! ## The frames -/

/-- Whatever the step returns has the property. -/
def Gives {α : Type} (step : Clone α) (P : α → Prop) : Prop :=
  ∀ budget output, (step budget).1 = .ok output → P output

section Steps

variable {α β : Type} {cost : α → Nat} {P Q : β → Prop}

theorem cloneLoop_gives {clone : α → Clone β} {items : List α}
    (h : ∀ item ∈ items, Gives (clone item) P) :
    Gives (cloneLoop cost clone items) fun result =>
      result.1.length ≤ items.length ∧ ∀ output ∈ result.1, P output := by
  induction items with
  | nil =>
      rintro budget output ⟨⟩
      exact ⟨Nat.le_refl _, List.forall_mem_nil _⟩
  | cons item items ih =>
      intro budget output houtput
      unfold cloneLoop at houtput
      split at houtput
      · obtain rfl := Except.ok.inj houtput
        exact ⟨Nat.zero_le _, List.forall_mem_nil _⟩
      · have hitem := h item List.mem_cons_self (budget - cost item)
        rcases hstep : clone item (budget - cost item) with ⟨first | first, rest⟩
        · rw [hstep] at houtput
          cases houtput
        · rw [hstep] at hitem houtput
          have hitems := ih (fun item hmem => h item (List.mem_cons_of_mem _ hmem)) rest
          dsimp only at houtput
          rcases hrest : cloneLoop cost clone items rest with ⟨result | result, rest'⟩
          · rw [hrest] at houtput
            cases houtput
          · rw [hrest] at hitems houtput
            obtain rfl := Except.ok.inj houtput
            obtain ⟨hlength, hall⟩ := hitems result rfl
            exact ⟨Nat.succ_le_succ hlength, List.forall_mem_cons.mpr ⟨hitem first rfl, hall⟩⟩

theorem assemble_gives {build : List β → Bool → Output} {loop : Clone (List β × Bool)}
    {R : List β × Bool → Prop} {S : Output → Prop} (h : Gives loop R)
    (hbuild : ∀ outputs truncated, R (outputs, truncated) → S (build outputs truncated)) :
    Gives (fun budget => assemble build (loop budget)) S := by
  intro budget output houtput
  have hloop := h budget
  rcases hstep : loop budget with ⟨result | result, rest⟩
  · simp only [hstep] at houtput
    cases houtput
  · simp only [hstep] at houtput
    rw [hstep] at hloop
    obtain rfl := Except.ok.inj houtput
    exact hbuild _ _ (hloop result rfl)

end Steps

theorem orSerializationError_gives {P : Output → Prop} {result : Except Value Output × Int}
    {output : Output} (h : ∀ output, result.1 = .ok output → P output)
    (hstring : ∀ message, P (.string message))
    (houtput : (orSerializationError host result).1 = .ok output) : P output := by
  rcases result with ⟨thrown | first, rest⟩
  · unfold orSerializationError serializationError at houtput
    dsimp only at houtput
    split at houtput
    · obtain rfl := Except.ok.inj houtput
      exact hstring _
    · cases houtput
  · exact h output houtput

section Frames

variable {levels : Nat} {clone : Value → Clone Output}

theorem cloneEntry_gives (h : ∀ value, Gives (clone value) (Limited limits levels))
    (entry : Value × Value) :
    Gives (cloneEntry clone entry) fun output =>
      ∃ key value, output = .array [key, value] ∧ Limited limits levels key ∧
        Limited limits levels value := by
  intro budget output houtput
  unfold cloneEntry at houtput
  have hkey := h entry.1 budget
  rcases hk : clone entry.1 budget with ⟨key | key, rest⟩
  · rw [hk] at houtput
    cases houtput
  · have hvalue := h entry.2 rest
    rw [hk] at hkey houtput
    dsimp only at houtput
    rcases hv : clone entry.2 rest with ⟨value | value, rest'⟩
    · rw [hv] at houtput
      cases houtput
    · rw [hv] at hvalue houtput
      obtain rfl := Except.ok.inj houtput
      exact ⟨key, value, rfl, hkey key rfl, hvalue value rfl⟩

theorem cloneProperty_gives (h : ∀ value, Gives (clone value) (Limited limits levels))
    (property : Property) : Gives (cloneProperty host clone property) (Limited limits levels) := by
  intro budget output houtput
  have hstring : ∀ message, Limited limits levels (.string message) := fun message => .leaf trivial
  cases property with
  | error thrown => exact orSerializationError_gives (fun _ h => by cases h) hstring houtput
  | ok value => exact orSerializationError_gives (h value budget) hstring houtput

theorem cloneField_gives (h : ∀ value, Gives (clone value) (Limited limits levels))
    (field : Text × Property) :
    Gives (cloneField host clone field) fun output => Limited limits levels output.2 := by
  intro budget output houtput
  have hclone : Gives (cloneProperty host clone field.2) (Limited limits levels) :=
    cloneProperty_gives h field.2
  have hproperty := hclone budget
  unfold cloneField at houtput
  rcases hstep : cloneProperty host clone field.2 budget with ⟨result | result, rest⟩
  · rw [hstep] at houtput
    cases houtput
  · rw [hstep] at hproperty houtput
    obtain rfl := Except.ok.inj houtput
    exact hproperty result rfl

theorem exists_pairs {outputs : List Output}
    (h : ∀ output ∈ outputs, ∃ key value, output = .array [key, value] ∧
      Limited limits levels key ∧ Limited limits levels value) :
    ∃ entries : List (Output × Output),
      outputs = entries.map (fun entry => .array [entry.1, entry.2]) ∧
        (∀ entry ∈ entries, Limited limits levels entry.1) ∧
        ∀ entry ∈ entries, Limited limits levels entry.2 := by
  induction outputs with
  | nil => exact ⟨[], rfl, List.forall_mem_nil _, List.forall_mem_nil _⟩
  | cons output outputs ih =>
      rw [List.forall_mem_cons] at h
      obtain ⟨⟨key, value, rfl, hkey, hvalue⟩, hrest⟩ := h
      obtain ⟨entries, rfl, hkeys, hvalues⟩ := ih hrest
      exact ⟨(key, value) :: entries, rfl, List.forall_mem_cons.mpr ⟨hkey, hkeys⟩,
        List.forall_mem_cons.mpr ⟨hvalue, hvalues⟩⟩

theorem cloneMap_gives (h : ∀ value, Gives (clone value) (Limited limits levels))
    (entries : List (Value × Value)) :
    Gives (cloneMap limits clone entries) (Limited limits (levels + 1)) := by
  refine assemble_gives (cloneLoop_gives fun entry _ => cloneEntry_gives h entry) ?_
  rintro outputs truncated ⟨hlength, hall⟩
  obtain ⟨pairs, rfl, hkeys, hvalues⟩ := exists_pairs hall
  rw [List.length_map] at hlength
  exact .map (hlength.trans (List.length_take_le _ _)) hkeys hvalues

theorem cloneSet_gives (h : ∀ value, Gives (clone value) (Limited limits levels))
    (values : List Value) :
    Gives (cloneSet limits clone values) (Limited limits (levels + 1)) := by
  refine assemble_gives (cloneLoop_gives fun value _ => h value) ?_
  rintro outputs truncated ⟨hlength, hall⟩
  exact .set (hlength.trans (List.length_take_le _ _)) hall

theorem cloneArray_gives (h : ∀ value, Gives (clone value) (Limited limits levels))
    (items : List Property) :
    Gives (cloneArray host limits clone items) (Limited limits (levels + 1)) := by
  refine assemble_gives (cloneLoop_gives fun item _ => cloneProperty_gives h item) ?_
  rintro outputs truncated ⟨hlength, hall⟩
  exact .array (hlength.trans (List.length_take_le _ _)) hall

theorem cloneObject_gives (h : ∀ value, Gives (clone value) (Limited limits levels))
    (properties : OwnProperties) :
    Gives (cloneObject host limits clone properties) (Limited limits (levels + 1)) := by
  refine assemble_gives (cloneLoop_gives fun field _ => cloneField_gives h field) ?_
  rintro outputs truncated ⟨hlength, hall⟩
  exact limited_objectOutput (hlength.trans (List.length_take_le _ _)) hall

theorem limited_cloneTypedArray (typeName : Value) (elements : List Element) :
    Limited limits (levels + 1) (cloneTypedArray limits typeName elements) := by
  refine .typedArray ?_ trivial trivial ?_
  · rw [List.length_map]
    exact List.length_take_le _ _
  · intro item hmem
    obtain ⟨element, -, rfl⟩ := List.mem_map.mp hmem
    exact trivial

theorem limited_cloneError {name message stack : Property} {output : Output}
    (h : cloneError name message stack = .ok output) : Limited limits (levels + 1) output := by
  unfold cloneError at h
  split at h
  case h_4 =>
      obtain rfl := Except.ok.inj h
      refine .record (Nat.le_refl _) ?_
      simp only [List.forall_mem_cons]
      refine ⟨trivial, trivial, trivial, ?_, List.forall_mem_nil _⟩
      split <;> exact trivial
  all_goals cases h

theorem container_gives {visited : List Nat} {id : Nat} {step : Clone Output}
    (h : Gives step (Limited limits (levels + 1))) :
    Gives (fun budget => if id ∈ visited then (.ok (.string "[Circular]"), budget)
      else step budget) (Limited limits (levels + 1)) := by
  intro budget output houtput
  dsimp only at houtput
  split at houtput
  · obtain rfl := Except.ok.inj houtput
    exact .leaf trivial
  · exact h budget output houtput

theorem cloneHeapObject_gives {clone : List Nat → Value → Clone Output}
    (h : ∀ visited value, Gives (clone visited value) (Limited limits levels))
    (visited : List Nat) (id : Nat) :
    Gives (cloneHeapObject host limits clone visited id) (Limited limits (levels + 1)) := by
  intro budget output houtput
  unfold cloneHeapObject at houtput
  cases hobject : host.heap id with
  | function name =>
      rw [hobject] at houtput
      cases name with
      | error thrown => cases houtput
      | ok name =>
          obtain rfl := Except.ok.inj houtput
          exact .leaf trivial
  | trapped thrown =>
      rw [hobject] at houtput
      cases houtput
  | date iso =>
      rw [hobject] at houtput
      cases iso with
      | error thrown => cases houtput
      | ok iso =>
          obtain rfl := Except.ok.inj houtput
          exact .leaf trivial
  | regExp source flags =>
      rw [hobject] at houtput
      obtain rfl := Except.ok.inj houtput
      refine .record (by simp) ?_
      simp only [List.forall_mem_cons]
      exact ⟨trivial, trivial, trivial, List.forall_mem_nil _⟩
  | error name message stack =>
      rw [hobject] at houtput
      exact limited_cloneError houtput
  | buffer bytes =>
      rw [hobject] at houtput
      obtain rfl := Except.ok.inj houtput
      refine .record (by simp) ?_
      simp only [List.forall_mem_cons]
      exact ⟨trivial, trivial, trivial, trivial, List.forall_mem_nil _⟩
  | map entries =>
      rw [hobject] at houtput
      exact container_gives (cloneMap_gives (h _) entries) budget output houtput
  | set values =>
      rw [hobject] at houtput
      exact container_gives (cloneSet_gives (h _) values) budget output houtput
  | typedArray typeName elements =>
      rw [hobject] at houtput
      cases typeName with
      | error thrown => cases houtput
      | ok typeName =>
          obtain rfl := Except.ok.inj houtput
          exact limited_cloneTypedArray typeName elements
  | arrayBuffer byteLength =>
      rw [hobject] at houtput
      obtain rfl := Except.ok.inj houtput
      refine .record (by simp) ?_
      simp only [List.forall_mem_cons]
      exact ⟨trivial, trivial, List.forall_mem_nil _⟩
  | array items =>
      rw [hobject] at houtput
      exact container_gives (cloneArray_gives (h _) items) budget output houtput
  | object properties =>
      rw [hobject] at houtput
      cases properties with
      | error thrown =>
          dsimp only at houtput
          split at houtput
          · obtain rfl := Except.ok.inj houtput
            exact .leaf trivial
          · cases houtput
      | ok properties =>
          exact container_gives (cloneObject_gives (h _) properties) budget output houtput

theorem cloneValue_gives {clone : List Nat → Value → Clone Output}
    (h : ∀ visited value, Gives (clone visited value) (Limited limits levels))
    (visited : List Nat) (value : Value) :
    Gives (cloneValue host limits clone visited value) (Limited limits (levels + 1)) := by
  have hleaf : ∀ {result output : Output}, (.ok result : Except Value Output) = .ok output →
      result.IsLeaf → Limited limits (levels + 1) output := by
    rintro result output ⟨⟩ hresult
    exact .leaf hresult
  intro budget output houtput
  cases value with
  | number value => cases value <;> exact hleaf houtput trivial
  | bigint value =>
      obtain rfl := Except.ok.inj houtput
      exact .record (by simp) (isLeaf_pair trivial trivial)
  | object id => exact cloneHeapObject_gives h visited id budget output houtput
  | _ => exact hleaf houtput trivial

end Frames

/-- The induction is on the levels that are left. -/
theorem cloneAndLimitInternal_gives (levels : Nat) (visited : List Nat) (value : Value) :
    Gives (cloneAndLimitInternal host limits levels visited value) (Limited limits levels) := by
  induction levels generalizing visited value with
  | zero =>
      intro budget output houtput
      unfold cloneAndLimitInternal at houtput
      split at houtput <;>
      · obtain rfl := Except.ok.inj houtput
        exact .leaf trivial
  | succ levels ih =>
      intro budget output houtput
      unfold cloneAndLimitInternal at houtput
      split at houtput
      · obtain rfl := Except.ok.inj houtput
        exact .leaf trivial
      · exact orSerializationError_gives (cloneValue_gives ih visited value budget)
          (fun message => .leaf trivial) houtput

theorem cloneAndLimit_limited {value : Value} {output : Output}
    (h : cloneAndLimit host limits value = .ok output) :
    Limited limits limits.levels output :=
  cloneAndLimitInternal_gives _ _ _ _ _ h

end Shape

end CloneAndLimit

end ErrorCore
