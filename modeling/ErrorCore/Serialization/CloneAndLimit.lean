import ErrorCore.Foundation.Bytes

/-!
# Cloning a value within limits

`cloneAndLimit` copies an arbitrary value graph into a tree that a package can
hold. Objects live in a heap and a value refers to them by their index, so that
a graph may be cyclic and, where a getter builds a new object at every read,
endless. Reading a property, or the name of a function, may throw any value.

`currentDepth` runs from `0` to `maxDepth` and the model counts the levels that
are left, so that `currentDepth > limits.maxDepth` is that none is. The budget
is shared by the whole traversal and survives an exception.
-/

namespace ErrorCore

namespace CloneAndLimit

structure SerializationLimits where
  maxDepth : Int
  maxArrayItems : Int
  maxObjectKeys : Int
  maxStringLength : Int
  maxPayloadSize : Int
  deriving DecidableEq

namespace SerializationLimits

/-- How many items of an array, a map, a set or a typed array are copied. -/
def items (limits : SerializationLimits) : Nat := limits.maxArrayItems.toNat

/-- How many keys of an object are copied. -/
def keys (limits : SerializationLimits) : Nat := limits.maxObjectKeys.toNat

/-- How many levels of the graph are copied. -/
def levels (limits : SerializationLimits) : Nat := (limits.maxDepth + 1).toNat

end SerializationLimits

def standardLimits : SerializationLimits := ⟨8, 20, 50, 2048, 32768⟩

def tightLimits : SerializationLimits := ⟨4, 10, 20, 512, 32768⟩

def primitiveCost : Nat := 8

def entryOverhead : Nat := 4

/-! ## Values -/

/-- A finite number is represented by its decimal text. -/
inductive Number
  | finite (text : Text)
  | nan
  | infinity (negative : Bool)
  deriving DecidableEq

inductive Value
  | undefined
  | null
  | boolean (value : Bool)
  | number (value : Number)
  | bigint (value : Int)
  | string (value : Text)
  | symbol (description : Text)
  | object (id : Nat)
  deriving DecidableEq

/-- What reading a property gives: a value, or the value that its getter throws. -/
abbrev Property := Except Value Value

/-- What `Object.keys` finds, with what each key reads. -/
structure OwnProperties where
  entries : List (Text × Property)
  distinct : (entries.map Prod.fst).Nodup

/-- An element of a typed array, which is a bigint in the two 64-bit ones. -/
inductive Element
  | number (value : Number)
  | bigint (value : Int)
  deriving DecidableEq

namespace Element

def toValue : Element → Value
  | .number value => .number value
  | .bigint value => .bigint value

end Element

/-- An object by the branch of `cloneAndLimitInternal` that it takes, with what the branch reads.
A `function` has the text that its name gives in the template, and `trapped` is a proxy whose
`getPrototypeOf` trap throws, so that every `instanceof` does. -/
inductive HeapObject
  | function (name : Except Value Text)
  | trapped (thrown : Value)
  | date (iso : Except Value Text)
  | regExp (source flags : Text)
  | error (name message stack : Property)
  | buffer (bytes : Bytes)
  | map (entries : List (Value × Value))
  | set (values : List Value)
  | typedArray (typeName : Property) (elements : List Element)
  | arrayBuffer (byteLength : Nat)
  | array (items : List Property)
  | object (properties : Except Value OwnProperties)

/-- The graph, and `String(value)`, which runs code of the graph: `none` when it throws. -/
structure Host where
  heap : Nat → HeapObject
  string : Value → Option Text

/-! ## The copy -/

/-- What the clone is made of. An object is `plain` until a `__proto__` key gives it another
prototype, and `verbatim` is a value of the input that was not converted. -/
inductive Output
  | null
  | boolean (value : Bool)
  | number (text : Text)
  | string (value : Text)
  | array (items : List Output)
  | object (plain : Bool) (fields : List (Text × Output))
  | verbatim (value : Value)

namespace Output

/-- An object literal. -/
def record (fields : List (Text × Output)) : Output := .object true fields

def count (n : Nat) : Output := .number (toString n)

/-- Whether assigning the output to `__proto__` replaces the prototype by an object. -/
def IsContainer : Output → Prop
  | .array _ => True
  | .object _ _ => True
  | _ => False

instance : (output : Output) → Decidable output.IsContainer
  | .array _ => inferInstanceAs (Decidable True)
  | .object _ _ => inferInstanceAs (Decidable True)
  | .null => inferInstanceAs (Decidable False)
  | .boolean _ => inferInstanceAs (Decidable False)
  | .number _ => inferInstanceAs (Decidable False)
  | .string _ => inferInstanceAs (Decidable False)
  | .verbatim _ => inferInstanceAs (Decidable False)

end Output

/-- `cloned` while its keys are assigned. -/
structure Record where
  plain : Bool
  fields : List (Text × Output)

namespace Record

def setField (key : Text) (value : Output) : List (Text × Output) → List (Text × Output)
  | [] => [(key, value)]
  | (name, old) :: fields =>
      if name = key then (key, value) :: fields else (name, old) :: setField key value fields

/-- `cloned[key] = value`. The key `__proto__` reaches the setter of `Object.prototype`, which
ignores a primitive. -/
def assign (cloned : Record) (key : Text) (value : Output) : Record :=
  if key = "__proto__".toList then
    { cloned with plain := cloned.plain && !decide value.IsContainer }
  else { cloned with fields := setField key value cloned.fields }

def assignAll (cloned : Record) : List (Text × Output) → Record
  | [] => cloned
  | (key, value) :: rest => (cloned.assign key value).assignAll rest

/-- `cloned._truncated = true` and `cloned._originalKeyCount = keys.length`. -/
def markTruncated (cloned : Record) (keyCount : Nat) : Record :=
  (cloned.assign "_truncated" (.boolean true)).assign "_originalKeyCount" (.count keyCount)

def toOutput (cloned : Record) : Output := .object cloned.plain cloned.fields

end Record

/-- A step of the traversal: from the remaining budget to a result or an exception, and to what is
left of the budget. -/
abbrev Clone (α : Type) := Int → Except Value α × Int

section Errors

variable (host : Host)

/-- The condition runs outside the `try`: if reading `message` throws, so does the function. -/
def getErrorMessage (error : Value) : Except Value Text :=
  match error with
  | .object id =>
      match host.heap id with
      | .trapped thrown => .error thrown
      | .error _ (.error thrown) _ => .error thrown
      | .error _ (.ok (.string message)) _ => .ok message
      | _ => .ok ((host.string error).getD "Unknown error")
  | _ => .ok ((host.string error).getD "Unknown error")

def serializationError (thrown : Value) : Except Value Output :=
  match getErrorMessage host thrown with
  | .ok message => .ok (.string ("[Serialization error: ".toList ++ message ++ "]".toList))
  | .error thrown => .error thrown

/-- `catch (error)`, which reads the error that it describes. -/
def orSerializationError : Except Value Output × Int → Except Value Output × Int
  | (.ok output, budget) => (.ok output, budget)
  | (.error thrown, budget) => (serializationError host thrown, budget)

end Errors

/-- `value.slice(0, count)`: a negative count is taken from the end. -/
def sliceTo (value : Text) (count : Int) : Text :=
  if count < 0 then Text.sliceStart (Text.utf16Length value + count).toNat value
  else Text.sliceStart count.toNat value

def truncateString (value : Text) (maxStringLength : Int) : Text :=
  if Text.utf16Length value ≤ maxStringLength then value
  else
    sliceTo value maxStringLength ++ "...[truncated, ".toList ++
      (toString (Text.utf16Length value)).toList ++ " chars]".toList

/-! ## Containers -/

/-- The loop that `cloneMap`, `cloneSet`, `cloneArray` and `cloneObject` share: it gives the copies
and whether the budget ran out before the last item. -/
def cloneLoop {α β : Type} (cost : α → Nat) (clone : α → Clone β) : List α → Clone (List β × Bool)
  | [], budget => (.ok ([], false), budget)
  | item :: items, budget =>
      if budget ≤ 0 then (.ok ([], true), budget)
      else
        match clone item (budget - cost item) with
        | (.error thrown, budget) => (.error thrown, budget)
        | (.ok output, budget) =>
            match cloneLoop cost clone items budget with
            | (.error thrown, budget) => (.error thrown, budget)
            | (.ok (outputs, truncated), budget) => (.ok (output :: outputs, truncated), budget)

/-- What a container makes of the copies of its items. -/
def assemble {β : Type} (build : List β → Bool → Output) :
    Except Value (List β × Bool) × Int → Except Value Output × Int
  | (.error thrown, budget) => (.error thrown, budget)
  | (.ok (outputs, truncated), budget) => (.ok (build outputs truncated), budget)

/-- `[clone(key), clone(value)]`. -/
def cloneEntry (clone : Value → Clone Output) (entry : Value × Value) : Clone Output :=
  fun budget =>
    match clone entry.1 budget with
    | (.error thrown, budget) => (.error thrown, budget)
    | (.ok key, budget) =>
        match clone entry.2 budget with
        | (.error thrown, budget) => (.error thrown, budget)
        | (.ok value, budget) => (.ok (.array [key, value]), budget)

/-- Reading a property and cloning it, in the `try` of `cloneArray` and of `cloneObject`. -/
def cloneProperty (host : Host) (clone : Value → Clone Output) (property : Property) :
    Clone Output :=
  fun budget =>
    match property with
    | .error thrown => orSerializationError host (.error thrown, budget)
    | .ok value => orSerializationError host (clone value budget)

/-- The clone of one key of an object. -/
def cloneField (host : Host) (clone : Value → Clone Output) (field : Text × Property) :
    Clone (Text × Output) :=
  fun budget =>
    match cloneProperty host clone field.2 budget with
    | (.error thrown, budget) => (.error thrown, budget)
    | (.ok output, budget) => (.ok (field.1, output), budget)

section Containers

variable (host : Host) (limits : SerializationLimits) (clone : Value → Clone Output)

/-- `_truncated: true` at the end of an object literal. -/
def truncatedField (truncated : Bool) : List (Text × Output) :=
  if truncated then [("_truncated".toList, .boolean true)] else []

def mapRecord (size : Nat) (entries : List Output) (budgetTruncated : Bool) : Output :=
  .record ([("_type".toList, .string "Map"), ("size".toList, .count size),
    ("entries".toList, .array entries)] ++
    truncatedField (budgetTruncated || decide (entries.length < size)))

def cloneMap (entries : List (Value × Value)) : Clone Output := fun budget =>
  assemble (mapRecord entries.length)
    (cloneLoop (fun _ => entryOverhead) (cloneEntry clone) (entries.take limits.items) budget)

def setRecord (size : Nat) (values : List Output) (budgetTruncated : Bool) : Output :=
  .record ([("_type".toList, .string "Set"), ("size".toList, .count size),
    ("values".toList, .array values)] ++
    truncatedField (budgetTruncated || decide (values.length < size)))

def cloneSet (values : List Value) : Clone Output := fun budget =>
  assemble (setRecord values.length)
    (cloneLoop (fun _ => entryOverhead) clone (values.take limits.items) budget)

/-- The elements are copied as they are. -/
def cloneTypedArray (typeName : Value) (elements : List Element) : Output :=
  .record [("_type".toList, .verbatim typeName), ("length".toList, .count elements.length),
    ("sample".toList,
      .array ((elements.take limits.items).map fun element => .verbatim element.toValue))]

def arrayOutput (length : Nat) (items : List Output) (budgetTruncated : Bool) : Output :=
  if length ≤ limits.maxArrayItems ∧ budgetTruncated = false then .array items
  else
    .record [("_items".toList, .array items), ("_truncated".toList, .boolean true),
      ("_originalLength".toList, .count length)]

def cloneArray (items : List Property) : Clone Output := fun budget =>
  assemble (arrayOutput limits items.length)
    (cloneLoop (fun _ => entryOverhead) (cloneProperty host clone) (items.take limits.items) budget)

def objectOutput (keyCount : Nat) (fields : List (Text × Output)) (budgetTruncated : Bool) :
    Output :=
  let cloned := (Record.mk true []).assignAll fields
  let cloned := if budgetTruncated then cloned.markTruncated keyCount else cloned
  let cloned := if limits.maxObjectKeys < keyCount then cloned.markTruncated keyCount else cloned
  cloned.toOutput

def cloneObject (properties : OwnProperties) : Clone Output := fun budget =>
  assemble (objectOutput limits properties.entries.length)
    (cloneLoop (fun field => entryOverhead + Text.utf16Length field.1) (cloneField host clone)
      (properties.entries.take limits.keys) budget)

end Containers

/-! ## The traversal -/

section Traversal

variable (host : Host) (limits : SerializationLimits)

/-- `{ _type: 'Error', name, message, stack: stack ?? '' }`, read in this order. -/
def cloneError (name message stack : Property) : Except Value Output :=
  match name, message, stack with
  | .error thrown, _, _ => .error thrown
  | .ok _, .error thrown, _ => .error thrown
  | .ok _, .ok _, .error thrown => .error thrown
  | .ok name, .ok message, .ok stack =>
      .ok (.record [("_type".toList, .string "Error"), ("name".toList, .verbatim name),
        ("message".toList, .verbatim message),
        ("stack".toList,
          if stack = .undefined ∨ stack = .null then .string [] else .verbatim stack)])

/-- The branches of `cloneAndLimitInternal` for an object. `clone` is the recursive call, which
goes one level down. -/
def cloneHeapObject (clone : List Nat → Value → Clone Output) (visited : List Nat) (id : Nat) :
    Clone Output := fun budget =>
  match host.heap id with
  | .function (.error thrown) => (.error thrown, budget)
  | .function (.ok name) =>
      (.ok (.string ("[Function: ".toList ++ name ++ "]".toList)), budget)
  | .trapped thrown => (.error thrown, budget)
  | .date (.error thrown) => (.error thrown, budget)
  | .date (.ok iso) => (.ok (.string iso), budget)
  | .regExp source flags =>
      (.ok (.record [("_type".toList, .string "RegExp"), ("source".toList, .string source),
        ("flags".toList, .string flags)]), budget)
  | .error name message stack => (cloneError name message stack, budget)
  | .buffer bytes =>
      (.ok (.record [("_type".toList, .string "Buffer"), ("encoding".toList, .string "base64"),
        ("data".toList, .string (truncateString (Bytes.toBase64 bytes) limits.maxStringLength)),
        ("length".toList, .count bytes.length)]), budget)
  | .map entries =>
      if id ∈ visited then (.ok (.string "[Circular]"), budget)
      else cloneMap limits (clone (id :: visited)) entries budget
  | .set values =>
      if id ∈ visited then (.ok (.string "[Circular]"), budget)
      else cloneSet limits (clone (id :: visited)) values budget
  | .typedArray (.error thrown) _ => (.error thrown, budget)
  | .typedArray (.ok typeName) elements => (.ok (cloneTypedArray limits typeName elements), budget)
  | .arrayBuffer byteLength =>
      (.ok (.record [("_type".toList, .string "ArrayBuffer"),
        ("byteLength".toList, .count byteLength)]), budget)
  | .array items =>
      if id ∈ visited then (.ok (.string "[Circular]"), budget)
      else cloneArray host limits (clone (id :: visited)) items budget
  | .object (.error thrown) =>
      if id ∈ visited then (.ok (.string "[Circular]"), budget) else (.error thrown, budget)
  | .object (.ok properties) =>
      if id ∈ visited then (.ok (.string "[Circular]"), budget)
      else cloneObject host limits (clone (id :: visited)) properties budget

def cloneValue (clone : List Nat → Value → Clone Output) (visited : List Nat) (value : Value) :
    Clone Output := fun budget =>
  match value with
  | .undefined => (.ok .null, budget - primitiveCost)
  | .null => (.ok .null, budget - primitiveCost)
  | .boolean value => (.ok (.boolean value), budget - primitiveCost)
  | .number (.finite text) => (.ok (.number text), budget - primitiveCost)
  | .number _ => (.ok .null, budget - primitiveCost)
  | .bigint value =>
      let str := (toString value).toList
      (.ok (.record [("_type".toList, .string "BigInt"), ("value".toList, .string str)]),
        budget - (Text.utf16Length str + 20))
  | .string value =>
      let result := truncateString value (min limits.maxStringLength (max 0 budget))
      (.ok (.string result), budget - Text.utf16Length result)
  | .symbol description =>
      (.ok (.string ("[Symbol: ".toList ++ description ++ "]".toList)), budget)
  | .object id => cloneHeapObject host limits clone visited id budget

def cloneAndLimitInternal : Nat → List Nat → Value → Clone Output
  | 0, _, _, budget =>
      if budget ≤ 0 then (.ok (.string "[Payload size limit]"), budget)
      else (.ok (.string "[Depth limit]"), budget)
  | levels + 1, visited, value, budget =>
      if budget ≤ 0 then (.ok (.string "[Payload size limit]"), budget)
      else
        orSerializationError host
          (cloneValue host limits (cloneAndLimitInternal levels) visited value budget)

/-- No caller passes a depth or a visited set. -/
def cloneAndLimit (value : Value) : Except Value Output :=
  (cloneAndLimitInternal host limits limits.levels [] value limits.maxPayloadSize).1

end Traversal

end CloneAndLimit

end ErrorCore
