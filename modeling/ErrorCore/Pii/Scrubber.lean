import Mathlib.Data.List.Sort
import ErrorCore.Foundation.Json.Path
import ErrorCore.Pii.ContentType
import ErrorCore.Pii.SensitiveKey

/-!
# Scrubber

`src/pii/scrubber.ts` on JSON values. The walk over a value carries the path of
keys that leads to it, which decides the exemptions, and the depth, which bounds
it. The text patterns that `scrubString` applies to a single string, the walk's
leaves and the body formats other than JSON are parameters here.

An object lists its fields as `Object.keys` does. A JSON value has no cycles and
no objects of other classes, so those branches of the walk do not occur.
-/

namespace Json

/-! ## The order of `Object.keys` -/

/-- The number a field name stands for, if it is an array index. -/
def arrayIndex? (name : Text) : Option Nat :=
  if name ≠ [] ∧ name.all isDigit ∧ (name.length = 1 ∨ name.head? ≠ some '0') then
    let index := name.foldl (fun n c => n * 10 + (c.toNat - 48)) 0
    if index < 4294967295 then some index else none
  else
    none

/-- Array indices first, in ascending order, and the other names as they were added. -/
def enumerationOrder (fields : List (Text × Value)) : List (Text × Value) :=
  let indices := fields.filter fun field => (arrayIndex? field.1).isSome
  let names := fields.filter fun field => (arrayIndex? field.1).isNone
  indices.insertionSort (fun a b => (arrayIndex? a.1).getD 0 ≤ (arrayIndex? b.1).getD 0) ++ names

mutual

/-- The value with the fields of every object in the order of `Object.keys`. -/
def enumerated : Value → Value
  | .array items => .array (enumeratedItems items)
  | .object fields => .object (enumerationOrder (enumeratedFields fields))
  | value => value

def enumeratedItems : List Value → List Value
  | [] => []
  | item :: rest => enumerated item :: enumeratedItems rest

def enumeratedFields : List (Text × Value) → List (Text × Value)
  | [] => []
  | (name, value) :: rest => (name, enumerated value) :: enumeratedFields rest

end

end Json

namespace ErrorCore

open Json (Value Step)

def REDACTED : Text := "[REDACTED]"

def DEPTH_LIMIT : Text := "[DEPTH_LIMIT]"

structure SerializationLimits where
  maxDepth : Nat
  maxArrayItems : Nat
  maxObjectKeys : Nat
  maxStringLength : Nat

def truncateString (value : Text) (maxLength : Nat) : Text :=
  if Text.utf16Length value ≤ maxLength then value
  else
    Text.sliceStart maxLength value ++ ("...[truncated, " : Text) ++
      Nat.toDigits 10 (Text.utf16Length value) ++ (" chars]" : Text)

/-- A scrubber and what it uses of the runtime. -/
structure Scrubber where
  serialization : SerializationLimits
  /-- `none` from the callback when it throws or returns nothing. -/
  piiScrubber : Option (Text → Value → Option Value)
  scrubString : Text → Text
  scrubKeyValueAssignments : Text → Text
  /-- The rewritten body of a form; `none` when that throws. -/
  scrubForm : Text → Option Text
  decode : BufferEncoding → List UInt8 → Text
  encode : BufferEncoding → Text → List UInt8
  /-- How the number of a literal prints. -/
  formatNumber : Text → Text

namespace Scrubber

variable (s : Scrubber)

def depthLimit : Nat := max s.serialization.maxDepth 10

/-- `scrubbed[key] = value` sets the prototype for this key and adds no field. -/
def isPrototypeKey (key : Text) : Bool := key = "__proto__"

def truncatedName : Text := "_truncated"

def originalKeyCountName : Text := "_originalKeyCount"

/-- The two fields added to an object whose fields were cut off. -/
def markTruncatedObject (keyCount : Nat) (fields : List (Text × Value)) : List (Text × Value) :=
  Json.setField originalKeyCountName (.number (Nat.toDigits 10 keyCount))
    (Json.setField truncatedName (.bool true) fields)

def truncatedArray (originalLength : Nat) (items : List Value) : Value :=
  .object
    [("_items", .array items), (truncatedName, .bool true),
      ("_originalLength", .number (Nat.toDigits 10 originalLength))]

mutual

def cloneAndScrub (key : Text) (path : List Text) (depth : Nat) (value : Value) : Value :=
  if s.depthLimit < depth then .string DEPTH_LIMIT
  else if isSdkInfrastructurePath path then value
  else if isValuePassthrough key then value
  else if matchesSensitiveKey key then .string REDACTED
  else
    match value with
    | .null => .null
    | .bool value => .bool value
    | .number text =>
        if text ∈ (["Infinity", "-Infinity", "NaN"] : List Text) then .null else .number text
    | .string text =>
        .string (truncateString (s.scrubString text) s.serialization.maxStringLength)
    | .array items =>
        let preserveFullArray := isSdkPackageArrayPath path
        let itemCount :=
          if preserveFullArray then items.length
          else min items.length s.serialization.maxArrayItems
        let scrubbed := scrubItems path depth 0 itemCount items
        if preserveFullArray ∨ items.length ≤ s.serialization.maxArrayItems then .array scrubbed
        else truncatedArray items.length scrubbed
    | .object fields =>
        let scrubbed := scrubFields path depth s.serialization.maxObjectKeys fields
        if s.serialization.maxObjectKeys < fields.length then
          .object (markTruncatedObject fields.length scrubbed)
        else
          .object scrubbed

/-- The first `count` items, the first of them at `index`. -/
def scrubItems (path : List Text) (depth index : Nat) : Nat → List Value → List Value
  | 0, _ => []
  | _, [] => []
  | count + 1, item :: rest =>
      let key : Text := Nat.toDigits 10 index
      cloneAndScrub key (path ++ [key]) (depth + 1) item ::
        scrubItems path depth (index + 1) count rest

/-- The first `count` fields. -/
def scrubFields (path : List Text) (depth : Nat) :
    Nat → List (Text × Value) → List (Text × Value)
  | 0, _ => []
  | _, [] => []
  | count + 1, (key, value) :: rest =>
      let scrubbed := cloneAndScrub key (path ++ [key]) (depth + 1) value
      if isPrototypeKey key then scrubFields path depth count rest
      else (key, scrubbed) :: scrubFields path depth count rest

end

def applyDefaultScrubber (key : Text) (value : Value) : Value :=
  s.cloneAndScrub key (if key = [] then [] else [key]) 0 value

/-- A callback that throws, or returns nothing, leaves the default result. -/
def scrubValue (key : Text) (value : Value) : Value :=
  let defaultScrubbed := s.applyDefaultScrubber key value
  match s.piiScrubber with
  | none => defaultScrubbed
  | some custom => (custom key defaultScrubbed).getD defaultScrubbed

/-! ## Bodies -/

/-- `JSON.parse`, with the fields in the order the object enumerates them. -/
def parseJson (text : Text) : Option Value :=
  (Json.parse s.formatNumber text).map Json.enumerated

def scrubJsonText (decoded : Text) : Option Text :=
  (s.parseJson decoded).map fun parsed =>
    s.scrubString (Json.stringify (s.applyDefaultScrubber [] parsed))

def scrubPlainText (decoded : Text) : Text :=
  s.scrubString (s.scrubKeyValueAssignments decoded)

/-- The textual branches in their order; each falls through to the next when it throws. -/
def scrubText (contentType : Option Text) (decoded : Text) : Text :=
  let asJson := if isJsonContentType contentType then s.scrubJsonText decoded else none
  let asForm :=
    if isFormUrlEncodedContentType contentType then s.scrubForm decoded else none
  (asJson.or asForm).getD (s.scrubPlainText decoded)

/-- The buffer itself is returned when scrubbing leaves its text unchanged. -/
def encodeUnlessUnchanged (buffer : List UInt8) (encoding : BufferEncoding)
    (decoded scrubbed : Text) : List UInt8 :=
  if scrubbed = decoded then buffer else s.encode encoding scrubbed

def scrubBodyBuffer (buffer : List UInt8) (contentType : Option Text) : List UInt8 :=
  if isMultipartContentType contentType then
    s.encode .utf8 MULTIPART_REDACTED
  else if isTextualContentType contentType then
    let encoding := getBodyEncoding contentType
    let decoded := s.decode encoding buffer
    s.encodeUnlessUnchanged buffer encoding decoded (s.scrubText contentType decoded)
  else
    let lossyDecoded := s.decode .utf8 buffer
    s.encodeUnlessUnchanged buffer .utf8 lossyDecoded (s.scrubString lossyDecoded)

end Scrubber

end ErrorCore
