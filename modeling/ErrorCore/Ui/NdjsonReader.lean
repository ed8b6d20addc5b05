import ErrorCore.Foundation.InsertionMap
import ErrorCore.Foundation.Json
import ErrorCore.Foundation.Utf8Decoding

/-!
# Reader of a newline-delimited file

`src/ui/ndjson-reader.ts`: the index is built from the decoded text of the file,
and a lookup reads the bytes at the offset that the index computed.

The content hash, the decryption of an envelope and the printing of numbers are
parameters. An index entry also holds the record that its summary was computed
from, which the code does not keep.
-/

namespace ErrorCore

namespace NdjsonReader

open Json (Value)

structure ReaderRuntime where
  formatNumber : Text → Text
  /-- `createHash('sha256').update(text).digest('hex')`. -/
  sha256Hex : Text → Text
  /-- `encryption.decrypt`, if there is an encryption; it may throw. -/
  encryption : Option (Value → Option Text) := none

/-! ## Records -/

/-- `typeof value === 'object' && value !== null`. -/
def isObject : Value → Bool
  | .object _ | .array _ => true
  | _ => false

/-- `parsed.version === 1 && parsed.kind === kind && typeof parsed.payload === 'string'`. -/
def storedPayload? (kind : Text) (parsed : Value) : Option Text :=
  if parsed.getNumber? "version" = some "1" ∧ parsed.getString? "kind" = some kind then
    parsed.getString? "payload"
  else none

/-- The ciphertext of a transparent envelope. -/
def transparent? (parsed : Value) : Option Text :=
  if (parsed.getNumber? "v" = some "1" ∨ parsed.getNumber? "v" = some "2") ∧
      parsed.getString? "iv" = some "unencrypted" then
    parsed.getString? "ciphertext"
  else none

/-- What is wrapped in a parsed value: nothing, a text, or an envelope that cannot be opened. -/
inductive Wrapped
  | plain
  | text (json : Text)
  | unreadable
  deriving DecidableEq, Repr

def wrapped (rt : ReaderRuntime) (parsed : Value) : Wrapped :=
  let stored :=
    match storedPayload? "event" parsed with
    | some payload => .text payload
    | none =>
        match storedPayload? "payload" parsed with
        | some payload => .text payload
        | none => .plain
  match rt.encryption with
  | some decrypt =>
      if (parsed.get? "ciphertext").isSome ∧ (parsed.get? "v").isSome then
        match decrypt parsed with
        | none => .unreadable
        | some decrypted => .text decrypted
      else stored
  | none =>
      match transparent? parsed with
      | some ciphertext => .text (Bytes.decode (Bytes.ofBase64 ciphertext))
      | none => stored

/-- `left` is the number of depths up to 4 that are left; the source counts from 0. -/
def parseParsed (rt : ReaderRuntime) : Nat → Value → Value
  | 0, _ => .null
  | left + 1, parsed =>
      match wrapped rt parsed with
      | .plain => parsed
      | .unreadable => .null
      | .text json =>
          match Json.parse rt.formatNumber json with
          | none => .null
          | some inner => parseParsed rt left inner

def parseLine (rt : ReaderRuntime) (line : Text) : Value :=
  match Json.parse rt.formatNumber line with
  | none => .null
  | some parsed => parseParsed rt 5 parsed

/-! ## Summaries -/

structure ErrorSummary where
  id : Text
  capturedAt : Value
  errorType : Value
  errorMessage : Value
  url : Option Value
  stack : Value
  rawStack : Option Value
  fingerprint : Option Text
  originPackage : Option Text
  appBoundary : Option Text

/-- `value?.name`. -/
def property? (value : Option Value) (name : Text) : Option Value :=
  value.bind (·.get? name)

/-- `value ?? fallback`. -/
def orElse (value : Option Value) (fallback : Text) : Value :=
  match value with
  | none | some .null => .string fallback
  | some value => value

def formatBoundaryFrame (frame : Option Value) : Option Text := do
  let frame ← frame
  let filePath ← frame.getString? "filePath"
  if filePath = [] then none
  else
    let functionName : Text :=
      match frame.getString? "functionName" with
      | none | some [] => []
      | some functionName => functionName ++ [' ']
    let location : Text :=
      match frame.getNumber? "lineNumber", frame.getNumber? "columnNumber" with
      | none, _ => filePath
      | some lineNumber, none => filePath ++ ':' :: lineNumber
      | some lineNumber, some columnNumber => filePath ++ ':' :: lineNumber ++ ':' :: columnNumber
    some (functionName ++ location)

def summarize (id : Text) (pkg : Value) : ErrorSummary :=
  let error := pkg.get? "error"
  let errorOrigin := pkg.get? "errorOrigin"
  { id
    capturedAt := orElse (pkg.get? "capturedAt") []
    errorType := orElse (property? error "type") "Error"
    errorMessage := orElse (property? error "message") []
    url := property? (pkg.get? "request") "url"
    stack := orElse (property? error "stack") []
    rawStack := property? error "rawStack"
    fingerprint := pkg.getString? "fingerprint"
    originPackage := errorOrigin.bind (·.getString? "package")
    appBoundary := formatBoundaryFrame (property? errorOrigin "appBoundaryFrame") }

/-! ## Index -/

structure IndexEntry where
  offset : Nat
  length : Nat
  summary : ErrorSummary
  /-- The record of the summary. -/
  record : Value

structure Reader where
  index : List (Text × IndexEntry) := []
  blobIndex : List (Text × Value) := []
  fileSize : Nat := 0

/-- `line.trim()`, hashed and cut to twelve digits. -/
def contentId (rt : ReaderRuntime) (line : Text) : Text := (rt.sha256Hex (Text.trim line)).take 12

/-- The object a line holds, unless the line is empty or malformed. -/
def object? (rt : ReaderRuntime) (line : Text) : Option Value :=
  if Text.trim line = [] then none
  else
    let parsed := parseLine rt (Text.trim line)
    if isObject parsed then some parsed else none

def isPayloadBlob (pkg : Value) : Bool := pkg.getString? "kind" = some "payload_blob"

/-- The object of a line that gets an id of its own. -/
def record? (rt : ReaderRuntime) (line : Text) : Option Value :=
  match object? rt line with
  | none => none
  | some pkg => if isPayloadBlob pkg then none else some pkg

def indexBlob (blobIndex : List (Text × Value)) (pkg : Value) : List (Text × Value) :=
  let eventId := (pkg.getString? "eventId").getD []
  let blobId := (pkg.getString? "blobId").getD []
  if eventId ≠ [] ∧ blobId ≠ [] then InsertionMap.set blobIndex (eventId ++ ':' :: blobId) pkg
  else blobIndex

/-- `Buffer.byteLength(line + '\n', 'utf8')`. -/
def lineBytes (line : Text) : Nat := Text.byteLength (line ++ ['\n'])

structure Building where
  offset : Nat := 0
  index : List (Text × IndexEntry) := []
  blobIndex : List (Text × Value) := []

def indexLine (rt : ReaderRuntime) (b : Building) (line : Text) : Building :=
  let offset := b.offset + lineBytes line
  match object? rt line with
  | none => { b with offset }
  | some pkg =>
      if isPayloadBlob pkg then { b with offset, blobIndex := indexBlob b.blobIndex pkg }
      else
        let id := contentId rt line
        { b with
          offset
          index := InsertionMap.set b.index id
            { offset := b.offset, length := lineBytes line, summary := summarize id pkg,
              record := pkg } }

/-- `none` is a file that does not exist. -/
def buildIndex (rt : ReaderRuntime) (reader : Reader) : Option Bytes → Reader
  | none => reader
  | some bytes =>
      if bytes.length = reader.fileSize ∧ reader.index ≠ [] then reader
      else
        let built := (Text.split '\n' (Bytes.decode bytes)).foldl (indexLine rt) {}
        { index := built.index, blobIndex := built.blobIndex, fileSize := bytes.length }

def new (rt : ReaderRuntime) (file : Option Bytes) : Reader := buildIndex rt {} file

/-- What `getAll` filters, sorts and cuts into pages. -/
def summaries (reader : Reader) : List ErrorSummary := reader.index.map (·.2.summary)

/-- `readSync` into a buffer of zeros; it reads no further than the file goes. -/
def readWindow (bytes : Bytes) (offset length : Nat) : Bytes :=
  let chunk := (bytes.drop offset).take length
  chunk ++ List.replicate (length - chunk.length) (Bytes.byte 0)

/-- `none` is an id that is not in the index. -/
def getById (rt : ReaderRuntime) (reader : Reader) (bytes : Bytes) (id : Text) : Option Value :=
  match InsertionMap.get? reader.index id with
  | none => none
  | some entry =>
      some (parseLine rt (Text.trim (Bytes.decode (readWindow bytes entry.offset entry.length))))

end NdjsonReader

end ErrorCore
