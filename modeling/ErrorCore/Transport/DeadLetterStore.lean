import Mathlib.Logic.Basic
import ErrorCore.Foundation.Json

/-!
# The dead-letter store

`src/transport/dead-letter-store.ts` keeps undelivered payloads as JSON lines in
one file. Every function below is one section under the file lock: it takes the
content of the file, `none` when there is no file, and returns the content it
leaves behind. The fields of the store object that change are a record of their
own, so that two processes can hold a store each over the same file.

SHA-256, `Date.parse` and the printing of numbers belong to the runtime and are
parameters; the signer is the pluggable verifier of the source.
-/

namespace ErrorCore.DeadLetterStore

/-- The functions of the runtime the store is built on. -/
structure Runtime where
  sha256Hex : Text → Text
  /-- `Date.parse`, with `none` for `NaN`. -/
  parseDate : Text → Option Int
  numbers : Json.NumberFormat

structure IntegrityVerifier where
  sign : Text → Text
  verifyKeyIndex : Text → Text → Option Nat

structure DeadLetterStoreOptions where
  verifier : IntegrityVerifier
  maxSizeBytes : Nat := 50 * 1024 * 1024
  maxBackups : Int := 5
  maxPayloadBytes : Nat := 6 * 1024 * 1024
  requireEncryptedPayload : Bool := false

/-- The fields of a `DeadLetterStore` object that its methods change. -/
structure Store where
  pendingPayloadCount : Option Nat
  ackedPayloadIds : List Text
  deriving DecidableEq, Repr

def Store.fresh : Store := { pendingPayloadCount := none, ackedPayloadIds := [] }

abbrev StoreFile := Option Text

/-- What an envelope is about, by its `kind`. -/
inductive Content
  | payload (id : Option Text) (payload : Text)
  | marker (code : Text)
  deriving DecidableEq, Repr

structure UnsignedEnvelope where
  storedAt : Text
  content : Content
  deriving DecidableEq, Repr

structure DeadLetterEnvelope extends UnsignedEnvelope where
  mac : Text
  deriving DecidableEq, Repr

structure DeadLetterDrainEntry where
  lineNumber : Nat
  id : Text
  payload : Text
  deriving DecidableEq, Repr

structure DrainResult where
  entries : List DeadLetterDrainEntry
  lineCount : Nat
  deriving DecidableEq, Repr

structure ReSignResult where
  resigned : Nat
  dropped : Nat
  markersKept : Nat
  deriving DecidableEq, Repr

/-! ## Envelopes and lines -/

def UnsignedEnvelope.fields (envelope : UnsignedEnvelope) : List (Text × Json.Value) :=
  match envelope.content with
  | .payload none payload =>
      [("version", .number "1"), ("kind", .string "payload"),
        ("storedAt", .string envelope.storedAt), ("payload", .string payload)]
  | .payload (some id) payload =>
      [("version", .number "1"), ("kind", .string "payload"),
        ("storedAt", .string envelope.storedAt), ("id", .string id), ("payload", .string payload)]
  | .marker code =>
      [("version", .number "1"), ("kind", .string "marker"),
        ("storedAt", .string envelope.storedAt), ("code", .string code)]

def UnsignedEnvelope.stringify (envelope : UnsignedEnvelope) : Text :=
  Json.stringify (.object envelope.fields)

def DeadLetterEnvelope.stringify (envelope : DeadLetterEnvelope) : Text :=
  Json.stringify (.object (envelope.fields ++ [(("mac" : Text), .string envelope.mac)]))

/-- `content.split('\n').filter((line) => line.length > 0)`. -/
def splitLines (content : Text) : List Text :=
  (Text.split '\n' content).filter (· ≠ [])

/-- `lines.join('\n') + '\n'`. -/
def joinLines (lines : List Text) : Text :=
  Text.join ['\n'] lines ++ ['\n']

/-- The lines of the file; a file that is not there has none. -/
def linesOf (file : StoreFile) : List Text :=
  match file with
  | none => []
  | some content => splitLines content

section Store

variable (rt : Runtime) (opts : DeadLetterStoreOptions)

def isEncryptedPayloadFormat (payload : Text) : Bool :=
  match Json.parse rt.numbers.print payload with
  | none => false
  | some parsed =>
      (parsed.getNumber? "v" = some "1" || parsed.getNumber? "v" = some "2") &&
        (["eventId", "iv", "ciphertext", "authTag", "hmac"] : List Text).all fun name =>
          (parsed.getString? name).isSome

def computePayloadId (payload : Text) : Text :=
  ("sha256:" : Text) ++ rt.sha256Hex payload

def signEnvelope (envelope : UnsignedEnvelope) : Text :=
  opts.verifier.sign envelope.stringify

def verifyMac (envelope : UnsignedEnvelope) (mac : Text) : Bool :=
  (opts.verifier.verifyKeyIndex envelope.stringify mac).isSome

/-- The checks of `parseEnvelope` on a payload entry. -/
def parsePayloadContent (parsed : Json.Value) : Option Content :=
  match parsed.getString? "payload" with
  | none => none
  | some payload =>
      if Text.byteLength payload = 0 ∨ opts.maxPayloadBytes < Text.byteLength payload then none
      else if opts.requireEncryptedPayload && !isEncryptedPayloadFormat rt payload then none
      else
        match parsed.get? "id" with
        | none => some (.payload none payload)
        | some (.string id) => some (.payload (some id) payload)
        | some _ => none

/-- The checks of `parseEnvelope` that depend on the kind of the entry. -/
def parseContent (parsed : Json.Value) : Option Content :=
  if parsed.getString? "kind" = some "payload" then parsePayloadContent rt opts parsed
  else if parsed.getString? "kind" = some "marker" then
    match parsed.getString? "code" with
    | none => none
    | some code => if code = [] then none else some (.marker code)
  else none

def parseEnvelope (line : Text) : Option DeadLetterEnvelope :=
  match Json.parse rt.numbers.print line with
  | none => none
  | some parsed =>
      if parsed.getNumber? "version" = some "1" then
        match parsed.getString? "storedAt", parsed.getString? "mac", parseContent rt opts parsed with
        | some storedAt, some mac, some content =>
            if (rt.parseDate storedAt).isSome && verifyMac opts { storedAt, content } mac then
              some { storedAt, content, mac }
            else
              none
        | _, _, _ => none
      else
        none

/-- The id and payload of a line that holds a valid payload entry. -/
def parsePayload (line : Text) : Option (Text × Text) :=
  match parseEnvelope rt opts line with
  | some { content := .payload id payload, .. } =>
      some (id.getD (computePayloadId rt payload), payload)
  | _ => none

/-- `parseRawEnvelope` on the fields that depend on the kind: their types and nothing else. -/
def parseRawContent (parsed : Json.Value) : Option Content :=
  if parsed.getString? "kind" = some "payload" then
    match parsed.getString? "payload", parsed.get? "id" with
    | some payload, none => some (.payload none payload)
    | some payload, some (.string id) => some (.payload (some id) payload)
    | _, _ => none
  else if parsed.getString? "kind" = some "marker" then
    (parsed.getString? "code").map .marker
  else none

def parseRawEnvelope (line : Text) : Option DeadLetterEnvelope :=
  match Json.parse rt.numbers.print line with
  | none => none
  | some parsed =>
      if parsed.getNumber? "version" = some "1" then
        match parsed.getString? "storedAt", parsed.getString? "mac", parseRawContent parsed with
        | some storedAt, some mac, some content => some { storedAt, content, mac }
        | _, _, _ => none
      else
        none

/-! ## The methods of the store -/

def ensurePendingCountInitialized (file : StoreFile) (store : Store) : Store :=
  match store.pendingPayloadCount with
  | some _ => store
  | none =>
      { store with
        pendingPayloadCount :=
          some ((linesOf file).countP fun line => (parsePayload rt opts line).isSome) }

def exceedsMaxSize (file : StoreFile) : Bool :=
  match file with
  | none => false
  | some content => opts.maxSizeBytes ≤ Text.byteLength content

/-- `rotateIfNeededSync`: the file is renamed away, or `none` when backups are
off and the entry is refused. The backups themselves are not modelled. -/
def rotateIfNeededSync (file : StoreFile) (store : Store) : Option (StoreFile × Store) :=
  if exceedsMaxSize opts file then
    if opts.maxBackups ≤ 0 then none
    else some (none, { store with pendingPayloadCount := some 0 })
  else
    some (file, store)

def signedLine (envelope : UnsignedEnvelope) : Text :=
  ({ envelope with mac := signEnvelope opts envelope } : DeadLetterEnvelope).stringify

/-- The result says whether the entry was written. -/
def appendEnvelopeSync (file : StoreFile) (store : Store) (envelope : UnsignedEnvelope) :
    Bool × StoreFile × Store :=
  match rotateIfNeededSync opts file store with
  | none => (false, file, store)
  | some (file, store) =>
      (true, some (file.getD [] ++ (signedLine opts envelope ++ ['\n'])), store)

/-- The envelope `appendPayloadSync` writes for a payload. -/
def payloadEnvelope (storedAt payload : Text) : UnsignedEnvelope :=
  { storedAt, content := .payload (some (computePayloadId rt payload)) payload }

def appendPayloadSync (file : StoreFile) (store : Store) (storedAt payload : Text) :
    Bool × StoreFile × Store :=
  if opts.maxPayloadBytes < Text.byteLength payload then
    (false, file, store)
  else
    let store := ensurePendingCountInitialized rt opts file store
    if computePayloadId rt payload ∈ store.ackedPayloadIds then
      (true, file, store)
    else
      match appendEnvelopeSync opts file store (payloadEnvelope rt storedAt payload) with
      | (true, file, store) =>
          (true, file,
            { store with pendingPayloadCount := some (store.pendingPayloadCount.getD 0 + 1) })
      | (false, file, store) => (false, file, store)

def appendFailureMarkerSync (file : StoreFile) (store : Store) (storedAt code : Text) :
    Bool × StoreFile × Store :=
  appendEnvelopeSync opts file store { storedAt, content := .marker code }

/-- The loop of `drain` from a line number on. -/
def drainEntries (store : Store) : Nat → List Text → List DeadLetterDrainEntry
  | _, [] => []
  | lineNumber, line :: rest =>
      match parsePayload rt opts line with
      | none => drainEntries store (lineNumber + 1) rest
      | some (id, payload) =>
          if id ∈ store.ackedPayloadIds then drainEntries store (lineNumber + 1) rest
          else { lineNumber, id, payload } :: drainEntries store (lineNumber + 1) rest

/-- Without `allowLargeFile`, files above this size are left for the command line. -/
def largeFileBytes : Nat := 10 * 1024 * 1024

def skipsLargeFile (file : StoreFile) (allowLargeFile : Bool) : Bool :=
  !allowLargeFile && largeFileBytes < Text.byteLength (file.getD [])

def drain (file : StoreFile) (store : Store) (allowLargeFile : Bool) : DrainResult :=
  if skipsLargeFile file allowLargeFile then
    { entries := [], lineCount := 0 }
  else
    { entries := drainEntries rt opts store 1 (linesOf file)
      lineCount := (linesOf file).length }

def markAcked (store : Store) (id : Text) : Store :=
  if id = [] ∨ id ∈ store.ackedPayloadIds then store
  else
    { ackedPayloadIds := id :: store.ackedPayloadIds
      pendingPayloadCount := store.pendingPayloadCount.map (· - 1) }

/-- `clear`: whatever file there is, it is unlinked. -/
def clear (store : Store) : StoreFile × Store :=
  (none, { store with pendingPayloadCount := some 0 })

def clearSent (file : StoreFile) (store : Store) (sentLineCount : Nat) : StoreFile × Store :=
  match file with
  | none => (none, { store with pendingPayloadCount := some 0 })
  | some content =>
      let lines := splitLines content
      let left :=
        if sentLineCount < lines.length then some (joinLines (lines.drop sentLineCount)) else none
      (left, { store with pendingPayloadCount := none })

/-- One line of `reSignAll`: the entry under the primary key, or `none` when it is dropped. -/
def reSignLine (line : Text) : Option Text :=
  match parseRawEnvelope rt line with
  | none => none
  | some envelope =>
      if verifyMac opts envelope.toUnsignedEnvelope envelope.mac then
        some (signedLine opts envelope.toUnsignedEnvelope)
      else
        none

def isMarkerLine (line : Text) : Bool :=
  match parseRawEnvelope rt line with
  | some { content := .marker _, .. } => true
  | _ => false

def reSignAll (file : StoreFile) (store : Store) : ReSignResult × StoreFile × Store :=
  match file with
  | none => ({ resigned := 0, dropped := 0, markersKept := 0 }, none, store)
  | some content =>
      let lines := splitLines content
      let kept := lines.filter fun line => (reSignLine rt opts line).isSome
      let out := lines.filterMap (reSignLine rt opts)
      let resigned := kept.countP fun line => !isMarkerLine rt line
      ({  resigned
          dropped := lines.countP fun line => (reSignLine rt opts line).isNone
          markersKept := kept.countP fun line => isMarkerLine rt line },
        some (if out = [] then [] else joinLines out),
        { store with pendingPayloadCount := some resigned })

def hasPending (file : StoreFile) : Bool := 0 < Text.byteLength (file.getD [])

def getPendingCount (file : StoreFile) (store : Store) : Nat × Store :=
  let store := ensurePendingCountInitialized rt opts file store
  (store.pendingPayloadCount.getD 0, store)

end Store

end ErrorCore.DeadLetterStore
