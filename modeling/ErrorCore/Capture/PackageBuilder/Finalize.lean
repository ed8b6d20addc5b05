import ErrorCore.Foundation.Json.Path
import ErrorCore.Ingest.WireFormat
import ErrorCore.Security.Encryption.RoundTrip

/-!
# Finished payloads

`finalizePackageAssemblyResult` and `finalizePayloadBlobAssemblyResult` of
`src/capture/package-builder.ts`: an object is serialized and sealed, and the
payload is the text of the envelope. Of an error package the model has the
properties that its type fixes for the receiver; what else it carries is in its
other fields. The nonce and the clock are arguments.
-/

namespace ErrorCore

open Json (Value)

/-- What a payload is sealed with: the encryption, if there is one, and what the runtime gives. -/
structure Sealer where
  encryption : Option Encryption
  sdkVersion : Text
  nonce : Nonce
  now : Nat
  /-- The clock is a safe integer. -/
  now_safe : now < 9007199254740992

def Sealer.producedAt (sealer : Sealer) : Text := Nat.toDigits 10 sealer.now

def Sealer.encrypted (sealer : Sealer) : Bool := sealer.encryption.isSome

/-- The two branches of the finalizers. -/
def Sealer.envelope (rt : CryptoRuntime) (sealer : Sealer) (serialized : Text)
    (opts : EnvelopeEncryptOptions) : Except Text Envelope :=
  match sealer.encryption with
  | some encryption =>
      encryption.encryptToEnvelope rt (Bytes.ofText serialized) opts sealer.nonce sealer.producedAt
  | none =>
      buildTransparentEnvelope (Bytes.ofText serialized) opts sealer.sdkVersion sealer.producedAt

/-- A finished payload. -/
structure Finalized where
  serialized : Text
  envelope : Envelope
  deriving DecidableEq, Repr

/-- `JSON.stringify(envelope)`. -/
def Finalized.payload (finalized : Finalized) : Text := Json.stringify finalized.envelope.toJson

/-! ## Error packages -/

/-- An `ErrorPackage`, as far as its type and its builder fix what is serialized. -/
structure PackageObject where
  fields : List (Text × Value)
  eventId : Text
  completeness : List (Text × Value)
  schemaVersion_eq : (Value.object fields).get? "schemaVersion" = some (.string "1.4.0")
  eventId_eq : (Value.object fields).get? "eventId" = some (.string eventId)
  /-- The event id is a UUID. -/
  eventId_ne : eventId ≠ []
  capturedAt_eq : ∃ capturedAt, (Value.object fields).get? "capturedAt" = some (.string capturedAt)
  error_eq : ∃ error, (Value.object fields).get? "error" = some (.object error)
  completeness_eq : (Value.object fields).get? "completeness" = some (.object completeness)
  source_eq : (Value.object fields).get? "source" = none

/-- `packageObject.completeness.encrypted = encrypted`. -/
def PackageObject.marked (package : PackageObject) (encrypted : Bool) : Value :=
  .object (Json.setField "completeness"
    (.object (Json.setField "encrypted" (.bool encrypted) package.completeness)) package.fields)

def finalizePackageAssemblyResult (rt : CryptoRuntime) (sealer : Sealer)
    (packageObject : PackageObject) : Except Text Finalized := do
  let serializedPackage := Json.stringify (packageObject.marked sealer.encrypted)
  let envelope ← sealer.envelope rt serializedPackage
    { eventId := packageObject.eventId, kind := .error, blobId := none }
  return ⟨serializedPackage, envelope⟩

/-! ## Payload blobs -/

structure PayloadBlobEnvelope where
  eventId : Text
  blobId : Text
  requestId : Option Text
  lineageId : Option Text
  mimeType : Option Text
  size : Nat
  capturedSize : Nat
  sha256 : Text
  body : Text
  createdAt : Text
  deriving DecidableEq, Repr

/-- `string | null`. -/
def nullable : Option Text → Value
  | none => .null
  | some text => .string text

def PayloadBlobEnvelope.toJson (blob : PayloadBlobEnvelope) : Value :=
  .object
    [("schemaVersion", .string "1.2.0"), ("kind", .string "payload_blob"),
      ("eventId", .string blob.eventId), ("blobId", .string blob.blobId),
      ("requestId", nullable blob.requestId), ("lineageId", nullable blob.lineageId),
      ("mimeType", nullable blob.mimeType), ("size", .number (Nat.toDigits 10 blob.size)),
      ("capturedSize", .number (Nat.toDigits 10 blob.capturedSize)),
      ("sha256", .string blob.sha256), ("bodyEncoding", .string "base64"),
      ("body", .string blob.body), ("createdAt", .string blob.createdAt)]

def finalizePayloadBlobAssemblyResult (rt : CryptoRuntime) (sealer : Sealer)
    (envelopeObject : PayloadBlobEnvelope) : Except Text Finalized := do
  let serializedPackage := Json.stringify envelopeObject.toJson
  let envelope ← sealer.envelope rt serializedPackage
    { eventId := envelopeObject.eventId, kind := .payloadBlob
      blobId := some envelopeObject.blobId }
  return ⟨serializedPackage, envelope⟩

/-! ## What is sealed -/

variable {rt : CryptoRuntime} {sealer : Sealer} {numbers : Json.NumberFormat} {name : Text}

namespace PackageObject

variable {package : PackageObject} {encrypted : Bool}

theorem get?_marked (h : name ≠ "completeness") :
    (package.marked encrypted).get? name = (Value.object package.fields).get? name := by
  rw [marked, Value.get?, Json.lookup_setField_of_ne h, Value.get?]

theorem getString?_eventId :
    (package.marked encrypted).getString? "eventId" = some package.eventId := by
  rw [Value.getString?, get?_marked (by decide), package.eventId_eq]

theorem isWatchdogPayload_marked : isWatchdogPayload (package.marked encrypted) = false := by
  have hsource : stringFieldIs (package.marked encrypted) "source" "watchdog" = false := by
    rw [stringFieldIs, Value.getString?, get?_marked (by decide), package.source_eq]
    rfl
  rw [isWatchdogPayload, hsource, Bool.and_false, Bool.false_and, Bool.false_and, Bool.false_and,
    Bool.false_and, Bool.false_and, Bool.false_and]

/-- The receiver takes a finished package for an error package. -/
theorem classifyPayload_marked : classifyPayload (package.marked encrypted) = .error := by
  have hschema :
      (package.marked encrypted).getString? "schemaVersion" = some ("1.4.0" : Text) := by
    rw [Value.getString?, get?_marked (by decide), package.schemaVersion_eq]
  obtain ⟨capturedAt, hcapturedAt⟩ := package.capturedAt_eq
  obtain ⟨error, herror⟩ := package.error_eq
  have htime : isStringField (package.marked encrypted) "capturedAt" = true := by
    rw [isStringField, Value.getString?, get?_marked (by decide), hcapturedAt]
    rfl
  have hrecord : isRecordField (package.marked encrypted) "error" = true := by
    rw [isRecordField, get?_marked (by decide), herror]
    rfl
  have hother : stringFieldIs (package.marked encrypted) "schemaVersion" "1.2.0" = false := by
    rw [stringFieldIs, hschema]
    decide
  have hobject : isRecord (package.marked encrypted) = true := rfl
  have hversion : ((package.marked encrypted).getString? "schemaVersion").any
      (· ∈ errorSchemaVersions) = true := by
    rw [hschema]
    decide
  rw [classifyPayload, isWatchdogPayload_marked, if_neg Bool.false_ne_true,
    if_neg (not_not.mpr hobject), hother, if_neg (fun h => Bool.false_ne_true h.1),
    if_pos ⟨hversion, htime, hrecord⟩]

/-- Marking keeps a package that reads back. -/
theorem canonical_marked (h : Json.Canonical numbers.print (.object package.fields)) :
    Json.Canonical numbers.print (package.marked encrypted) := by
  obtain ⟨hnodup, hfields⟩ := h
  rw [Json.canonicalFields_iff] at hfields
  have hmem := Json.mem_of_lookup package.completeness_eq
  obtain ⟨hcompleteness, hinner⟩ := hfields _ hmem
  rw [Json.canonicalFields_iff] at hinner
  refine ⟨?_, (Json.canonicalFields_iff _).mpr ?_⟩
  · rw [Json.names_setField _ (List.mem_map_of_mem hmem)]
    exact hnodup
  · intro field hfield
    cases Json.mem_setField hfield with
    | inr hold => exact hfields field hold
    | inl hnew =>
        rw [hnew]
        refine ⟨Json.nodup_setField _ _ hcompleteness, (Json.canonicalFields_iff _).mpr ?_⟩
        intro inner hin
        cases Json.mem_setField hin with
        | inr hold => exact hinner inner hold
        | inl hflag =>
            rw [hflag]
            trivial

end PackageObject

namespace PayloadBlobEnvelope

variable {blob : PayloadBlobEnvelope}

/-- The receiver takes a finished blob for a payload blob. -/
theorem classifyPayload_toJson : classifyPayload blob.toJson = .payloadBlob := rfl

theorem canonical_nullable (text : Option Text) : Json.Canonical numbers.print (nullable text) := by
  cases text with
  | none => trivial
  | some text => trivial

theorem canonical_toJson (hsize : blob.size < 9007199254740992)
    (hcaptured : blob.capturedSize < 9007199254740992) :
    Json.Canonical numbers.print blob.toJson := by
  have hnames : (["schemaVersion", "kind", "eventId", "blobId", "requestId", "lineageId",
      "mimeType", "size", "capturedSize", "sha256", "bodyEncoding", "body", "createdAt"] :
        List Text).Nodup := by
    decide
  exact ⟨hnames, trivial, trivial, trivial, trivial, canonical_nullable _, canonical_nullable _,
    canonical_nullable _, numbers.numberText_nat hsize, numbers.numberText_nat hcaptured, trivial,
    trivial, trivial, trivial, trivial⟩

end PayloadBlobEnvelope

end ErrorCore
