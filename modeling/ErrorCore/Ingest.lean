import Mathlib.Data.Rat.Floor
import ErrorCore.Security.Encryption

/-!
# Ingest

The receiver of `src/ingest/index.ts`, from the raw input to the classified
payload. A parsed JSON value stands for any value the caller hands over, and a
number is compared by the text it prints as.
-/

namespace ErrorCore

open Json (Value)

structure IngestError where
  code : Text
  message : Text
  statusCode : Nat
  deriving DecidableEq, Repr

/-- What the receiver throws: its own errors, and those of the key derivation. -/
inductive IngestFailure
  | ingest (error : IngestError)
  | thrown (message : Text)
  deriving DecidableEq, Repr

def ingestError (code message : Text) (statusCode : Nat) : IngestFailure :=
  .ingest ⟨code, message, statusCode⟩

inductive IngestInput
  | text (value : Text)
  | buffer (value : Bytes)
  | value (value : Value)

/-- An optional number of the caller. -/
inductive NumberOption
  | undefined
  | notFinite
  | finite (value : Rat)
  deriving DecidableEq, Repr

structure IngestEnvelopeOptions where
  encryptionKey : Option KeyInput := none
  macKey : Option KeyInput := none
  previousEncryptionKeys : List Text := []
  allowUnencrypted : Option Bool := none
  maxPlaintextBytes : NumberOption := .undefined

inductive PayloadKind
  | error
  | payloadBlob
  | watchdog
  | unknown
  deriving DecidableEq, Repr

structure IngestedPayload where
  kind : PayloadKind
  payload : Value
  rawPayload : Text
  envelope : Option Envelope
  encrypted : Bool
  keyIndex : Option Nat

/-- The runtime of the receiver. -/
structure IngestRuntime extends CryptoRuntime where
  formatNumber : Text → Text

/-! ## Shapes -/

def isRecord : Value → Bool
  | .object _ => true
  | _ => false

def isRecordField (value : Value) (name : Text) : Bool := (value.get? name).any isRecord

def isStringField (value : Value) (name : Text) : Bool := (value.getString? name).isSome

def isNumberField (value : Value) (name : Text) : Bool := (value.getNumber? name).isSome

/-- `value[name] === text`. -/
def stringFieldIs (value : Value) (name text : Text) : Bool := value.getString? name = some text

/-- `value[name] === number`, for a number that prints as `text`. -/
def numberFieldIs (value : Value) (name text : Text) : Bool := value.getNumber? name = some text

def boolField? (value : Value) (name : Text) : Option Bool :=
  match value.get? name with
  | some (.bool b) => some b
  | _ => none

def isWatchdogPayload (value : Value) : Bool :=
  isRecord value && stringFieldIs value "source" "watchdog" &&
    stringFieldIs value "watchdogPayloadVersion" "1.0.0" && isStringField value "capturedAt" &&
    isRecordField value "error" &&
    (value.get? "error").any (fun error => isStringField error "message") &&
    isRecordField value "invocation" &&
    (value.get? "invocation").any fun invocation =>
      isStringField invocation "functionName" && isStringField invocation "startedAt" &&
        isNumberField invocation "durationMs" && isNumberField invocation "timeoutMs"

def errorSchemaVersions : List Text := ["1.1.0", "1.2.0", "1.3.0", "1.4.0"]

def classifyPayload (payload : Value) : PayloadKind :=
  if isWatchdogPayload payload then .watchdog
  else if ¬ isRecord payload then .unknown
  else if stringFieldIs payload "schemaVersion" "1.2.0" ∧ stringFieldIs payload "kind" "payload_blob"
    then .payloadBlob
  else if (payload.getString? "schemaVersion").any (· ∈ errorSchemaVersions) ∧
      isStringField payload "capturedAt" ∧ isRecordField payload "error" then .error
  else .unknown

/-! ## Envelopes -/

def INVALID_ENVELOPE : Text := "EC_INGEST_INVALID_ENVELOPE"

def invalidEnvelope (message : Text) : IngestFailure := ingestError INVALID_ENVELOPE message 400

def requiredString (record : Value) (field : Text) : Except IngestFailure Text :=
  match record.getString? field with
  | some (c :: rest) => .ok (c :: rest)
  | _ =>
      .error (invalidEnvelope
        (("Errorcore envelope is missing required string field " : Text) ++ field))

/-- The fields that both versions have, with the checks of `parseEnvelope` on their types. -/
structure EnvelopeShape where
  isV1 : Bool
  sdkVersion : Text
  compressed : Bool
  producedAt : Text

def envelopeShape? (input : Value) : Option EnvelopeShape := do
  let isV1 := numberFieldIs input "v" "1"
  if ¬ isV1 ∧ ¬ numberFieldIs input "v" "2" then none
  let sdk ← input.get? "sdk"
  if ¬ isRecord sdk ∨ ¬ stringFieldIs sdk "name" "errorcore" then none
  let sdkVersion ← sdk.getString? "version"
  let compressed ← boolField? input "compressed"
  let producedAt ← input.getNumber? "producedAt"
  return { isV1, sdkVersion, compressed, producedAt }

/-- The kind and the blob id of version 2. -/
def parseVersion2 (input : Value) : Except IngestFailure EnvelopeVersion :=
  if stringFieldIs input "kind" "payload_blob" then
    match input.getString? "blobId" with
    | some (c :: rest) => .ok (.v2 .payloadBlob (some (c :: rest)))
    | _ => .error (invalidEnvelope "Errorcore v2 payload_blob envelope requires a blobId")
  else if stringFieldIs input "kind" "error" then
    match input.get? "blobId" with
    | some _ => .error (invalidEnvelope "Errorcore v2 error envelope must not carry a blobId")
    | none => .ok (.v2 .error none)
  else
    .error (invalidEnvelope "Errorcore v2 envelope kind must be 'error' or 'payload_blob'")

def parseEnvelope (input : Value) : Except IngestFailure Envelope := do
  if ¬ isRecord input then throw (invalidEnvelope "Errorcore envelope must be a JSON object")
  match envelopeShape? input with
  | none => throw (invalidEnvelope "Errorcore envelope shape is invalid")
  | some shape =>
      let eventId ← requiredString input "eventId"
      let keyId ← requiredString input "keyId"
      let iv ← requiredString input "iv"
      let ciphertext ← requiredString input "ciphertext"
      let authTag ← requiredString input "authTag"
      let hmac ← requiredString input "hmac"
      let version ← if shape.isV1 then pure .v1 else parseVersion2 input
      return {
        version, eventId, sdkVersion := some shape.sdkVersion, keyId, iv, ciphertext, authTag, hmac
        compressed := shape.compressed, producedAt := shape.producedAt }

/-! ## Payloads -/

def identityMismatch (message : Text) : IngestFailure :=
  ingestError "EC_ENVELOPE_IDENTITY_MISMATCH" message 422

def PayloadKind.text : PayloadKind → Text
  | .error => "error"
  | .payloadBlob => "payload_blob"
  | .watchdog => "watchdog"
  | .unknown => "unknown"

def EnvelopeKind.payloadKind : EnvelopeKind → PayloadKind
  | .error => .error
  | .payloadBlob => .payloadBlob

/-- What is compared of the kind and the blob id, which version 1 does not have. -/
def enforceVersionIdentity (kind : PayloadKind) (payload : Value) :
    EnvelopeVersion → Except IngestFailure Unit
  | .v1 => .ok ()
  | .v2 envelopeKind blobId =>
      if envelopeKind.payloadKind ≠ kind then
        .error (identityMismatch (("Envelope kind " : Text) ++ envelopeKind.text ++
          (" does not match inner payload kind " : Text) ++ kind.text))
      else if kind = .payloadBlob ∧
          (payload.getString? "blobId" = none ∨ payload.getString? "blobId" ≠ blobId) then
        .error (identityMismatch "Inner payload blobId does not match the envelope blobId")
      else
        .ok ()

def enforceEnvelopeIdentity (kind : PayloadKind) (payload : Value) (envelope : Envelope) :
    Except IngestFailure Unit :=
  match kind with
  | .watchdog | .unknown => .ok ()
  | kind =>
      if payload.getString? "eventId" ≠ some envelope.eventId then
        .error (identityMismatch "Inner payload eventId does not match the envelope eventId")
      else
        enforceVersionIdentity kind payload envelope.version

def buildIngestedPayload (payload : Value) (rawPayload : Text) (envelope : Option Envelope)
    (encrypted : Bool) (keyIndex : Option Nat) : IngestedPayload :=
  match classifyPayload payload, envelope with
  | .watchdog, _ => ⟨.watchdog, payload, rawPayload, none, false, none⟩
  | .error, some envelope => ⟨.error, payload, rawPayload, some envelope, encrypted, keyIndex⟩
  | .payloadBlob, some envelope =>
      ⟨.payloadBlob, payload, rawPayload, some envelope, encrypted, keyIndex⟩
  | _, envelope => ⟨.unknown, payload, rawPayload, envelope, encrypted, keyIndex⟩

section Receive

variable (rt : IngestRuntime)

def parseJsonValue (input : IngestInput) (code : Text) : Except IngestFailure Value :=
  let parsed : Text → Except IngestFailure Value := fun text =>
    match Json.parse rt.formatNumber text with
    | some value => .ok value
    | none => .error (ingestError code "Ingest payload is not valid JSON" 400)
  match input with
  | .text text => parsed text
  | .buffer bytes => parsed (rt.bufferToText bytes)
  | .value value => .ok value

def rawJson : IngestInput → Text
  | .text text => text
  | .buffer bytes => rt.bufferToText bytes
  | .value value => Json.stringify value

def parseInnerPayload (rawPayload : Text) : Except IngestFailure Value :=
  match Json.parse rt.formatNumber rawPayload with
  | some value => .ok value
  | none =>
      .error (ingestError "EC_INGEST_INVALID_PAYLOAD_JSON"
        "Decoded Errorcore envelope payload is not valid JSON" 400)

/-- A limit that is not a whole number admits as many bytes as the whole number below it. -/
def resolvePlaintextLimit : NumberOption → Except IngestFailure Nat
  | .undefined => .ok DEFAULT_MAX_PLAINTEXT_BYTES
  | .finite value =>
      if 0 < value then .ok ⌊value⌋.toNat
      else .error (ingestError "EC_INGEST_INVALID_PLAINTEXT_LIMIT"
        "maxPlaintextBytes must be a positive number" 400)
  | .notFinite =>
      .error (ingestError "EC_INGEST_INVALID_PLAINTEXT_LIMIT"
        "maxPlaintextBytes must be a positive number" 400)

def plaintextTooLarge (message : Text) : IngestFailure :=
  ingestError "EC_INGEST_PLAINTEXT_TOO_LARGE" message 413

def enforcePlaintextLimit (rawPayload : Text) (maxPlaintextBytes : Nat) :
    Except IngestFailure Unit :=
  let size := Text.byteLength rawPayload
  if maxPlaintextBytes < size then
    .error (plaintextTooLarge (("Decoded Errorcore envelope plaintext is " : Text) ++
      Nat.toDigits 10 size ++ (" bytes, above " : Text) ++ Nat.toDigits 10 maxPlaintextBytes ++
      (" bytes" : Text)))
  else
    .ok ()

/-- The plaintext of an envelope and where it came from. -/
structure OpenedEnvelope where
  rawPayload : Text
  keyIndex : Option Nat
  encrypted : Bool
  deriving DecidableEq, Repr

def openTransparent (options : IngestEnvelopeOptions) (envelope : Envelope) :
    Except IngestFailure OpenedEnvelope :=
  if envelope.keyId ≠ TRANSPARENT_MARKER ∨ envelope.hmac ≠ TRANSPARENT_MARKER then
    .error (invalidEnvelope "Transparent Errorcore envelope markers are inconsistent")
  else if options.allowUnencrypted ≠ some true then
    .error (ingestError "EC_INGEST_UNENCRYPTED_REJECTED"
      "Unencrypted Errorcore envelopes are disabled for this ingestion endpoint" 403)
  else
    .ok ⟨rt.bufferToText (Bytes.ofBase64 envelope.ciphertext), none, false⟩

/-- The chain that the options configure for an envelope. -/
def ingestEncryption (key : KeyInput) (options : IngestEnvelopeOptions) (envelope : Envelope)
    (maxPlaintextBytes : Nat) : Except Text Encryption :=
  Encryption.new rt.toCryptoRuntime key
    { previousEncryptionKeys := options.previousEncryptionKeys
      macKey := options.macKey
      sdkVersion := envelope.sdkVersion
      maxPlaintextBytes := some maxPlaintextBytes }

def decryptFailed (message : Text) : IngestFailure :=
  ingestError "EC_INGEST_DECRYPT_FAILED" message 400

def openEncrypted (options : IngestEnvelopeOptions) (envelope : Envelope)
    (maxPlaintextBytes : Nat) : Except IngestFailure OpenedEnvelope :=
  match options.encryptionKey with
  | none =>
      .error (ingestError "EC_INGEST_ENCRYPTION_KEY_MISSING"
        "An encryptionKey is required to ingest encrypted Errorcore envelopes" 500)
  | some key =>
      match ingestEncryption rt key options envelope maxPlaintextBytes with
      | .error message => .error (.thrown message)
      | .ok encryption =>
          match encryption.decryptEnvelope rt.toCryptoRuntime envelope with
          | .error reason =>
              if Text.includes reason "EC_DECOMPRESSION_LIMIT_EXCEEDED" then
                .error (plaintextTooLarge
                  (("Decoded Errorcore envelope plaintext exceeds " : Text) ++
                    Nat.toDigits 10 maxPlaintextBytes ++ (" bytes" : Text)))
              else
                .error (decryptFailed
                  (("Unable to decrypt Errorcore envelope: " : Text) ++ reason))
          | .ok none => .error (decryptFailed "Unable to decrypt Errorcore envelope")
          | .ok (some decrypted) => .ok ⟨decrypted.plaintext, some decrypted.keyIndex, true⟩

def openEnvelope (options : IngestEnvelopeOptions) (envelope : Envelope)
    (maxPlaintextBytes : Nat) : Except IngestFailure OpenedEnvelope :=
  if isTransparentEnvelope envelope then openTransparent rt options envelope
  else openEncrypted rt options envelope maxPlaintextBytes

def receiveIngestEnvelope (input : IngestInput) (options : IngestEnvelopeOptions) :
    Except IngestFailure IngestedPayload := do
  let parsed ← parseJsonValue rt input "EC_INGEST_INVALID_JSON"
  if isWatchdogPayload parsed then
    return buildIngestedPayload parsed (rawJson rt input) none false none
  let maxPlaintextBytes ← resolvePlaintextLimit options.maxPlaintextBytes
  let envelope ← parseEnvelope parsed
  let opened ← openEnvelope rt options envelope maxPlaintextBytes
  enforcePlaintextLimit opened.rawPayload maxPlaintextBytes
  let innerPayload ← parseInnerPayload rt opened.rawPayload
  enforceEnvelopeIdentity (classifyPayload innerPayload) innerPayload envelope
  return buildIngestedPayload innerPayload opened.rawPayload (some envelope) opened.encrypted
    opened.keyIndex

end Receive

end ErrorCore
