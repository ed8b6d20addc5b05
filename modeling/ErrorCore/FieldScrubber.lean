import ErrorCore.Security.Encryption

/-!
# The field scrubber

`src/scrubber/encoder.ts` and `src/scrubber/scrubber.ts`. A captured value is
known by what the conversions of the language say about it. The detectors of a
policy and the spool are supplied by the caller and may throw. Warnings are
returned in the order in which they are emitted.
-/

namespace ErrorCore

namespace FieldScrubber

/-! ## Values -/

/-- What `JSON.stringify(value)` does. -/
inductive Stringified
  | text (json : Text)
  | undefined
  | throws
  deriving DecidableEq, Repr

/-- A value as the encoder observes it. -/
structure CapturedValue where
  /-- `typeOfValue(value)`. -/
  type : Text
  json : Stringified
  /-- `String(value)`, which may throw. -/
  string : Except Text Text
  /-- `value.length` of a string, an array, a buffer or a typed array. -/
  length : Option Nat
  /-- `Object.keys(value)` of an object that is no array. -/
  keys : Option (List Text)

structure Meta where
  type : Text
  bytes : Nat
  len : Option Nat
  keys : Option (List Text)
  deriving DecidableEq, Repr

def stringifyForBytes (value : CapturedValue) : Except Text Text :=
  match value.json with
  | .text json => .ok json
  | .undefined => value.string
  | .throws => value.string

def encodeFieldPlaintext (value : CapturedValue) : Except Text Bytes :=
  (stringifyForBytes value).map Bytes.ofText

def computeMeta (value : CapturedValue) (maxKeys : Nat) : Except Text Meta := do
  let text ← stringifyForBytes value
  return {
    type := value.type
    bytes := Text.byteLength text
    len := value.length
    keys := value.keys.map (·.take maxKeys) }

/-! ## Fields -/

inductive Source
  | httpIncoming
  | app
  deriving DecidableEq, Repr

inductive FieldMetadataOnlyReason
  | credentialName
  | piiDetector
  | encryptionKeyMissing
  | spoolUnavailable
  | maxFieldBytes
  | sensitivityCheckFailed
  | encodeFailed
  | spoolFailed
  deriving DecidableEq, Repr

/-- The blobs of both formats; `legacyInline` is only read. -/
inductive Blob
  | legacyInline (bytes nonce : Bytes)
  | inline (ciphertext nonce : Text)
  | ref (id : Text) (bytes : Nat)
  deriving DecidableEq, Repr

inductive Field
  | metadata (data : Meta) (reason : FieldMetadataOnlyReason)
  | encrypted (data : Meta) (cipher : Blob)
  deriving DecidableEq, Repr

structure Policy where
  credentialNames : Text → Bool
  piiDetectors : List (CapturedValue → Except Text Bool)
  maxKeys : Nat
  spoolBytes : Nat
  maxField : Nat

structure FieldSpoolStoreInput where
  bytes : Bytes
  originalSize : Nat
  name : Text
  source : Source
  deriving DecidableEq, Repr

structure StoredRef where
  id : Text
  bytes : Nat
  deriving DecidableEq, Repr

/-- The `store` of a spool; what it reads back is an argument of `decryptFieldValue`. -/
structure FieldSpool (σ : Type) where
  store : σ → FieldSpoolStoreInput → Except Text (σ × StoredRef)

structure FieldWarning where
  code : Text
  message : Text
  cause : Option Text := none
  name : Text
  source : Option Source := none
  refId : Option Text := none
  deriving DecidableEq, Repr

/-! ## Encoding -/

def REF_NONCE_BYTES : Nat := 12

def toInlineBlob (rt : CryptoRuntime) (encryption : Encryption) (plaintext : Bytes)
    (nonce : Nonce) : Blob :=
  let encrypted := encryption.encryptField rt plaintext nonce
  .inline (Bytes.toBase64 encrypted.bytes) (Bytes.toBase64 encrypted.nonce)

/-- The nonce and then the bytes of an encrypted field, as they are stored in a spool. -/
def packedField (rt : CryptoRuntime) (encryption : Encryption) (plaintext : Bytes)
    (nonce : Nonce) : Bytes :=
  let encrypted := encryption.encryptField rt plaintext nonce
  encrypted.nonce ++ encrypted.bytes

section Spool

variable {σ : Type}

def toRefBlob (rt : CryptoRuntime) (encryption : Encryption) (spool : FieldSpool σ) (state : σ)
    (plaintext : Bytes) (name : Text) (source : Source) (nonce : Nonce) :
    Except Text (σ × Blob) := do
  let packed := packedField rt encryption plaintext nonce
  let (state, stored) ← spool.store state {
    bytes := packed
    originalSize := plaintext.length
    name
    source }
  return (state, .ref stored.id stored.bytes)

/-- The field and the state of the spool. -/
def encodeNormal (rt : CryptoRuntime) (encryption : Encryption) (policy : Policy)
    (spool : Option (FieldSpool σ)) (state : σ) (name : Text) (value : CapturedValue) (data : Meta)
    (source : Source) (nonce : Nonce) : Except Text (σ × Field) := do
  let plaintext ← encodeFieldPlaintext value
  if source = .httpIncoming ∧ policy.spoolBytes < plaintext.length then
    match spool with
    | none => return (state, .metadata data .spoolUnavailable)
    | some spool =>
        let (state, cipher) ← toRefBlob rt encryption spool state plaintext name source nonce
        return (state, .encrypted data cipher)
  else if policy.maxField < plaintext.length then
    return (state, .metadata data .maxFieldBytes)
  else
    return (state, .encrypted data (toInlineBlob rt encryption plaintext nonce))

end Spool

/-! ## Decoding -/

def isBase64Char (c : Char) : Bool := c.isAlphanum || c = '+' || c = '/'

/-- `/^[A-Za-z0-9+/]+={0,2}$/`. -/
def matchesBase64 (value : Text) : Bool :=
  value.takeWhile isBase64Char ≠ [] && (value.dropWhile isBase64Char).all (· = '=') &&
    (value.dropWhile isBase64Char).length ≤ 2

def decodeCanonicalBase64 (value fieldName : Text) : Except Text Bytes :=
  let failure : Except Text Bytes :=
    .error (("Field " : Text) ++ fieldName ++ (" is not canonical base64" : Text))
  if value = [] ∨ value.length % 4 ≠ 0 ∨ ¬ matchesBase64 value then failure
  else
    let decoded := Bytes.ofBase64 value
    if Bytes.toBase64 decoded ≠ value then failure else .ok decoded

/-- `get` is `spool?.get?.(id)`. -/
def decryptFieldValue (rt : CryptoRuntime) (encryption : Encryption) (get : Text → Option Bytes)
    (field : Field) : Except Text Bytes :=
  match field with
  | .metadata _ _ => .error "Cannot decrypt metadata-only field"
  | .encrypted _ (.inline ciphertext nonce) => do
      let bytes ← decodeCanonicalBase64 ciphertext "ciphertext"
      let nonce ← decodeCanonicalBase64 nonce "nonce"
      encryption.decryptField rt bytes nonce
  | .encrypted _ (.legacyInline bytes nonce) => encryption.decryptField rt bytes nonce
  | .encrypted _ (.ref id _) =>
      match get id with
      | none => .error (("Field spool ref not found: " : Text) ++ id)
      | some packed =>
          if packed.length < REF_NONCE_BYTES + 1 then
            .error (("Field spool ref is invalid: " : Text) ++ id)
          else
            encryption.decryptField rt (packed.drop REF_NONCE_BYTES) (packed.take REF_NONCE_BYTES)

/-! ## The scrubber -/

structure Scrubber (σ : Type) where
  policy : Policy
  encryption : Option Encryption
  spool : Option (FieldSpool σ)

/-- A field with the warnings on the way to it, and the state of the spool. -/
structure Processed (σ : Type) where
  field : Field
  warnings : List FieldWarning
  state : σ

namespace Scrubber

variable {σ : Type}

/-- The detectors in their order, up to the first that applies or throws. -/
def runDetectors (value : CapturedValue) :
    List (CapturedValue → Except Text Bool) → Except Text Bool
  | [] => .ok false
  | detector :: rest => do if ← detector value then return true else runDetectors value rest

def sensitiveReason (scrubber : Scrubber σ) (name : Text) (value : CapturedValue) :
    Option FieldMetadataOnlyReason × List FieldWarning :=
  if scrubber.policy.credentialNames name then (some .credentialName, [])
  else
    match runDetectors value scrubber.policy.piiDetectors with
    | .ok true => (some .piiDetector, [])
    | .ok false => (none, [])
    | .error cause =>
        (some .sensitivityCheckFailed,
          [{ code := "EC_FIELD_ENCODE_FAILED"
             message := "Field sensitivity detection failed; treating field as sensitive."
             cause := some cause
             name }])

/-- An error is the one that reading the metadata throws. -/
def process (rt : CryptoRuntime) (scrubber : Scrubber σ) (state : σ) (name : Text)
    (value : CapturedValue) (source : Source) (nonce : Nonce) : Except Text (Processed σ) := do
  let data ← computeMeta value scrubber.policy.maxKeys
  match scrubber.sensitiveReason name value with
  | (some reason, warnings) => return ⟨.metadata data reason, warnings, state⟩
  | (none, warnings) =>
      match scrubber.encryption with
      | none =>
          return ⟨.metadata data .encryptionKeyMissing,
            warnings ++
              [{ code := "EC_FIELD_ENCRYPTION_KEY_MISSING"
                 message := "Field encryption skipped because no encryption key is configured."
                 name, source := some source }],
            state⟩
      | some encryption =>
          match encodeNormal rt encryption scrubber.policy scrubber.spool state name value data
            source nonce with
          | .ok (state, field) => return ⟨field, warnings, state⟩
          | .error cause =>
              return ⟨.metadata data .encodeFailed,
                warnings ++
                  [{ code := "EC_FIELD_ENCODE_FAILED"
                     message := "Field encoding failed; falling back to metadata-only capture."
                     cause := some cause
                     name, source := some source }],
                state⟩

/-- The caller has stored a blob, and the field refers to it. -/
def processRef (scrubber : Scrubber σ) (state : σ) (name : Text) (value : CapturedValue)
    (source : Source) (ref : StoredRef) : Except Text (Processed σ) := do
  let data ← computeMeta value scrubber.policy.maxKeys
  let data := { data with bytes := ref.bytes }
  match scrubber.sensitiveReason name value with
  | (some reason, warnings) => return ⟨.metadata data reason, warnings, state⟩
  | (none, warnings) =>
      match scrubber.encryption with
      | none =>
          return ⟨.metadata data .encryptionKeyMissing,
            warnings ++
              [{ code := "EC_FIELD_ENCRYPTION_KEY_MISSING"
                 message := "Field spool ref skipped because no encryption key is configured."
                 name, source := some source, refId := some ref.id }],
            state⟩
      | some _ => return ⟨.encrypted data (.ref ref.id ref.bytes), warnings, state⟩

end Scrubber

end FieldScrubber

end ErrorCore
