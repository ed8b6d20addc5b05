import ErrorCore.Foundation.Bytes

/-!
# Encryption

`src/security/encryption.ts` and `src/security/compression.ts`. The primitives
of `node:crypto` and `node:zlib` are parameters. Random bytes and the clock are
arguments of the functions that use them, and zeroing buffers has no result.

An envelope is well formed by its type: only version 2 has a kind, and there is
no other version. Binary fields hold the base64 text of the wire format.
-/

namespace ErrorCore

inductive InflateError
  | bufferTooLarge
  | failed (reason : Text)
  deriving DecidableEq, Repr

/-- The functions of the runtime that encryption is built on. -/
structure CryptoRuntime where
  hkdfSync : Bytes → Bytes → Bytes
  pbkdf2Sync : Bytes → Bytes → Bytes
  sha256 : Bytes → Bytes
  /-- The key and the message. -/
  hmacSha256 : Bytes → Bytes → Bytes
  /-- Key, nonce, additional data and plaintext; the ciphertext and the tag. -/
  gcmEncrypt : Bytes → Bytes → Bytes → Bytes → Bytes × Bytes
  gcmEncrypt_length : ∀ key nonce aad plaintext,
    (gcmEncrypt key nonce aad plaintext).1.length = plaintext.length ∧
      (gcmEncrypt key nonce aad plaintext).2.length = 16
  /-- Key, nonce, additional data, ciphertext and tag; `none` when the tag is rejected. -/
  gcmDecrypt : Bytes → Bytes → Bytes → Bytes → Bytes → Option Bytes
  deflateRawSync : Bytes → Bytes
  /-- The compressed bytes and `maxOutputLength`. -/
  inflateRawSync : Bytes → Nat → Except InflateError Bytes
  /-- What bytes that are not UTF-8 are read as. -/
  lossyUtf8 : Bytes → Text
  /-- The positions of a list after `sort`. The comparator puts the selected ones first and
  contradicts itself when there are two of them, so the order is up to the runtime. -/
  sortFirst : (Nat → Bool) → List Nat → List Nat
  sortFirst_perm : ∀ selected positions, (sortFirst selected positions).Perm positions

/-- What `randomBytes(12)` returns. -/
structure Nonce where
  bytes : Bytes
  length_eq : bytes.length = 12

/-- `buffer.toString('utf8')`. -/
def CryptoRuntime.bufferToText (rt : CryptoRuntime) (bytes : Bytes) : Text :=
  (Bytes.toText? bytes).getD (rt.lossyUtf8 bytes)

/-! ## Compression -/

def COMPRESSION_THRESHOLD_BYTES : Nat := 8192

def DEFAULT_MAX_PLAINTEXT_BYTES : Nat := 10 * 1024 * 1024

structure MaybeCompressResult where
  buf : Bytes
  compressed : Bool
  deriving DecidableEq, Repr

def maybeCompress (rt : CryptoRuntime) (plaintext : Bytes) : MaybeCompressResult :=
  if plaintext.length ≤ COMPRESSION_THRESHOLD_BYTES then ⟨plaintext, false⟩
  else
    let compressed := rt.deflateRawSync plaintext
    if plaintext.length ≤ compressed.length then ⟨plaintext, false⟩ else ⟨compressed, true⟩

def maybeDecompress (rt : CryptoRuntime) (buf : Bytes) (compressed : Bool)
    (maxOutputLength : Nat) : Except Text Bytes :=
  if compressed then
    match rt.inflateRawSync buf maxOutputLength with
    | .ok bytes => .ok bytes
    | .error .bufferTooLarge =>
        .error (("EC_DECOMPRESSION_LIMIT_EXCEEDED: inflated payload exceeds " : Text) ++
          Nat.toDigits 10 maxOutputLength ++ (" bytes" : Text))
    | .error (.failed reason) => .error (("EC_DECOMPRESSION_FAILED: " : Text) ++ reason)
  else
    .ok buf

/-! ## Keys -/

/-- A key as it is configured: a string or a `Buffer`. -/
inductive KeyInput
  | text (value : Text)
  | buffer (value : Bytes)
  deriving DecidableEq, Repr

structure RuntimeKeyMaterial where
  derivedKey : Bytes
  macKey : Bytes
  keyId : Text
  deriving DecidableEq, Repr

structure KeyMaterial extends RuntimeKeyMaterial where
  legacyDerivationSecret : Bytes
  explicitMacKey : Option KeyInput
  deriving DecidableEq, Repr

def STATIC_KEY_SALT : Bytes := Bytes.ofText "errorcore-v1-key-derivation"

def MAC_DERIVATION_SALT : Bytes := Bytes.ofText "errorcore-v1-mac-key"

def KEY_ID_PREFIX_BYTES : Nat := 8

def MIN_MAC_KEY_BYTES : Nat := 32

def emptyKeyError : Text := "encryptionKey must not be empty"

def readKeyMaterial : KeyInput → Except Text Bytes
  | .buffer bytes => .ok bytes
  | .text input =>
      if input = [] then .error emptyKeyError
      else if input.length = 64 ∧ Bytes.isHex input then .ok (Bytes.ofHex input)
      else .ok (Bytes.ofText input)

def readLegacyKeyMaterial : KeyInput → Except Text Bytes
  | .buffer bytes => .ok bytes
  | .text input => if input = [] then .error emptyKeyError else .ok (Bytes.ofText input)

def explicitMacKeyBytes : KeyInput → Bytes
  | .buffer bytes => bytes
  | .text explicit =>
      if explicit ≠ [] ∧ Bytes.isHex explicit ∧ explicit.length % 2 = 0 then Bytes.ofHex explicit
      else Bytes.ofText explicit

/-- The MAC key; `derive` is the derivation of the mode, from the secret and a salt. -/
def deriveMacKey (derive : Bytes → Bytes → Bytes) (dekSecret : Bytes)
    (explicit : Option KeyInput) : Except Text Bytes :=
  match explicit with
  | none => .ok (derive dekSecret MAC_DERIVATION_SALT)
  | some explicit =>
      let candidate := explicitMacKeyBytes explicit
      if candidate.length < MIN_MAC_KEY_BYTES then
        .error (("EC_MAC_KEY_TOO_SHORT: macKey must be at least 32 bytes (got " : Text) ++
          Nat.toDigits 10 candidate.length ++ (")" : Text))
      else
        .ok candidate

def computeKeyId (rt : CryptoRuntime) (derivedKey : Bytes) : Text :=
  Bytes.toHex ((rt.sha256 derivedKey).take KEY_ID_PREFIX_BYTES)

def deriveKeys (rt : CryptoRuntime) (encryptionKey : KeyInput) (macKey : Option KeyInput) :
    Except Text KeyMaterial := do
  let derivationSecret ← readKeyMaterial encryptionKey
  let legacyDerivationSecret ← readLegacyKeyMaterial encryptionKey
  let derivedKey := rt.hkdfSync derivationSecret STATIC_KEY_SALT
  let derivedMacKey ← deriveMacKey rt.hkdfSync derivationSecret macKey
  return {
    derivedKey
    macKey := derivedMacKey
    keyId := computeKeyId rt derivedKey
    legacyDerivationSecret
    explicitMacKey := macKey }

def getLegacyKeyMaterial (rt : CryptoRuntime) (km : KeyMaterial) :
    Except Text RuntimeKeyMaterial := do
  let derivedKey := rt.pbkdf2Sync km.legacyDerivationSecret STATIC_KEY_SALT
  let macKey ← deriveMacKey rt.pbkdf2Sync km.legacyDerivationSecret km.explicitMacKey
  return { derivedKey, macKey, keyId := computeKeyId rt derivedKey }

/-- The digest of a text as base64. -/
def hmacText (rt : CryptoRuntime) (key : Bytes) (serialized : Text) : Text :=
  Bytes.toBase64 (rt.hmacSha256 key (Bytes.ofText serialized))

/-- The digest of a text is the one that is given as base64. -/
def hmacMatches (rt : CryptoRuntime) (key : Bytes) (serialized mac : Text) : Bool :=
  rt.hmacSha256 key (Bytes.ofText serialized) = Bytes.ofBase64 mac

/-! ## Envelopes -/

inductive EnvelopeKind
  | error
  | payloadBlob
  deriving DecidableEq, Repr

def EnvelopeKind.text : EnvelopeKind → Text
  | .error => "error"
  | .payloadBlob => "payload_blob"

inductive EnvelopeVersion
  | v1
  | v2 (kind : EnvelopeKind) (blobId : Option Text)
  deriving DecidableEq, Repr

/-- `AnyEncryptedEnvelope`. -/
structure Envelope where
  version : EnvelopeVersion
  eventId : Text
  /-- `sdk.version`, unless `sdk` is missing. -/
  sdkVersion : Option Text
  keyId : Text
  iv : Text
  ciphertext : Text
  authTag : Text
  hmac : Text
  compressed : Bool
  producedAt : Text
  deriving DecidableEq, Repr

def TRANSPARENT_MARKER : Text := "unencrypted"

def isTransparentEnvelope (envelope : Envelope) : Bool :=
  envelope.iv = TRANSPARENT_MARKER && envelope.authTag = TRANSPARENT_MARKER

/-- `2|keyId|sdkVersion|eventId|kind|blobId-or-empty`. -/
def aadText (eventId sdkVersion keyId : Text) (kind : EnvelopeKind) (blobId : Option Text) :
    Text :=
  '2' :: '|' :: (keyId ++ '|' :: (sdkVersion ++ '|' :: (eventId ++ '|' ::
    (kind.text ++ '|' :: blobId.getD []))))

/-- `1|keyId|sdkVersion|eventId`. -/
def aadTextV1 (eventId sdkVersion keyId : Text) : Text :=
  '1' :: '|' :: (keyId ++ '|' :: (sdkVersion ++ '|' :: eventId))

def buildAad (eventId sdkVersion keyId : Text) (kind : EnvelopeKind) (blobId : Option Text) :
    Bytes :=
  Bytes.ofText (aadText eventId sdkVersion keyId kind blobId)

def buildAadV1 (eventId sdkVersion keyId : Text) : Bytes :=
  Bytes.ofText (aadTextV1 eventId sdkVersion keyId)

def buildEnvelopeAad (envelope : Envelope) (sdkVersion keyId : Text) : Bytes :=
  let version := envelope.sdkVersion.getD sdkVersion
  match envelope.version with
  | .v1 => buildAadV1 envelope.eventId version keyId
  | .v2 kind blobId => buildAad envelope.eventId version keyId kind blobId

/-- `1|field|keyId|sdkVersion`. -/
def buildFieldAad (sdkVersion keyId : Text) : Bytes :=
  Bytes.ofText (("1|field|" : Text) ++ keyId ++ '|' :: sdkVersion)

def assertKindBlobIdCoherence (kind : EnvelopeKind) (blobId : Option Text) : Except Text Unit :=
  match kind, blobId with
  | .payloadBlob, none | .payloadBlob, some [] =>
      .error "EC_ENVELOPE_BLOB_ID_REQUIRED: kind=payload_blob requires a blobId"
  | .error, some _ => .error "EC_ENVELOPE_BLOB_ID_FORBIDDEN: kind=error must not carry a blobId"
  | _, _ => .ok ()

/-- Version 1 has neither a kind nor a blob id. -/
def EnvelopeVersion.assertCoherence : EnvelopeVersion → Except Text Unit
  | .v1 => .ok ()
  | .v2 kind blobId => assertKindBlobIdCoherence kind blobId

/-- What the outer HMAC covers. -/
def envelopeMac (rt : CryptoRuntime) (macKey iv ciphertext authTag aad : Bytes) : Bytes :=
  rt.hmacSha256 macKey (iv ++ ciphertext ++ authTag ++ aad)

inductive DecryptFailure
  | hmac
  | authTag
  deriving DecidableEq, Repr

inductive DecryptAttempt
  | ok (plaintext : Text)
  | failed (failure : DecryptFailure)
  deriving DecidableEq, Repr

/-- The decoded fields that every attempt works on. -/
structure SealedBytes where
  iv : Bytes
  ciphertext : Bytes
  authTag : Bytes
  expectedHmac : Bytes
  deriving DecidableEq, Repr

def Envelope.sealedBytes (envelope : Envelope) : SealedBytes where
  iv := Bytes.ofBase64 envelope.iv
  ciphertext := Bytes.ofBase64 envelope.ciphertext
  authTag := Bytes.ofBase64 envelope.authTag
  expectedHmac := Bytes.ofBase64 envelope.hmac

/-- Inflating is outside the authentication, and its errors are thrown. -/
def tryDecryptWithMaterial (rt : CryptoRuntime) (material : RuntimeKeyMaterial)
    (envelope : Envelope) (sdkVersion : Text) (maxPlaintextBytes : Nat) :
    Except Text DecryptAttempt :=
  let data := envelope.sealedBytes
  let aad := buildEnvelopeAad envelope sdkVersion material.keyId
  if envelopeMac rt material.macKey data.iv data.ciphertext data.authTag aad ≠
      data.expectedHmac then
    .ok (.failed .hmac)
  else
    match rt.gcmDecrypt material.derivedKey data.iv aad data.ciphertext data.authTag with
    | none => .ok (.failed .authTag)
    | some plaintextBuf =>
        (maybeDecompress rt plaintextBuf envelope.compressed maxPlaintextBytes).map fun plaintext =>
          .ok (rt.bufferToText plaintext)

/-! ## The key chain -/

structure Encryption where
  primary : KeyMaterial
  previous : List KeyMaterial
  sdkVersion : Text
  maxPlaintextBytes : Nat
  deriving DecidableEq, Repr

structure EncryptionOptions where
  previousEncryptionKeys : List Text := []
  macKey : Option KeyInput := none
  sdkVersion : Option Text := none
  maxPlaintextBytes : Option Nat := none

structure EnvelopeEncryptOptions where
  eventId : Text
  kind : EnvelopeKind
  blobId : Option Text
  deriving DecidableEq, Repr

structure Decrypted where
  plaintext : Text
  keyIndex : Nat
  deriving DecidableEq, Repr

/-- The first attempt that succeeds, or else the first failure. -/
def firstSuccess (attempt : Nat → Except Text DecryptAttempt) :
    Option DecryptFailure → List Nat → Except Text (Decrypted ⊕ Option DecryptFailure)
  | firstFailure, [] => .ok (.inr firstFailure)
  | firstFailure, i :: rest =>
      match attempt i with
      | .error error => .error error
      | .ok (.ok plaintext) => .ok (.inl ⟨plaintext, i⟩)
      | .ok (.failed failure) => firstSuccess attempt (firstFailure.or (some failure)) rest

namespace Encryption

variable (rt : CryptoRuntime)

/-- The constructor. -/
def new (encryptionKey : KeyInput) (options : EncryptionOptions) : Except Text Encryption := do
  let primary ← deriveKeys rt encryptionKey options.macKey
  let previous ← options.previousEncryptionKeys.mapM fun key =>
    deriveKeys rt (.text key) options.macKey
  return {
    primary
    previous
    sdkVersion := options.sdkVersion.getD "unknown"
    maxPlaintextBytes := options.maxPlaintextBytes.getD DEFAULT_MAX_PLAINTEXT_BYTES }

def chain (encryption : Encryption) : List KeyMaterial := encryption.primary :: encryption.previous

def primaryKeyId (encryption : Encryption) : Text := encryption.primary.keyId

def encryptToEnvelope (encryption : Encryption) (plaintext : Bytes) (opts : EnvelopeEncryptOptions)
    (nonce : Nonce) (producedAt : Text) : Except Text Envelope := do
  assertKindBlobIdCoherence opts.kind opts.blobId
  let primary := encryption.primary
  let aad := buildAad opts.eventId encryption.sdkVersion primary.keyId opts.kind opts.blobId
  let working := maybeCompress rt plaintext
  let iv := nonce.bytes
  let (ciphertext, authTag) := rt.gcmEncrypt primary.derivedKey iv aad working.buf
  let hmac := envelopeMac rt primary.macKey iv ciphertext authTag aad
  return {
    version := .v2 opts.kind opts.blobId
    eventId := opts.eventId
    sdkVersion := some encryption.sdkVersion
    keyId := primary.keyId
    iv := Bytes.toBase64 iv
    ciphertext := Bytes.toBase64 ciphertext
    authTag := Bytes.toBase64 authTag
    hmac := Bytes.toBase64 hmac
    compressed := working.compressed
    producedAt }

/-- An attempt with the key at a position of the chain. -/
def attempt (encryption : Encryption) (envelope : Envelope)
    (materials : List RuntimeKeyMaterial) (i : Nat) : Except Text DecryptAttempt :=
  match materials[i]? with
  | none => .ok (.failed .hmac)
  | some material =>
      tryDecryptWithMaterial rt material envelope encryption.sdkVersion encryption.maxPlaintextBytes

/-- `chain.slice().sort(...)`, as positions in the chain. -/
def keyOrder (envelope : Envelope) (materials : List RuntimeKeyMaterial) : List Nat :=
  rt.sortFirst (fun i => materials[i]?.any fun material => material.keyId = envelope.keyId)
    (List.range materials.length)

def decryptError : Option DecryptFailure → Except Text (Option Decrypted)
  | some .hmac => .error "EC_DECRYPT_HMAC_MISMATCH"
  | some .authTag => .error "EC_DECRYPT_AUTH_TAG_MISMATCH"
  | none => .ok none

def decryptEnvelope (encryption : Encryption) (envelope : Envelope) :
    Except Text (Option Decrypted) := do
  envelope.version.assertCoherence
  let materials := encryption.chain.map (·.toRuntimeKeyMaterial)
  match ← firstSuccess (encryption.attempt rt envelope materials) none
      (keyOrder rt envelope materials) with
  | .inl decrypted => return some decrypted
  | .inr firstFailure =>
      let legacy ← encryption.chain.mapM (getLegacyKeyMaterial rt)
      match ← firstSuccess (encryption.attempt rt envelope legacy) firstFailure
          (keyOrder rt envelope legacy) with
      | .inl decrypted => return some decrypted
      | .inr firstFailure => decryptError firstFailure

/-! ## Fields -/

structure EncryptedField where
  nonce : Bytes
  bytes : Bytes
  deriving DecidableEq, Repr

def encryptField (encryption : Encryption) (input : Bytes) (nonce : Nonce) : EncryptedField :=
  let primary := encryption.primary
  let (ciphertext, authTag) := rt.gcmEncrypt primary.derivedKey nonce.bytes
    (buildFieldAad encryption.sdkVersion primary.keyId) input
  ⟨nonce.bytes, ciphertext ++ authTag⟩

/-- The first material that authenticates the field. -/
def decryptFieldWith (encryption : Encryption) (iv ciphertext authTag : Bytes) :
    List RuntimeKeyMaterial → Option Bytes
  | [] => none
  | material :: rest =>
      match rt.gcmDecrypt material.derivedKey iv
        (buildFieldAad encryption.sdkVersion material.keyId) ciphertext authTag with
      | some plaintext => some plaintext
      | none => decryptFieldWith encryption iv ciphertext authTag rest

/-- An error of the legacy derivation is caught with the failures of the cipher. -/
def legacyMaterials (encryption : Encryption) : List RuntimeKeyMaterial :=
  encryption.chain.filterMap fun km => (getLegacyKeyMaterial rt km).toOption

def decryptField (encryption : Encryption) (bytes nonce : Bytes) : Except Text Bytes :=
  if nonce.length ≠ 12 ∨ bytes.length < 17 then .error "EC_FIELD_DECRYPT_INVALID_BLOB"
  else
    let ciphertext := bytes.take (bytes.length - 16)
    let authTag := bytes.drop (bytes.length - 16)
    let materials := encryption.chain.map (·.toRuntimeKeyMaterial) ++ encryption.legacyMaterials rt
    match encryption.decryptFieldWith rt nonce ciphertext authTag materials with
    | some plaintext => .ok plaintext
    | none => .error "EC_FIELD_DECRYPT_AUTH_TAG_MISMATCH"

def sign (encryption : Encryption) (serialized : Text) : Text :=
  hmacText rt encryption.primary.macKey serialized

/-- The second loop of `verify`, from an index of the chain on. -/
def verifyLegacy (serialized mac : Text) : Nat → List KeyMaterial → Except Text (Option Nat)
  | _, [] => .ok none
  | i, km :: rest => do
      let legacy ← getLegacyKeyMaterial rt km
      if hmacMatches rt legacy.macKey serialized mac then return some i
      else verifyLegacy serialized mac (i + 1) rest

/-- The index of the key, if there is one. -/
def verify (encryption : Encryption) (serialized mac : Text) : Except Text (Option Nat) :=
  match encryption.chain.findIdx? fun km => hmacMatches rt km.macKey serialized mac with
  | some i => .ok (some i)
  | none => verifyLegacy rt serialized mac 0 encryption.chain

end Encryption

/-! ## Transparent envelopes -/

def buildTransparentEnvelope (plaintext : Bytes) (opts : EnvelopeEncryptOptions)
    (sdkVersion producedAt : Text) : Except Text Envelope := do
  assertKindBlobIdCoherence opts.kind opts.blobId
  return {
    version := .v2 opts.kind opts.blobId
    eventId := opts.eventId
    sdkVersion := some sdkVersion
    keyId := TRANSPARENT_MARKER
    iv := TRANSPARENT_MARKER
    ciphertext := Bytes.toBase64 plaintext
    authTag := TRANSPARENT_MARKER
    hmac := TRANSPARENT_MARKER
    compressed := false
    producedAt }

/-- A runtime for inputs that reach none of the primitives. -/
def inertRuntime : CryptoRuntime where
  hkdfSync _ _ := []
  pbkdf2Sync _ _ := []
  sha256 _ := []
  hmacSha256 _ _ := []
  gcmEncrypt _ _ _ plaintext := (plaintext, List.replicate 16 0)
  gcmEncrypt_length _ _ _ _ := ⟨rfl, rfl⟩
  gcmDecrypt _ _ _ _ _ := none
  deflateRawSync bytes := bytes
  inflateRawSync _ _ := .error .bufferTooLarge
  lossyUtf8 _ := []
  sortFirst _ positions := positions
  sortFirst_perm _ positions := .refl positions

/-- One message under AES-256-GCM. -/
structure GcmCall where
  key : Bytes
  nonce : Bytes
  aad : Bytes
  plaintext : Bytes
  ciphertext : Bytes
  authTag : Bytes
  length_eq : ciphertext.length = plaintext.length ∧ authTag.length = 16

/-- Calls of the primitives with the results that the runtime gives. -/
structure RecordedCalls where
  hkdf : List ((Bytes × Bytes) × Bytes)
  pbkdf2 : List ((Bytes × Bytes) × Bytes)
  sha256 : List (Bytes × Bytes)
  hmac : List ((Bytes × Bytes) × Bytes)
  gcm : GcmCall
  deflate : List (Bytes × Bytes)
  inflate : List (Bytes × Bytes)

/-- The runtime as far as it is recorded. -/
def RecordedCalls.runtime (calls : RecordedCalls) : CryptoRuntime where
  hkdfSync secret salt := (calls.hkdf.lookup (secret, salt)).getD []
  pbkdf2Sync secret salt := (calls.pbkdf2.lookup (secret, salt)).getD []
  sha256 bytes := (calls.sha256.lookup bytes).getD []
  hmacSha256 key message := (calls.hmac.lookup (key, message)).getD []
  gcmEncrypt key nonce aad plaintext :=
    if key = calls.gcm.key ∧ nonce = calls.gcm.nonce ∧ aad = calls.gcm.aad ∧
        plaintext = calls.gcm.plaintext then
      (calls.gcm.ciphertext, calls.gcm.authTag)
    else
      (plaintext, List.replicate 16 0)
  gcmEncrypt_length key nonce aad plaintext := by
    split
    · next h => exact h.2.2.2 ▸ calls.gcm.length_eq
    · exact ⟨rfl, rfl⟩
  gcmDecrypt key nonce aad ciphertext authTag :=
    if key = calls.gcm.key ∧ nonce = calls.gcm.nonce ∧ aad = calls.gcm.aad ∧
        ciphertext = calls.gcm.ciphertext ∧ authTag = calls.gcm.authTag then
      some calls.gcm.plaintext
    else
      none
  deflateRawSync bytes := (calls.deflate.lookup bytes).getD bytes
  inflateRawSync bytes limit :=
    match calls.inflate.lookup bytes with
    | some inflated => if inflated.length ≤ limit then .ok inflated else .error .bufferTooLarge
    | none => .error (.failed "invalid stored block lengths")
  lossyUtf8 _ := []
  sortFirst _ positions := positions
  sortFirst_perm _ positions := .refl positions

/-- What the keys `k` and `n` are derived to. -/
def shortKeyCalls (hmac : List ((Bytes × Bytes) × Bytes)) (gcm : GcmCall)
    (deflate inflate : List (Bytes × Bytes)) : RecordedCalls where
  hkdf :=
    [((Bytes.ofText "k", STATIC_KEY_SALT),
        Bytes.bigEndian 32 0x0a615373adc2485dfc50f6b0f09907f6fa49849c3d5bec15d66858fba998bed1),
      ((Bytes.ofText "k", MAC_DERIVATION_SALT),
        Bytes.bigEndian 32 0xdc7b05c71b37cb6e1a297e8e3a682933d643cfe47e47f7145352e2eba9aefdf5),
      ((Bytes.ofText "n", STATIC_KEY_SALT),
        Bytes.bigEndian 32 0x33de63f22ad9d01fc31f76ad7dfa48ba565b270c895aab40b3bcf28c159d5436),
      ((Bytes.ofText "n", MAC_DERIVATION_SALT),
        Bytes.bigEndian 32 0xa55d830ec339b428efd06b191911ed615da2c4c97715d534b063178155f085f6)]
  pbkdf2 :=
    [((Bytes.ofText "k", STATIC_KEY_SALT),
        Bytes.bigEndian 32 0x37a8c1734efb030baa505319fb529df1157cfd39948ac7f83a5aae9de92d2c0c),
      ((Bytes.ofText "k", MAC_DERIVATION_SALT),
        Bytes.bigEndian 32 0x5a2bc4adb0e0348956b8a322c3546051881d10af6db115b061f2b44283db3247),
      ((Bytes.ofText "n", STATIC_KEY_SALT),
        Bytes.bigEndian 32 0x4bf6f72ba7c21b880984f5bcea09c86557ba4bd81c356b827b64adea3313daf8),
      ((Bytes.ofText "n", MAC_DERIVATION_SALT),
        Bytes.bigEndian 32 0xb824ec9a4c12dc467c2fd8e2c56afa88e3fa311836888f0e958b7be1711322ba)]
  sha256 :=
    [(Bytes.bigEndian 32 0x0a615373adc2485dfc50f6b0f09907f6fa49849c3d5bec15d66858fba998bed1,
        Bytes.bigEndian 32 0x72ca1e089653ce4ba31ad81268027e6e7d8cc0e7976ea9bca4e2a7f020e9e380),
      (Bytes.bigEndian 32 0x33de63f22ad9d01fc31f76ad7dfa48ba565b270c895aab40b3bcf28c159d5436,
        Bytes.bigEndian 32 0x7ff3291716f9300d41f557044e50253dac9ee6cc6a42abafb0a8129b2c238e3a),
      (Bytes.bigEndian 32 0x37a8c1734efb030baa505319fb529df1157cfd39948ac7f83a5aae9de92d2c0c,
        Bytes.bigEndian 32 0x5072cc02974381e6bfa0781af10797cc9a6a5a45f24d30b9ef4f7a33b85c4924),
      (Bytes.bigEndian 32 0x4bf6f72ba7c21b880984f5bcea09c86557ba4bd81c356b827b64adea3313daf8,
        Bytes.bigEndian 32 0x72ea8ca2908b6a6ee05c307dafdf3ec3a0b2c3747d3a7b761926d64f84212113)]
  hmac := hmac
  gcm := gcm
  deflate := deflate
  inflate := inflate

/-- The material of the key `k`. -/
def shortKey : KeyMaterial where
  derivedKey := Bytes.bigEndian 32 0x0a615373adc2485dfc50f6b0f09907f6fa49849c3d5bec15d66858fba998bed1
  macKey := Bytes.bigEndian 32 0xdc7b05c71b37cb6e1a297e8e3a682933d643cfe47e47f7145352e2eba9aefdf5
  keyId := "72ca1e089653ce4b"
  legacyDerivationSecret := Bytes.ofText "k"
  explicitMacKey := none

/-- The chain of the key `k` alone. -/
def shortEncryption : Encryption where
  primary := shortKey
  previous := []
  sdkVersion := "1"
  maxPlaintextBytes := DEFAULT_MAX_PLAINTEXT_BYTES

end ErrorCore
