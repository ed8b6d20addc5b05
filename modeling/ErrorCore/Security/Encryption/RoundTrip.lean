import ErrorCore.Security.Encryption.Attempts

/-!
# Round trip under key rotation

An envelope that was written with some key of a chain is read back by the whole
chain, whether it was compressed or not, and whether the writer derived its
material the current way or the legacy way.
-/

namespace ErrorCore

variable {rt : CryptoRuntime} {reader : Encryption} {envelope : Envelope} {plaintext : Text}
variable {key writerKey : KeyInput} {options : EncryptionOptions} {macKey : Option KeyInput}

/-! ## Writers -/

/-- An envelope of version 1, as SDKs wrote it that derived their keys with PBKDF2. -/
def buildLegacyPbkdf2Envelope (rt : CryptoRuntime) (material : RuntimeKeyMaterial)
    (working : MaybeCompressResult) (eventId sdkVersion : Text) (nonce : Nonce)
    (producedAt : Text) : Envelope :=
  let aad := buildAadV1 eventId sdkVersion material.keyId
  let (ciphertext, authTag) := rt.gcmEncrypt material.derivedKey nonce.bytes aad working.buf
  { version := .v1
    eventId
    sdkVersion := some sdkVersion
    keyId := material.keyId
    iv := Bytes.toBase64 nonce.bytes
    ciphertext := Bytes.toBase64 ciphertext
    authTag := Bytes.toBase64 authTag
    hmac := Bytes.toBase64 (envelopeMac rt material.macKey nonce.bytes ciphertext authTag aad)
    compressed := working.compressed
    producedAt }

/-- The material that a key is derived to, the current way or the legacy way. -/
def IsMaterialOf (rt : CryptoRuntime) (macKey : Option KeyInput) (key : KeyInput)
    (material : RuntimeKeyMaterial) : Prop :=
  ∃ km, deriveKeys rt key macKey = .ok km ∧
    (material = km.toRuntimeKeyMaterial ∨ getLegacyKeyMaterial rt km = .ok material)

/-- The envelopes that writers with a key make of a plaintext. -/
inductive WrittenWith (rt : CryptoRuntime) (key : KeyInput) (macKey : Option KeyInput)
    (plaintext : Bytes) : Envelope → Prop
  | current {options : EncryptionOptions} {writer : Encryption} {opts : EnvelopeEncryptOptions}
      {nonce : Nonce} {producedAt : Text} {envelope : Envelope} :
      options.macKey = macKey → Encryption.new rt key options = .ok writer →
      writer.encryptToEnvelope rt plaintext opts nonce producedAt = .ok envelope →
        WrittenWith rt key macKey plaintext envelope
  | legacy {km : KeyMaterial} {material : RuntimeKeyMaterial} {working : MaybeCompressResult}
      {eventId sdkVersion : Text} {nonce : Nonce} {producedAt : Text} :
      deriveKeys rt key macKey = .ok km → getLegacyKeyMaterial rt km = .ok material →
      (working = maybeCompress rt plaintext ∨ working = ⟨plaintext, false⟩) →
        WrittenWith rt key macKey plaintext
          (buildLegacyPbkdf2Envelope rt material working eventId sdkVersion nonce producedAt)

/-- What the two kinds of writers have in common. -/
structure Written (rt : CryptoRuntime) (key : KeyInput) (macKey : Option KeyInput)
    (plaintext : Bytes) (envelope : Envelope) (material : RuntimeKeyMaterial)
    (working : MaybeCompressResult) : Prop where
  derived : IsMaterialOf rt macKey key material
  compression : working = maybeCompress rt plaintext ∨ working = ⟨plaintext, false⟩
  sealing : ∀ sdkVersion, SealedWith rt material working.buf envelope sdkVersion
  flag : envelope.compressed = working.compressed
  coherent : envelope.version.assertCoherence = .ok ()

theorem WrittenWith.written {bytes : Bytes} (h : WrittenWith rt key macKey bytes envelope) :
    ∃ material working, Written rt key macKey bytes envelope material working := by
  cases h with
  | current hmac hnew hwrite =>
      obtain ⟨key', hkey', hderived⟩ := Encryption.deriveKeys_of_chain hnew (i := 0) rfl
      obtain rfl := Option.some.inj hkey'
      rw [hmac] at hderived
      obtain ⟨-, hflag, hcoherent⟩ := Encryption.encryptToEnvelope_ok hwrite []
      refine ⟨_, _, ⟨_, hderived, .inl rfl⟩, .inl rfl, ?_, hflag, hcoherent⟩
      intro sdkVersion
      exact (Encryption.encryptToEnvelope_ok hwrite sdkVersion).1
  | legacy hkm hmaterial hworking =>
      refine ⟨_, _, ⟨_, hkm, .inr hmaterial⟩, hworking, ?_, rfl, rfl⟩
      intro sdkVersion
      constructor
      · simp only [buildLegacyPbkdf2Envelope, Envelope.sealedBytes, Bytes.ofBase64_toBase64]
        rfl
      · simp only [buildLegacyPbkdf2Envelope, Envelope.sealedBytes, Bytes.ofBase64_toBase64]
        rfl

/-! ## Readers -/

/-- Material of different keys never authenticates the same envelope. -/
structure SeparateKeys (rt : CryptoRuntime) (macKey : Option KeyInput) (keys : List KeyInput)
    (envelope : Envelope) (sdkVersion : Text) : Prop where
  configured : ∀ key₁ ∈ keys, ∀ key₂ ∈ keys, ∀ material₁ material₂ bytes₁ bytes₂,
    IsMaterialOf rt macKey key₁ material₁ → IsMaterialOf rt macKey key₂ material₂ →
    Authenticates rt material₁ envelope sdkVersion bytes₁ →
    Authenticates rt material₂ envelope sdkVersion bytes₂ → key₁ = key₂
  derived : ∀ key₁ ∈ keys, ∀ key₂ ∈ keys, ∀ material₁ material₂ bytes₁ bytes₂,
    IsMaterialOf rt macKey key₁ material₁ → IsMaterialOf rt macKey key₂ material₂ →
    Authenticates rt material₁ envelope sdkVersion bytes₁ →
    Authenticates rt material₂ envelope sdkVersion bytes₂ →
      material₁.derivedKey = material₂.derivedKey

theorem IsMaterialOf.keyId {material : RuntimeKeyMaterial}
    (h : IsMaterialOf rt macKey key material) :
    material.keyId = computeKeyId rt material.derivedKey := by
  obtain ⟨km, hkm, rfl | hlegacy⟩ := h
  · exact deriveKeys_keyId hkm
  · exact getLegacyKeyMaterial_keyId hlegacy

/-- Inflating gives the plaintext back, when it is within the limit. -/
theorem maybeDecompress_working {bytes : Bytes} {working : MaybeCompressResult} {limit : Nat}
    (hworking : working = maybeCompress rt bytes ∨ working = ⟨bytes, false⟩)
    (hzlib : ZlibInverts rt bytes) (hlimit : bytes.length ≤ limit) :
    maybeDecompress rt working.buf working.compressed limit = .ok bytes := by
  obtain rfl | rfl := hworking
  · rw [maybeCompress]
    split_ifs
    · rfl
    · dsimp only
      split_ifs
      · rfl
      · rw [maybeDecompress, if_pos rfl, hzlib, if_pos hlimit]
  · rfl

section Reading

variable {material : RuntimeKeyMaterial} {working : MaybeCompressResult} {sdkVersion : Text}

theorem Written.authenticates {bytes : Bytes}
    (h : Written rt writerKey macKey bytes envelope material working)
    (hgcm : GcmInverts rt envelope.sealedBytes) (sdkVersion : Text) :
    Authenticates rt material envelope sdkVersion working.buf where
  hmac := (h.sealing sdkVersion).hmac
  authTag := hgcm _ _ _ (h.sealing sdkVersion).encrypted

/-- Whatever material authenticates the envelope reads the plaintext from it. -/
theorem Written.tryDecrypt {other : RuntimeKeyMaterial} {bytes : Bytes} {limit : Nat}
    (h : Written rt writerKey macKey (Bytes.ofText plaintext) envelope material working)
    (hgcm : GcmInverts rt envelope.sealedBytes) (hzlib : ZlibInverts rt (Bytes.ofText plaintext))
    (hlimit : (Bytes.ofText plaintext).length ≤ limit)
    (hother : IsMaterialOf rt macKey key other)
    (hkey : other.derivedKey = material.derivedKey)
    (hauth : Authenticates rt other envelope sdkVersion bytes) :
    tryDecryptWithMaterial rt other envelope sdkVersion limit = .ok (.ok plaintext) := by
  have hkeyId : other.keyId = material.keyId := by
    rw [hother.keyId, h.derived.keyId, hkey]
  have hopen := hauth.authTag
  rw [hkey, hkeyId, (h.authenticates hgcm sdkVersion).authTag] at hopen
  obtain rfl := Option.some.inj hopen
  rw [tryDecryptWithMaterial_of_authenticates hauth, h.flag,
    maybeDecompress_working h.compression hzlib hlimit, Except.map, CryptoRuntime.bufferToText,
    Bytes.toText?_ofText]
  rfl

end Reading

/-- A material of the chain comes from the key that is configured at its position. -/
theorem Encryption.isMaterialOf_of_isMaterialAt {i : Nat} {material : RuntimeKeyMaterial}
    (hnew : Encryption.new rt key options = .ok reader)
    (h : IsMaterialAt rt reader i material) :
    ∃ key', (configuredKeys key options)[i]? = some key' ∧
      IsMaterialOf rt options.macKey key' material := by
  obtain ⟨km, hkm, hmaterial⟩ := h
  obtain ⟨key', hkey', hderived⟩ := Encryption.deriveKeys_of_chain hnew hkm
  exact ⟨key', hkey', km, hderived, hmaterial⟩

theorem Encryption.isMaterialAt_of_isMaterialOf {i : Nat} {material : RuntimeKeyMaterial}
    (hnew : Encryption.new rt key options = .ok reader)
    (hkey : (configuredKeys key options)[i]? = some writerKey)
    (h : IsMaterialOf rt options.macKey writerKey material) :
    IsMaterialAt rt reader i material := by
  obtain ⟨km, hkm, hmaterial⟩ := h
  obtain ⟨-, hnone⟩ | ⟨key', km', hkey', hkm', hderived⟩ :=
    Except.getElem?_mapM (Encryption.new_chain hnew) i
  · exact nomatch hnone.symm.trans hkey
  · obtain rfl := Option.some.inj (hkey'.symm.trans hkey)
    obtain rfl := Except.ok.inj (hderived.symm.trans hkm)
    exact ⟨km', hkm', hmaterial⟩

/-- A material of the reader that authenticates the envelope is derived from the key of the writer,
and reads the plaintext. -/
theorem Written.reads {material other : RuntimeKeyMaterial} {working : MaybeCompressResult}
    {i j : Nat} {bytes : Bytes}
    (hwritten :
      Written rt writerKey options.macKey (Bytes.ofText plaintext) envelope material working)
    (hreader : Encryption.new rt key options = .ok reader)
    (hlimit : (Bytes.ofText plaintext).length ≤ reader.maxPlaintextBytes)
    (hkey : (configuredKeys key options)[i]? = some writerKey)
    (hgcm : GcmInverts rt envelope.sealedBytes) (hzlib : ZlibInverts rt (Bytes.ofText plaintext))
    (hseparate : SeparateKeys rt options.macKey (configuredKeys key options) envelope
      reader.sdkVersion)
    (hother : Encryption.IsMaterialAt rt reader j other)
    (hotherAuth : Authenticates rt other envelope reader.sdkVersion bytes) :
    tryDecryptWithMaterial rt other envelope reader.sdkVersion reader.maxPlaintextBytes =
        .ok (.ok plaintext) ∧
      (configuredKeys key options)[j]? = some writerKey := by
  have hauth := hwritten.authenticates hgcm reader.sdkVersion
  obtain ⟨otherKey, hotherKey, hderived⟩ :=
    Encryption.isMaterialOf_of_isMaterialAt hreader hother
  have hmem := List.mem_of_getElem? hotherKey
  have hwriterMem := List.mem_of_getElem? hkey
  have hsame := hseparate.derived _ hmem _ hwriterMem _ _ _ _ hderived hwritten.derived
    hotherAuth hauth
  obtain rfl := hseparate.configured _ hmem _ hwriterMem _ _ _ _ hderived hwritten.derived
    hotherAuth hauth
  exact ⟨hwritten.tryDecrypt hgcm hzlib hlimit hderived hsame hotherAuth, hotherKey⟩

/-- What some key of the chain wrote is read back under the chain, with a position of that key. -/
theorem roundTrip_under_rotation {i : Nat}
    (hreader : Encryption.new rt key options = .ok reader)
    (hlimit : (Bytes.ofText plaintext).length ≤ reader.maxPlaintextBytes)
    (hkey : (configuredKeys key options)[i]? = some writerKey)
    (hwritten : WrittenWith rt writerKey options.macKey (Bytes.ofText plaintext) envelope)
    (hgcm : GcmInverts rt envelope.sealedBytes) (hzlib : ZlibInverts rt (Bytes.ofText plaintext))
    (hseparate : SeparateKeys rt options.macKey (configuredKeys key options) envelope
      reader.sdkVersion) :
    ∃ decrypted, reader.decryptEnvelope rt envelope = .ok (some decrypted) ∧
      decrypted.plaintext = plaintext ∧
      (configuredKeys key options)[decrypted.keyIndex]? = some writerKey := by
  obtain ⟨material, working, hwritten⟩ := hwritten.written
  have hauth := hwritten.authenticates hgcm reader.sdkVersion
  have hat := Encryption.isMaterialAt_of_isMaterialOf hreader hkey hwritten.derived
  have hruns : ∀ j other, Encryption.IsMaterialAt rt reader j other →
      ∃ result, tryDecryptWithMaterial rt other envelope reader.sdkVersion
        reader.maxPlaintextBytes = .ok result := by
    intro j other hother
    by_cases hopens : ∃ bytes, Authenticates rt other envelope reader.sdkVersion bytes
    · obtain ⟨bytes, hbytes⟩ := hopens
      exact ⟨_, (hwritten.reads hreader hlimit hkey hgcm hzlib hseparate hother hbytes).1⟩
    · obtain ⟨failure, hfailure⟩ := tryDecryptWithMaterial_failed (not_exists.mp hopens)
      exact ⟨_, hfailure⟩
  have hsome := (hwritten.reads hreader hlimit hkey hgcm hzlib hseparate hat hauth).1
  obtain ⟨decrypted, hdecrypted⟩ := Encryption.decryptEnvelope_isFound hwritten.coherent
    (Encryption.legacy_isOk hreader) hruns ⟨i, material, hat, plaintext, hsome⟩
  obtain ⟨other, hother, hattempt⟩ := Encryption.decryptEnvelope_ok hdecrypted
  obtain ⟨bytes, -, hotherAuth, -⟩ := tryDecryptWithMaterial_ok hattempt
  obtain ⟨hread, hposition⟩ :=
    hwritten.reads hreader hlimit hkey hgcm hzlib hseparate hother hotherAuth
  refine ⟨decrypted, hdecrypted, ?_, hposition⟩
  rw [hattempt] at hread
  exact DecryptAttempt.ok.inj (Except.ok.inj hread)

/-! ## A chain of two keys -/

/-- What the key `k` wrote, read under the chain of `n` and `k` by another SDK version. -/
def rotatedCall : GcmCall where
  key := shortKey.derivedKey
  nonce := List.replicate 12 0
  aad := buildAad "e" "1" shortKey.keyId .error none
  plaintext := [0x7b, 0x7d]
  ciphertext := [0x36, 0x27]
  authTag := Bytes.bigEndian 16 0xc9ffcc023d905b72e35a29ae343c22b0
  length_eq := by decide

def rotatedRuntime : CryptoRuntime :=
  RecordedCalls.runtime
    (shortKeyCalls
      [((shortKey.macKey,
          rotatedCall.nonce ++ rotatedCall.ciphertext ++ rotatedCall.authTag ++ rotatedCall.aad),
        Bytes.bigEndian 32 0x5c944bee78add3fbe4da1083d82de22f457110c146533f258353601d384b5450)]
      rotatedCall [([0x7b, 0x7d], Bytes.bigEndian 4 0xabae0500)]
      [(Bytes.bigEndian 4 0xabae0500, [0x7b, 0x7d])])

def rotatedOptions : EncryptionOptions :=
  { previousEncryptionKeys := ["k"], sdkVersion := some "2" }

/-- The material of the key `n`. -/
def nextKey : KeyMaterial where
  derivedKey := Bytes.bigEndian 32 0x33de63f22ad9d01fc31f76ad7dfa48ba565b270c895aab40b3bcf28c159d5436
  macKey := Bytes.bigEndian 32 0xa55d830ec339b428efd06b191911ed615da2c4c97715d534b063178155f085f6
  keyId := "7ff3291716f9300d"
  legacyDerivationSecret := Bytes.ofText "n"
  explicitMacKey := none

def rotatedReader : Encryption where
  primary := nextKey
  previous := [shortKey]
  sdkVersion := "2"
  maxPlaintextBytes := DEFAULT_MAX_PLAINTEXT_BYTES

theorem rotatedReader_new :
    Encryption.new rotatedRuntime (.text "n") rotatedOptions = .ok rotatedReader := by
  rfl

def rotatedEnvelope : Envelope where
  version := .v2 .error none
  eventId := "e"
  sdkVersion := some "1"
  keyId := shortKey.keyId
  iv := Bytes.toBase64 rotatedCall.nonce
  ciphertext := Bytes.toBase64 rotatedCall.ciphertext
  authTag := Bytes.toBase64 rotatedCall.authTag
  hmac := Bytes.toBase64
    (Bytes.bigEndian 32 0x5c944bee78add3fbe4da1083d82de22f457110c146533f258353601d384b5450)
  compressed := false
  producedAt := "0"

/-- The text `\x7b\x7d`. -/
def bracesText : Text := [Char.ofNat 0x7b, Char.ofNat 0x7d]

theorem rotatedEnvelope_written :
    WrittenWith rotatedRuntime (.text "k") none (Bytes.ofText bracesText) rotatedEnvelope := by
  have hwrite : shortEncryption.encryptToEnvelope rotatedRuntime (Bytes.ofText bracesText)
      ⟨"e", .error, none⟩ ⟨List.replicate 12 0, rfl⟩ "0" = .ok rotatedEnvelope := by
    decide +kernel
  exact .current rfl (shortEncryption_new _ _ _ _) hwrite

theorem rotated_key_of_derivedKey {key : KeyInput} {material : RuntimeKeyMaterial}
    (hmem : key ∈ configuredKeys (.text "n") rotatedOptions)
    (h : IsMaterialOf rotatedRuntime none key material)
    (hkey : material.derivedKey = shortKey.derivedKey) : key = .text "k" := by
  obtain rfl | hmem := List.mem_cons.mp hmem
  · obtain ⟨km, hkm, hmaterial⟩ := h
    obtain rfl : nextKey = km := Except.ok.inj hkm
    obtain rfl | hlegacy := hmaterial
    · exact absurd hkey (by decide)
    · obtain rfl := Except.ok.inj hlegacy
      exact absurd hkey (by decide)
  · exact List.mem_singleton.mp hmem

theorem rotated_separateKeys :
    SeparateKeys rotatedRuntime none (configuredKeys (.text "n") rotatedOptions) rotatedEnvelope
      "2" where
  configured := by
    intro key₁ h₁ key₂ h₂ material₁ material₂ bytes₁ bytes₂ hm₁ hm₂ hauth₁ hauth₂
    rw [rotated_key_of_derivedKey h₁ hm₁ (RecordedCalls.gcmDecrypt_eq_some hauth₁.authTag).1,
      rotated_key_of_derivedKey h₂ hm₂ (RecordedCalls.gcmDecrypt_eq_some hauth₂.authTag).1]
  derived := by
    intro key₁ h₁ key₂ h₂ material₁ material₂ bytes₁ bytes₂ hm₁ hm₂ hauth₁ hauth₂
    exact (RecordedCalls.gcmDecrypt_eq_some hauth₁.authTag).1.trans
      (RecordedCalls.gcmDecrypt_eq_some hauth₂.authTag).1.symm

theorem rotatedEnvelope_read :
    ∃ decrypted, rotatedReader.decryptEnvelope rotatedRuntime rotatedEnvelope =
        .ok (some decrypted) ∧
      decrypted.plaintext = bracesText ∧
      (configuredKeys (.text "n") rotatedOptions)[decrypted.keyIndex]? = some (.text "k") :=
  roundTrip_under_rotation (i := 1) rotatedReader_new (by decide) rfl rotatedEnvelope_written
    (RecordedCalls.gcmInverts rfl rfl rfl (by decide)) (fun limit => rfl) rotated_separateKeys

end ErrorCore
