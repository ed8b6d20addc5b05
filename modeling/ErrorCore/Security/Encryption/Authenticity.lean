import ErrorCore.Security.Encryption.Attempts

/-!
# Authenticity of an envelope

The compression flag of an envelope is in neither the additional data nor the
HMAC, and it decides how the authenticated bytes are read. An envelope around
the ciphertext of another one therefore yields the same plaintext exactly when
it has the same flag, or when the bytes read the same either way.
-/

namespace ErrorCore

variable {rt : CryptoRuntime} {encryption reader : Encryption} {envelope forged : Envelope}
variable {plaintext : Bytes} {opts : EnvelopeEncryptOptions} {nonce : Nonce} {producedAt : Text}
variable {decrypted : Decrypted}

/-- The binary fields that `forged` takes over from `envelope`. -/
structure Carries (envelope forged : Envelope) : Prop where
  iv : forged.iv = envelope.iv
  ciphertext : forged.ciphertext = envelope.ciphertext
  authTag : forged.authTag = envelope.authTag

/-- What encryption worked on, read with the flag that it did not set, is the same text. -/
def ReadsAlike (rt : CryptoRuntime) (plaintext : Bytes) (maxPlaintextBytes : Nat) : Prop :=
  ∀ other,
    maybeDecompress rt (maybeCompress rt plaintext).buf (!(maybeCompress rt plaintext).compressed)
        maxPlaintextBytes = .ok other →
      rt.bufferToText other = rt.bufferToText plaintext

/-- Read with the flag that encryption set, it is the plaintext. -/
theorem maybeDecompress_maybeCompress (hzlib : ZlibInverts rt plaintext) {limit : Nat}
    {bytes : Bytes}
    (h : maybeDecompress rt (maybeCompress rt plaintext).buf (maybeCompress rt plaintext).compressed
      limit = .ok bytes) : bytes = plaintext := by
  rw [maybeCompress] at h
  split at h
  · exact (Except.ok.inj h).symm
  · dsimp only at h
    split at h
    · exact (Except.ok.inj h).symm
    · rw [maybeDecompress, if_pos rfl, hzlib] at h
      split_ifs at h
      exact (Except.ok.inj h).symm

/-- The text comes from the bytes that were encrypted, read with the flag of the forged envelope. -/
theorem plaintext_of_carries {sdkVersion : Text}
    (hideal : SealsOnly rt envelope.sealedBytes encryption.primary.derivedKey
      (buildEnvelopeAad envelope sdkVersion encryption.primary.keyId)
      (maybeCompress rt plaintext).buf)
    (hcarries : Carries envelope forged)
    (haccepted : reader.decryptEnvelope rt forged = .ok (some decrypted)) :
    ∃ bytes, maybeDecompress rt (maybeCompress rt plaintext).buf forged.compressed
        reader.maxPlaintextBytes = .ok bytes ∧ decrypted.plaintext = rt.bufferToText bytes := by
  obtain ⟨material, -, hattempt⟩ := Encryption.decryptEnvelope_ok haccepted
  obtain ⟨sealed, bytes, hauth, hread, htext⟩ := tryDecryptWithMaterial_ok hattempt
  have hopen := hauth.authTag
  simp only [Envelope.sealedBytes, hcarries.iv, hcarries.ciphertext, hcarries.authTag] at hopen
  obtain ⟨-, -, rfl⟩ := hideal _ _ _ hopen
  exact ⟨bytes, hread, htext⟩

/-- An accepted envelope around the ciphertext of another one yields what was encrypted exactly when
the flag was kept or makes no difference. -/
theorem authentic_iff
    (hproduced : encryption.encryptToEnvelope rt plaintext opts nonce producedAt = .ok envelope)
    (hideal : SealsOnly rt envelope.sealedBytes encryption.primary.derivedKey
      (buildEnvelopeAad envelope encryption.sdkVersion encryption.primary.keyId)
      (maybeCompress rt plaintext).buf)
    (hzlib : ZlibInverts rt plaintext) (hcarries : Carries envelope forged)
    (haccepted : reader.decryptEnvelope rt forged = .ok (some decrypted)) :
    decrypted.plaintext = rt.bufferToText plaintext ↔
      forged.compressed = envelope.compressed ∨
        ReadsAlike rt plaintext reader.maxPlaintextBytes := by
  obtain ⟨-, hcompressed, -⟩ :=
    Encryption.encryptToEnvelope_ok hproduced encryption.sdkVersion
  obtain ⟨bytes, hread, htext⟩ := plaintext_of_carries hideal hcarries haccepted
  rw [hcompressed]
  by_cases hflag : forged.compressed = (maybeCompress rt plaintext).compressed
  · rw [hflag] at hread
    obtain rfl := maybeDecompress_maybeCompress hzlib hread
    constructor
    · intro _
      exact .inl hflag
    · intro _
      exact htext
  · have hother : forged.compressed = !(maybeCompress rt plaintext).compressed :=
      Bool.eq_not_of_ne hflag
    rw [hother] at hread
    constructor
    · intro heq
      refine .inr ?_
      intro other hother
      obtain rfl := Except.ok.inj (hother.symm.trans hread)
      exact htext.symm.trans heq
    · rintro (hkept | halike)
      · exact absurd hkept hflag
      · exact htext.trans (halike bytes hread)

/-! ## Three bytes that are text and a deflated stream -/

/-- The text `K`, U+0004, U+0000, which inflates to `a`. -/
def streamText : Bytes := [0x4b, 0x04, 0x00]

def streamCall : GcmCall where
  key := shortKey.derivedKey
  nonce := List.replicate 12 0
  aad := buildAad "e" "1" shortKey.keyId .error none
  plaintext := streamText
  ciphertext := Bytes.bigEndian 3 0x065eaa
  authTag := Bytes.bigEndian 16 0x14910a44b712affebdb1681e6e787d2a
  length_eq := by decide

def streamRuntime : CryptoRuntime :=
  RecordedCalls.runtime
    (shortKeyCalls
      [((shortKey.macKey,
          streamCall.nonce ++ streamCall.ciphertext ++ streamCall.authTag ++ streamCall.aad),
        Bytes.bigEndian 32 0xed321059210328640596227c370aeda762683197ad43c851fb926805e8b6a874)]
      streamCall [(streamText, Bytes.bigEndian 5 0xf366610000)]
      [(streamText, Bytes.ofText "a"), (Bytes.bigEndian 5 0xf366610000, streamText)])

def zeroNonce : Nonce := ⟨List.replicate 12 (UInt8.ofNat 0), rfl⟩

/-- The envelope around the three bytes, with a flag, a key id and a date of its own. -/
def streamEnvelope (compressed : Bool) (keyId producedAt : Text) : Envelope where
  version := .v2 .error none
  eventId := "e"
  sdkVersion := some "1"
  keyId := keyId
  iv := Bytes.toBase64 streamCall.nonce
  ciphertext := Bytes.toBase64 streamCall.ciphertext
  authTag := Bytes.toBase64 streamCall.authTag
  hmac := Bytes.toBase64
    (Bytes.bigEndian 32 0xed321059210328640596227c370aeda762683197ad43c851fb926805e8b6a874)
  compressed := compressed
  producedAt := producedAt

theorem streamEnvelope_produced :
    shortEncryption.encryptToEnvelope streamRuntime streamText ⟨"e", .error, none⟩ zeroNonce "0" =
      .ok (streamEnvelope false shortKey.keyId "0") := by
  decide +kernel

theorem streamEnvelope_accepted :
    shortEncryption.decryptEnvelope streamRuntime (streamEnvelope false "other" "1") =
        .ok (some ⟨[Char.ofNat 0x4b, Char.ofNat 4, Char.ofNat 0], 0⟩) ∧
      shortEncryption.decryptEnvelope streamRuntime (streamEnvelope true shortKey.keyId "0") =
        .ok (some ⟨"a", 0⟩) := by
  decide +kernel

theorem streamEnvelope_carries (compressed : Bool) (keyId producedAt : Text) :
    Carries (streamEnvelope false shortKey.keyId "0") (streamEnvelope compressed keyId producedAt) :=
  ⟨rfl, rfl, rfl⟩

theorem streamRuntime_sealsOnly :
    SealsOnly streamRuntime (streamEnvelope false shortKey.keyId "0").sealedBytes
      shortKey.derivedKey
      (buildEnvelopeAad (streamEnvelope false shortKey.keyId "0") "1" shortKey.keyId)
      (maybeCompress streamRuntime streamText).buf := by
  intro key' aad' bytes h
  exact RecordedCalls.gcmDecrypt_eq_some h

theorem streamRuntime_zlibInverts : ZlibInverts streamRuntime streamText := by
  intro limit
  rfl

theorem streamEnvelope_authentic :
    (⟨[Char.ofNat 0x4b, Char.ofNat 4, Char.ofNat 0], 0⟩ : Decrypted).plaintext =
        streamRuntime.bufferToText streamText ↔
      (streamEnvelope false "other" "1").compressed =
          (streamEnvelope false shortKey.keyId "0").compressed ∨
        ReadsAlike streamRuntime streamText DEFAULT_MAX_PLAINTEXT_BYTES :=
  authentic_iff streamEnvelope_produced streamRuntime_sealsOnly streamRuntime_zlibInverts
    (streamEnvelope_carries false "other" "1") streamEnvelope_accepted.1

/-- With the flag set, the envelope around `K`, U+0004, U+0000 is accepted and yields `a`. -/
theorem streamEnvelope_not_authentic :
    ¬ ∀ (rt : CryptoRuntime) (encryption reader : Encryption) (envelope forged : Envelope)
        (plaintext : Bytes) (opts : EnvelopeEncryptOptions) (nonce : Nonce) (producedAt : Text)
        (decrypted : Decrypted),
      encryption.encryptToEnvelope rt plaintext opts nonce producedAt = .ok envelope →
      SealsOnly rt envelope.sealedBytes encryption.primary.derivedKey
        (buildEnvelopeAad envelope encryption.sdkVersion encryption.primary.keyId)
        (maybeCompress rt plaintext).buf →
      ZlibInverts rt plaintext → Carries envelope forged →
      reader.chain = encryption.chain → reader.decryptEnvelope rt forged = .ok (some decrypted) →
        decrypted.plaintext = rt.bufferToText plaintext := by
  intro claim
  have hsame := claim _ _ _ _ _ _ _ _ _ _ streamEnvelope_produced streamRuntime_sealsOnly
    streamRuntime_zlibInverts (streamEnvelope_carries true shortKey.keyId "0") rfl
    streamEnvelope_accepted.2
  exact absurd hsame (by decide +kernel)

end ErrorCore
