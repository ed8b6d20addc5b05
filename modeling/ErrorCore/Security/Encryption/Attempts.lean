import ErrorCore.Foundation.Except
import ErrorCore.Security.Encryption

/-!
# Attempts at decryption

What a decryption that succeeded did: some material of the chain, derived either
way, verified the HMAC and the tag, and the plaintext is what inflating gave.
Conversely the first key that authenticates decides the result.
-/

namespace ErrorCore

variable {rt : CryptoRuntime}

/-! ## The loop over the chain -/

section Loop

variable {attempt : Nat → Except Text DecryptAttempt} {positions : List Nat}
variable {firstFailure : Option DecryptFailure}

theorem firstSuccess_found {decrypted : Decrypted}
    (h : firstSuccess attempt firstFailure positions = .ok (.inl decrypted)) :
    decrypted.keyIndex ∈ positions ∧
      attempt decrypted.keyIndex = .ok (.ok decrypted.plaintext) := by
  induction positions generalizing firstFailure with
  | nil => exact nomatch h
  | cons i rest ih =>
      rw [firstSuccess] at h
      split at h
      · exact nomatch h
      · next plaintext hattempt =>
          obtain rfl := Sum.inl.inj (Except.ok.inj h)
          exact ⟨List.mem_cons_self, hattempt⟩
      · obtain ⟨hmem, hattempt⟩ := ih h
        exact ⟨List.mem_cons_of_mem i hmem, hattempt⟩

/-- When no attempt throws and one succeeds, the loop ends with one that does. -/
theorem firstSuccess_isFound
    (hruns : ∀ i ∈ positions, ∃ result, attempt i = .ok result)
    (hsome : ∃ i ∈ positions, ∃ plaintext, attempt i = .ok (.ok plaintext)) :
    ∃ decrypted, firstSuccess attempt firstFailure positions = .ok (.inl decrypted) := by
  induction positions generalizing firstFailure with
  | nil =>
      obtain ⟨i, hi, -⟩ := hsome
      exact nomatch hi
  | cons i rest ih =>
      obtain ⟨result, hresult⟩ := hruns i List.mem_cons_self
      rw [firstSuccess, hresult]
      cases result with
      | ok plaintext => exact ⟨_, rfl⟩
      | failed failure =>
          refine ih (fun j hj => hruns j (List.mem_cons_of_mem i hj)) ?_
          obtain ⟨j, hj, plaintext, hplaintext⟩ := hsome
          obtain rfl | hj := List.mem_cons.mp hj
          · rw [hresult] at hplaintext
            exact nomatch hplaintext
          · exact ⟨j, hj, plaintext, hplaintext⟩

theorem firstSuccess_runs (hruns : ∀ i ∈ positions, ∃ result, attempt i = .ok result) :
    ∃ first, firstSuccess attempt firstFailure positions = .ok first := by
  induction positions generalizing firstFailure with
  | nil => exact ⟨_, rfl⟩
  | cons i rest ih =>
      obtain ⟨result, hresult⟩ := hruns i List.mem_cons_self
      rw [firstSuccess, hresult]
      cases result with
      | ok plaintext => exact ⟨_, rfl⟩
      | failed failure => exact ih fun j hj => hruns j (List.mem_cons_of_mem i hj)

end Loop

/-! ## One attempt -/

/-- The material verifies the HMAC and the tag of the envelope, and yields the bytes. -/
structure Authenticates (rt : CryptoRuntime) (material : RuntimeKeyMaterial) (envelope : Envelope)
    (sdkVersion : Text) (bytes : Bytes) : Prop where
  hmac : envelopeMac rt material.macKey envelope.sealedBytes.iv envelope.sealedBytes.ciphertext
      envelope.sealedBytes.authTag (buildEnvelopeAad envelope sdkVersion material.keyId) =
    envelope.sealedBytes.expectedHmac
  authTag : rt.gcmDecrypt material.derivedKey envelope.sealedBytes.iv
      (buildEnvelopeAad envelope sdkVersion material.keyId) envelope.sealedBytes.ciphertext
      envelope.sealedBytes.authTag = some bytes

/-- What a writer with the material did to make the envelope. -/
structure SealedWith (rt : CryptoRuntime) (material : RuntimeKeyMaterial) (bytes : Bytes)
    (envelope : Envelope) (sdkVersion : Text) : Prop where
  encrypted : rt.gcmEncrypt material.derivedKey envelope.sealedBytes.iv
      (buildEnvelopeAad envelope sdkVersion material.keyId) bytes =
    (envelope.sealedBytes.ciphertext, envelope.sealedBytes.authTag)
  hmac : envelopeMac rt material.macKey envelope.sealedBytes.iv envelope.sealedBytes.ciphertext
      envelope.sealedBytes.authTag (buildEnvelopeAad envelope sdkVersion material.keyId) =
    envelope.sealedBytes.expectedHmac

/-- Decryption undoes encryption, as far as one message is concerned. -/
def GcmInverts (rt : CryptoRuntime) (data : SealedBytes) : Prop :=
  ∀ key aad bytes, rt.gcmEncrypt key data.iv aad bytes = (data.ciphertext, data.authTag) →
    rt.gcmDecrypt key data.iv aad data.ciphertext data.authTag = some bytes

/-- An ideal cipher on one message: no other key and no other additional data open it, and what
opens it yields the plaintext. -/
def SealsOnly (rt : CryptoRuntime) (data : SealedBytes) (key aad plaintext : Bytes) : Prop :=
  ∀ key' aad' bytes,
    rt.gcmDecrypt key' data.iv aad' data.ciphertext data.authTag = some bytes →
      key' = key ∧ aad' = aad ∧ bytes = plaintext

/-- Inflating undoes deflating the bytes, unless they are over the limit. -/
def ZlibInverts (rt : CryptoRuntime) (bytes : Bytes) : Prop :=
  ∀ limit, rt.inflateRawSync (rt.deflateRawSync bytes) limit =
    if bytes.length ≤ limit then .ok bytes else .error .bufferTooLarge

/-- The one recorded message opens with its own key and additional data only. -/
theorem RecordedCalls.gcmDecrypt_eq_some {calls : RecordedCalls}
    {key nonce aad ciphertext authTag bytes : Bytes}
    (h : calls.runtime.gcmDecrypt key nonce aad ciphertext authTag = some bytes) :
    key = calls.gcm.key ∧ aad = calls.gcm.aad ∧ bytes = calls.gcm.plaintext := by
  dsimp only [RecordedCalls.runtime] at h
  split at h
  · next hcall => exact ⟨hcall.1, hcall.2.2.1, (Option.some.inj h).symm⟩
  · exact nomatch h

theorem RecordedCalls.gcmInverts {calls : RecordedCalls} {data : SealedBytes}
    (hiv : data.iv = calls.gcm.nonce) (hciphertext : data.ciphertext = calls.gcm.ciphertext)
    (hauthTag : data.authTag = calls.gcm.authTag)
    (hzero : calls.gcm.authTag ≠ List.replicate 16 0) : GcmInverts calls.runtime data := by
  intro key aad bytes h
  dsimp only [RecordedCalls.runtime] at h ⊢
  split at h
  · next hcall =>
      rw [if_pos ⟨hcall.1, hiv, hcall.2.2.1, hciphertext, hauthTag⟩, hcall.2.2.2]
  · obtain ⟨-, htag⟩ := Prod.mk.inj h
    exact absurd (hauthTag.symm.trans htag.symm) hzero

section Attempt

variable {material : RuntimeKeyMaterial} {envelope : Envelope} {sdkVersion : Text}
variable {maxPlaintextBytes : Nat}

theorem tryDecryptWithMaterial_of_authenticates {bytes : Bytes}
    (h : Authenticates rt material envelope sdkVersion bytes) :
    tryDecryptWithMaterial rt material envelope sdkVersion maxPlaintextBytes =
      (maybeDecompress rt bytes envelope.compressed maxPlaintextBytes).map fun plaintext =>
        .ok (rt.bufferToText plaintext) := by
  rw [tryDecryptWithMaterial, h.hmac, h.authTag]
  simp only [ne_eq, not_true_eq_false, if_false]

theorem tryDecryptWithMaterial_failed
    (h : ∀ bytes, ¬ Authenticates rt material envelope sdkVersion bytes) :
    ∃ failure, tryDecryptWithMaterial rt material envelope sdkVersion maxPlaintextBytes =
      .ok (.failed failure) := by
  rw [tryDecryptWithMaterial]
  split
  · exact ⟨.hmac, rfl⟩
  · next hhmac =>
      split
      · exact ⟨.authTag, rfl⟩
      · next bytes hbytes => exact absurd ⟨not_not.mp hhmac, hbytes⟩ (h bytes)

theorem tryDecryptWithMaterial_ok {text : Text}
    (h : tryDecryptWithMaterial rt material envelope sdkVersion maxPlaintextBytes =
      .ok (.ok text)) :
    ∃ bytes plaintext, Authenticates rt material envelope sdkVersion bytes ∧
      maybeDecompress rt bytes envelope.compressed maxPlaintextBytes = .ok plaintext ∧
      text = rt.bufferToText plaintext := by
  by_cases hauth : ∃ bytes, Authenticates rt material envelope sdkVersion bytes
  · obtain ⟨bytes, hbytes⟩ := hauth
    rw [tryDecryptWithMaterial_of_authenticates hbytes, Except.map_eq_ok] at h
    obtain ⟨plaintext, hplaintext, htext⟩ := h
    exact ⟨bytes, plaintext, hbytes, hplaintext, (DecryptAttempt.ok.inj htext).symm⟩
  · obtain ⟨failure, hfailure⟩ := tryDecryptWithMaterial_failed (not_exists.mp hauth)
    rw [hfailure] at h
    exact nomatch h

end Attempt

/-! ## Decrypting an envelope -/

namespace Encryption

variable {encryption : Encryption} {envelope : Envelope} {decrypted : Decrypted}

/-- The envelope is sealed with the primary material around what compressing left. -/
theorem encryptToEnvelope_ok {plaintext : Bytes} {opts : EnvelopeEncryptOptions} {nonce : Nonce}
    {producedAt : Text}
    (h : encryption.encryptToEnvelope rt plaintext opts nonce producedAt = .ok envelope)
    (sdkVersion : Text) :
    SealedWith rt encryption.primary.toRuntimeKeyMaterial (maybeCompress rt plaintext).buf envelope
        sdkVersion ∧
      envelope.compressed = (maybeCompress rt plaintext).compressed ∧
      envelope.version.assertCoherence = .ok () := by
  rw [encryptToEnvelope] at h
  obtain ⟨⟨⟩, hcoherent, h⟩ := Except.bind_eq_ok.mp h
  obtain rfl := Except.pure_eq_ok.mp h
  refine ⟨?_, rfl, hcoherent⟩
  constructor
  · simp only [Envelope.sealedBytes, Bytes.ofBase64_toBase64]
    rfl
  · simp only [Envelope.sealedBytes, Bytes.ofBase64_toBase64]
    rfl

/-- The materials at the position of a key: its own and the legacy one. -/
def IsMaterialAt (rt : CryptoRuntime) (encryption : Encryption) (i : Nat)
    (material : RuntimeKeyMaterial) : Prop :=
  ∃ km, encryption.chain[i]? = some km ∧
    (material = km.toRuntimeKeyMaterial ∨ getLegacyKeyMaterial rt km = .ok material)

theorem mem_keyOrder {materials : List RuntimeKeyMaterial} {i : Nat} :
    i ∈ keyOrder rt envelope materials ↔ i < materials.length := by
  rw [keyOrder, (rt.sortFirst_perm _ _).mem_iff, List.mem_range]

theorem attempt_ok {materials : List RuntimeKeyMaterial} {i : Nat} {text : Text}
    (h : encryption.attempt rt envelope materials i = .ok (.ok text)) :
    ∃ material, materials[i]? = some material ∧
      tryDecryptWithMaterial rt material envelope encryption.sdkVersion
        encryption.maxPlaintextBytes = .ok (.ok text) := by
  rw [attempt] at h
  split at h
  · exact nomatch h
  · next material hmaterial => exact ⟨material, hmaterial, h⟩

section Materials

variable {materials : List RuntimeKeyMaterial} {i : Nat} {material : RuntimeKeyMaterial}

theorem attempt_of_getElem? (h : materials[i]? = some material) :
    encryption.attempt rt envelope materials i =
      tryDecryptWithMaterial rt material envelope encryption.sdkVersion
        encryption.maxPlaintextBytes := by
  rw [attempt, h]

theorem attempt_runs
    (hruns : ∀ (i : Nat) material, materials[i]? = some material →
      ∃ result, tryDecryptWithMaterial rt material envelope encryption.sdkVersion
        encryption.maxPlaintextBytes = .ok result) :
    ∀ i ∈ keyOrder rt envelope materials,
      ∃ result, encryption.attempt rt envelope materials i = .ok result := by
  intro i hi
  have hmaterial := List.getElem?_eq_getElem (mem_keyOrder.mp hi)
  rw [attempt_of_getElem? hmaterial]
  exact hruns i _ hmaterial

theorem attempt_found {plaintext : Text} (h : materials[i]? = some material)
    (hattempt : tryDecryptWithMaterial rt material envelope encryption.sdkVersion
      encryption.maxPlaintextBytes = .ok (.ok plaintext)) :
    ∃ i ∈ keyOrder rt envelope materials,
      ∃ plaintext, encryption.attempt rt envelope materials i = .ok (.ok plaintext) := by
  obtain ⟨hlt, -⟩ := List.getElem?_eq_some_iff.mp h
  exact ⟨i, mem_keyOrder.mpr hlt, plaintext, (attempt_of_getElem? h).trans hattempt⟩

end Materials

theorem isMaterialAt_of_current {i : Nat} {material : RuntimeKeyMaterial}
    (h : (encryption.chain.map (·.toRuntimeKeyMaterial))[i]? = some material) :
    IsMaterialAt rt encryption i material := by
  rw [List.getElem?_map, Option.map_eq_some_iff] at h
  obtain ⟨km, hkm, rfl⟩ := h
  exact ⟨km, hkm, .inl rfl⟩

theorem isMaterialAt_of_legacy {legacy : List RuntimeKeyMaterial} {i : Nat}
    {material : RuntimeKeyMaterial}
    (hlegacy : encryption.chain.mapM (getLegacyKeyMaterial rt) = .ok legacy)
    (h : legacy[i]? = some material) : IsMaterialAt rt encryption i material := by
  obtain ⟨hnone, -⟩ | ⟨km, material', hkm, hmaterial', hderived⟩ :=
    Except.getElem?_mapM hlegacy i
  · exact nomatch hnone.symm.trans h
  · obtain rfl := Option.some.inj (hmaterial'.symm.trans h)
    exact ⟨km, hkm, .inr hderived⟩

/-- A material of the chain is tried in one loop or the other. -/
theorem getElem?_of_isMaterialAt {legacy : List RuntimeKeyMaterial} {i : Nat}
    {material : RuntimeKeyMaterial}
    (hlegacy : encryption.chain.mapM (getLegacyKeyMaterial rt) = .ok legacy)
    (h : IsMaterialAt rt encryption i material) :
    (encryption.chain.map (·.toRuntimeKeyMaterial))[i]? = some material ∨
      legacy[i]? = some material := by
  obtain ⟨km, hkm, rfl | hderived⟩ := h
  · exact .inl (by rw [List.getElem?_map, hkm]; rfl)
  · obtain ⟨-, hnone⟩ | ⟨km', material', hkm', hmaterial', hderived'⟩ :=
      Except.getElem?_mapM hlegacy i
    · exact nomatch hnone.symm.trans hkm
    · obtain rfl := Option.some.inj (hkm'.symm.trans hkm)
      obtain rfl := Except.ok.inj (hderived'.symm.trans hderived)
      exact .inr hmaterial'

/-- A success comes from the material of some position of the chain. -/
theorem decryptEnvelope_ok (h : encryption.decryptEnvelope rt envelope = .ok (some decrypted)) :
    ∃ material, IsMaterialAt rt encryption decrypted.keyIndex material ∧
      tryDecryptWithMaterial rt material envelope encryption.sdkVersion
        encryption.maxPlaintextBytes = .ok (.ok decrypted.plaintext) := by
  rw [decryptEnvelope] at h
  obtain ⟨-, -, h⟩ := Except.bind_eq_ok.mp h
  obtain ⟨first, hfirst, h⟩ := Except.bind_eq_ok.mp h
  cases first with
  | inl found =>
      obtain rfl := Option.some.inj (Except.pure_eq_ok.mp h)
      obtain ⟨material, hmaterial, hattempt⟩ := attempt_ok (firstSuccess_found hfirst).2
      exact ⟨material, isMaterialAt_of_current hmaterial, hattempt⟩
  | inr failure =>
      obtain ⟨legacy, hlegacy, h⟩ := Except.bind_eq_ok.mp h
      obtain ⟨second, hsecond, h⟩ := Except.bind_eq_ok.mp h
      cases second with
      | inl found =>
          obtain rfl := Option.some.inj (Except.pure_eq_ok.mp h)
          obtain ⟨material, hmaterial, hattempt⟩ := attempt_ok (firstSuccess_found hsecond).2
          exact ⟨material, isMaterialAt_of_legacy hlegacy hmaterial, hattempt⟩
      | inr failure =>
          cases failure with
          | none => exact nomatch h
          | some failure => cases failure <;> exact nomatch h

/-- When no material makes the decryption throw and some material succeeds, there is a result. -/
theorem decryptEnvelope_isFound (hcoherent : envelope.version.assertCoherence = .ok ())
    (hlegacy : ∃ legacy, encryption.chain.mapM (getLegacyKeyMaterial rt) = .ok legacy)
    (hruns : ∀ i material, IsMaterialAt rt encryption i material →
      ∃ result, tryDecryptWithMaterial rt material envelope encryption.sdkVersion
        encryption.maxPlaintextBytes = .ok result)
    (hsome : ∃ i material, IsMaterialAt rt encryption i material ∧
      ∃ plaintext, tryDecryptWithMaterial rt material envelope encryption.sdkVersion
        encryption.maxPlaintextBytes = .ok (.ok plaintext)) :
    ∃ decrypted, encryption.decryptEnvelope rt envelope = .ok (some decrypted) := by
  obtain ⟨legacy, hlegacy⟩ := hlegacy
  obtain ⟨i, material, hmaterial, plaintext, hattempt⟩ := hsome
  have hrunsCurrent := attempt_runs fun i material h =>
    hruns i material (isMaterialAt_of_current h)
  have hrunsLegacy := attempt_runs fun i material h =>
    hruns i material (isMaterialAt_of_legacy hlegacy h)
  rw [decryptEnvelope, hcoherent]
  simp only [Except.ok_bind]
  obtain ⟨first, hfirst⟩ := firstSuccess_runs hrunsCurrent
  rw [hfirst]
  cases first with
  | inl decrypted => exact ⟨decrypted, rfl⟩
  | inr failure =>
      obtain hcurrent | hold := getElem?_of_isMaterialAt hlegacy hmaterial
      · obtain ⟨decrypted, hfound⟩ := firstSuccess_isFound hrunsCurrent
          (attempt_found hcurrent hattempt)
        exact nomatch hfirst.symm.trans hfound
      · have hfound : ∃ decrypted, firstSuccess (encryption.attempt rt envelope legacy) failure
            (keyOrder rt envelope legacy) = .ok (.inl decrypted) :=
          firstSuccess_isFound hrunsLegacy (attempt_found hold hattempt)
        obtain ⟨decrypted, hfound⟩ := hfound
        refine ⟨decrypted, ?_⟩
        simp only [Except.ok_bind, hlegacy, hfound]
        rfl

end Encryption

/-! ## The chain of the constructor -/

/-- The keys in the order of the chain. -/
def configuredKeys (key : KeyInput) (options : EncryptionOptions) : List KeyInput :=
  key :: options.previousEncryptionKeys.map .text

section New

variable {encryption : Encryption} {key : KeyInput} {options : EncryptionOptions}

theorem Encryption.new_chain (h : Encryption.new rt key options = .ok encryption) :
    (configuredKeys key options).mapM (fun key => deriveKeys rt key options.macKey) =
      .ok encryption.chain := by
  rw [Encryption.new] at h
  obtain ⟨primary, hprimary, h⟩ := Except.bind_eq_ok.mp h
  obtain ⟨previous, hprevious, h⟩ := Except.bind_eq_ok.mp h
  obtain rfl := Except.pure_eq_ok.mp h
  rw [configuredKeys, List.mapM_cons, hprimary, List.mapM_map]
  simp only [Except.ok_bind]
  have hprevious : options.previousEncryptionKeys.mapM
      ((fun key => deriveKeys rt key options.macKey) ∘ KeyInput.text) = .ok previous := hprevious
  rw [hprevious]
  rfl

/-- Each position of the chain holds what was derived from the key configured there. -/
theorem Encryption.deriveKeys_of_chain (h : Encryption.new rt key options = .ok encryption)
    {i : Nat} {km : KeyMaterial} (hkm : encryption.chain[i]? = some km) :
    ∃ key', (configuredKeys key options)[i]? = some key' ∧
      deriveKeys rt key' options.macKey = .ok km := by
  obtain ⟨hnone, -⟩ | ⟨key', km', hkey', hkm', hderived⟩ :=
    Except.getElem?_mapM (Encryption.new_chain h) i
  · exact nomatch hnone.symm.trans hkm
  · obtain rfl := Option.some.inj (hkm'.symm.trans hkm)
    exact ⟨key', hkey', hderived⟩

theorem deriveKeys_keyId {macKey : Option KeyInput} {km : KeyMaterial}
    (h : deriveKeys rt key macKey = .ok km) : km.keyId = computeKeyId rt km.derivedKey := by
  rw [deriveKeys] at h
  obtain ⟨_, -, h⟩ := Except.bind_eq_ok.mp h
  obtain ⟨_, -, h⟩ := Except.bind_eq_ok.mp h
  obtain ⟨_, -, h⟩ := Except.bind_eq_ok.mp h
  obtain rfl := Except.pure_eq_ok.mp h
  rfl

theorem getLegacyKeyMaterial_keyId {km : KeyMaterial} {material : RuntimeKeyMaterial}
    (h : getLegacyKeyMaterial rt km = .ok material) :
    material.keyId = computeKeyId rt material.derivedKey := by
  rw [getLegacyKeyMaterial] at h
  obtain ⟨_, -, h⟩ := Except.bind_eq_ok.mp h
  obtain rfl := Except.pure_eq_ok.mp h
  rfl

/-- The key id of every material is computed from its key. -/
theorem Encryption.keyId_of_isMaterialAt {i : Nat} {material : RuntimeKeyMaterial}
    (hnew : Encryption.new rt key options = .ok encryption)
    (h : IsMaterialAt rt encryption i material) :
    material.keyId = computeKeyId rt material.derivedKey := by
  obtain ⟨km, hkm, rfl | hlegacy⟩ := h
  · obtain ⟨key', -, hderived⟩ := Encryption.deriveKeys_of_chain hnew hkm
    exact deriveKeys_keyId hderived
  · exact getLegacyKeyMaterial_keyId hlegacy

/-- A MAC key that is long enough for one derivation is long enough for the other. -/
theorem getLegacyKeyMaterial_isOk {macKey : Option KeyInput} {km : KeyMaterial}
    (h : deriveKeys rt key macKey = .ok km) :
    ∃ material, getLegacyKeyMaterial rt km = .ok material := by
  rw [deriveKeys] at h
  obtain ⟨_, -, h⟩ := Except.bind_eq_ok.mp h
  obtain ⟨_, -, h⟩ := Except.bind_eq_ok.mp h
  obtain ⟨derived, hderived, h⟩ := Except.bind_eq_ok.mp h
  obtain rfl := Except.pure_eq_ok.mp h
  rw [getLegacyKeyMaterial]
  cases macKey with
  | none => exact ⟨_, rfl⟩
  | some explicit =>
      rw [deriveMacKey] at hderived
      dsimp only [deriveMacKey]
      split at hderived
      · exact nomatch hderived
      · next hlong => exact ⟨_, by rw [if_neg hlong]; rfl⟩

theorem Encryption.legacy_isOk (h : Encryption.new rt key options = .ok encryption) :
    ∃ legacy, encryption.chain.mapM (getLegacyKeyMaterial rt) = .ok legacy := by
  refine Except.mapM_isOk fun km hkm => ?_
  obtain ⟨i, hi⟩ := List.getElem?_of_mem hkm
  obtain ⟨key', -, hderived⟩ := Encryption.deriveKeys_of_chain h hi
  exact getLegacyKeyMaterial_isOk hderived

end New

theorem shortEncryption_new (hmac : List ((Bytes × Bytes) × Bytes)) (gcm : GcmCall)
    (deflate inflate : List (Bytes × Bytes)) :
    Encryption.new (shortKeyCalls hmac gcm deflate inflate).runtime (.text "k")
      { sdkVersion := some "1" } = .ok shortEncryption := by
  rfl

end ErrorCore
