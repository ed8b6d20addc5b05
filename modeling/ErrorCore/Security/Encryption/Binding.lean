import ErrorCore.Ingest
import ErrorCore.Security.Encryption.Attempts

/-!
# Metadata binding

The additional data of an envelope joins its metadata with `|`, which may also
occur inside the fields. Two envelopes with the same additional data therefore
agree on their metadata exactly when they have the separators in the same
fields. The blob id may hold any, because it comes last.
-/

namespace ErrorCore

open Json (Value)

variable {e₁ e₂ : Envelope} {keyId₁ keyId₂ : Text}

/-- The metadata that the additional data is meant to bind. -/
structure SameMetadata (e₁ e₂ : Envelope) : Prop where
  version : e₁.version = e₂.version
  eventId : e₁.eventId = e₂.eventId
  sdkVersion : e₁.sdkVersion = e₂.sdkVersion

def separators (text : Text) : Nat := text.count '|'

/-- The SDK versions have equally many separators, and so have the event ids. -/
structure SeparatorsAlike (e₁ e₂ : Envelope) : Prop where
  sdkVersion : separators (e₁.sdkVersion.getD []) = separators (e₂.sdkVersion.getD [])
  eventId : separators e₁.eventId = separators e₂.eventId

/-! ## Envelopes that the parser accepts -/

/-- What the parser guarantees of the fields in the additional data. -/
structure WellFormed (envelope : Envelope) : Prop where
  sdkVersion : ∃ version, envelope.sdkVersion = some version
  version : envelope.version = .v1 ∨ envelope.version = .v2 .error none ∨
    ∃ c rest, envelope.version = .v2 .payloadBlob (some (c :: rest))

theorem parseVersion2_ok {input : Value} {version : EnvelopeVersion}
    (h : parseVersion2 input = .ok version) :
    version = .v2 .error none ∨ ∃ c rest, version = .v2 .payloadBlob (some (c :: rest)) := by
  rw [parseVersion2] at h
  split at h
  · split at h
    · next c rest _ => exact .inr ⟨c, rest, (Except.ok.inj h).symm⟩
    · exact nomatch h
  · split at h
    · split at h
      · exact nomatch h
      · exact .inl (Except.ok.inj h).symm
    · exact nomatch h

theorem wellFormed_of_parseEnvelope {input : Value} {envelope : Envelope}
    (h : parseEnvelope input = .ok envelope) : WellFormed envelope := by
  rw [parseEnvelope] at h
  split at h
  · exact nomatch h
  · split at h
    · exact nomatch h
    · next shape _ =>
        obtain ⟨eventId, -, h⟩ := Except.bind_eq_ok.mp h
        obtain ⟨keyId, -, h⟩ := Except.bind_eq_ok.mp h
        obtain ⟨iv, -, h⟩ := Except.bind_eq_ok.mp h
        obtain ⟨ciphertext, -, h⟩ := Except.bind_eq_ok.mp h
        obtain ⟨authTag, -, h⟩ := Except.bind_eq_ok.mp h
        obtain ⟨hmac, -, h⟩ := Except.bind_eq_ok.mp h
        dsimp only at h
        split at h
        · obtain rfl := Except.pure_eq_ok.mp h
          exact ⟨⟨_, rfl⟩, .inl rfl⟩
        · obtain ⟨version, hversion, h⟩ := Except.bind_eq_ok.mp h
          obtain rfl := Except.pure_eq_ok.mp h
          exact ⟨⟨_, rfl⟩, .inr (parseVersion2_ok hversion)⟩

/-! ## Equal additional data -/

theorem separators_kindText (kind : EnvelopeKind) : separators kind.text = 0 := by
  cases kind <;> rfl

/-- The additional data from the event id on. -/
def aadTail (envelope : Envelope) : Text :=
  match envelope.version with
  | .v1 => envelope.eventId
  | .v2 kind blobId =>
      envelope.eventId ++ '|' :: (kind.text ++ '|' :: blobId.getD [])

def aadVersion (envelope : Envelope) : Char :=
  match envelope.version with
  | .v1 => '1'
  | .v2 _ _ => '2'

theorem buildEnvelopeAad_eq (envelope : Envelope) (sdkVersion keyId : Text) :
    buildEnvelopeAad envelope sdkVersion keyId =
      Bytes.ofText (aadVersion envelope :: '|' :: (keyId ++ '|' ::
        (envelope.sdkVersion.getD sdkVersion ++ '|' :: aadTail envelope))) := by
  cases h : envelope.version with
  | v1 =>
      rw [buildEnvelopeAad, h, aadVersion, h, aadTail, h]
      rfl
  | v2 kind blobId =>
      rw [buildEnvelopeAad, h, aadVersion, h, aadTail, h]
      rfl

/-- Where the event ids have equally many separators, their part of the additional data determines
the version, the event id, the kind and the blob id. -/
theorem aadTail_unique (h₁ : WellFormed e₁) (h₂ : WellFormed e₂)
    (hversion : aadVersion e₁ = aadVersion e₂) (htail : aadTail e₁ = aadTail e₂)
    (heventId : separators e₁.eventId = separators e₂.eventId) :
    e₁.version = e₂.version ∧ e₁.eventId = e₂.eventId := by
  rw [aadVersion, aadVersion] at hversion
  rw [aadTail, aadTail] at htail
  obtain hv₁ | hv₁ | ⟨c₁, rest₁, hv₁⟩ := h₁.version <;>
    obtain hv₂ | hv₂ | ⟨c₂, rest₂, hv₂⟩ := h₂.version <;>
    rw [hv₁, hv₂] at hversion htail ⊢
  · exact ⟨rfl, htail⟩
  · exact absurd (show '1' = '2' from hversion) (by decide)
  · exact absurd (show '1' = '2' from hversion) (by decide)
  · exact absurd (show '2' = '1' from hversion) (by decide)
  · obtain ⟨hid, -⟩ := Text.cut_unique htail heventId
    exact ⟨rfl, hid⟩
  · obtain ⟨-, hkind⟩ := Text.cut_unique htail heventId
    exact absurd (List.cons.inj hkind).1 (by decide)
  · exact absurd (show '2' = '1' from hversion) (by decide)
  · obtain ⟨-, hkind⟩ := Text.cut_unique htail heventId
    exact absurd (List.cons.inj hkind).1 (by decide)
  · obtain ⟨hid, hkind⟩ := Text.cut_unique htail heventId
    obtain ⟨-, hblobId⟩ := Text.cut_unique hkind rfl
    exact ⟨by rw [show c₁ :: rest₁ = c₂ :: rest₂ from hblobId], hid⟩

theorem separatorsAlike_of_sameMetadata {sdkVersion₁ sdkVersion₂ : Text}
    (haad : buildEnvelopeAad e₁ sdkVersion₁ keyId₁ = buildEnvelopeAad e₂ sdkVersion₂ keyId₂)
    (h₁ : WellFormed e₁) (hsame : SameMetadata e₁ e₂) :
    separators keyId₁ = separators keyId₂ ∧ SeparatorsAlike e₁ e₂ := by
  obtain ⟨version, hversion⟩ := h₁.sdkVersion
  have htail : aadTail e₁ = aadTail e₂ := by
    rw [aadTail, aadTail, hsame.version, hsame.eventId]
  rw [buildEnvelopeAad_eq, buildEnvelopeAad_eq, ← hsame.sdkVersion, hversion, htail] at haad
  have htext := (List.cons.inj (List.cons.inj (Bytes.ofText_injective haad)).2).2
  have hkeyId : keyId₁ = keyId₂ := List.append_cancel_right htext
  exact ⟨by rw [hkeyId], by rw [hsame.sdkVersion], by rw [hsame.eventId]⟩

theorem sameMetadata_of_separatorsAlike {sdkVersion₁ sdkVersion₂ : Text}
    (haad : buildEnvelopeAad e₁ sdkVersion₁ keyId₁ = buildEnvelopeAad e₂ sdkVersion₂ keyId₂)
    (h₁ : WellFormed e₁) (h₂ : WellFormed e₂)
    (hkeyId : separators keyId₁ = separators keyId₂) (halike : SeparatorsAlike e₁ e₂) :
    SameMetadata e₁ e₂ := by
  obtain ⟨version₁, hversion₁⟩ := h₁.sdkVersion
  obtain ⟨version₂, hversion₂⟩ := h₂.sdkVersion
  have hcount := halike.sdkVersion
  rw [hversion₁, hversion₂] at hcount
  rw [buildEnvelopeAad_eq, buildEnvelopeAad_eq, hversion₁, hversion₂] at haad
  obtain ⟨hdigit, hrest⟩ := List.cons.inj (Bytes.ofText_injective haad)
  obtain ⟨-, hrest⟩ := Text.cut_unique (List.cons.inj hrest).2 hkeyId
  obtain ⟨hsdk, htail⟩ := Text.cut_unique hrest hcount
  obtain ⟨hversion, heventId⟩ := aadTail_unique h₁ h₂ hdigit htail halike.eventId
  refine ⟨hversion, heventId, ?_⟩
  rw [hversion₁, hversion₂]
  exact congrArg some hsdk

/-! ## Under an ideal cipher -/

/-- An ideal cipher on what an envelope carries: at most one key and one additional data open it. -/
def OpensOnce (rt : CryptoRuntime) (data : SealedBytes) : Prop :=
  ∀ key aad bytes key' aad' bytes',
    rt.gcmDecrypt key data.iv aad data.ciphertext data.authTag = some bytes →
    rt.gcmDecrypt key' data.iv aad' data.ciphertext data.authTag = some bytes' →
      key = key' ∧ aad = aad'

/-- Two envelopes around the same ciphertext, both accepted under one key chain. -/
structure Substitution (rt : CryptoRuntime) (encryption : Encryption) (e₁ e₂ : Envelope) :
    Prop where
  chain : ∃ key options, Encryption.new rt key options = .ok encryption
  ideal : OpensOnce rt e₁.sealedBytes
  iv : e₂.sealedBytes.iv = e₁.sealedBytes.iv
  ciphertext : e₂.sealedBytes.ciphertext = e₁.sealedBytes.ciphertext
  authTag : e₂.sealedBytes.authTag = e₁.sealedBytes.authTag
  accepted₁ : ∃ decrypted, encryption.decryptEnvelope rt e₁ = .ok (some decrypted)
  accepted₂ : ∃ decrypted, encryption.decryptEnvelope rt e₂ = .ok (some decrypted)

section Chain

variable {rt : CryptoRuntime} {encryption : Encryption}

/-- Both envelopes were opened with one material and one additional data. -/
theorem Substitution.aad_eq (h : Substitution rt encryption e₁ e₂) :
    ∃ keyId, buildEnvelopeAad e₁ encryption.sdkVersion keyId =
      buildEnvelopeAad e₂ encryption.sdkVersion keyId := by
  obtain ⟨key, options, hnew⟩ := h.chain
  obtain ⟨decrypted₁, hdecrypted₁⟩ := h.accepted₁
  obtain ⟨decrypted₂, hdecrypted₂⟩ := h.accepted₂
  obtain ⟨material₁, hmaterial₁, hattempt₁⟩ := Encryption.decryptEnvelope_ok hdecrypted₁
  obtain ⟨material₂, hmaterial₂, hattempt₂⟩ := Encryption.decryptEnvelope_ok hdecrypted₂
  obtain ⟨bytes₁, -, hauth₁, -⟩ := tryDecryptWithMaterial_ok hattempt₁
  obtain ⟨bytes₂, -, hauth₂, -⟩ := tryDecryptWithMaterial_ok hattempt₂
  have hopen₂ := hauth₂.authTag
  rw [h.iv, h.ciphertext, h.authTag] at hopen₂
  obtain ⟨hkey, haad⟩ := h.ideal _ _ _ _ _ _ hauth₁.authTag hopen₂
  have hkeyId : material₁.keyId = material₂.keyId := by
    rw [Encryption.keyId_of_isMaterialAt hnew hmaterial₁,
      Encryption.keyId_of_isMaterialAt hnew hmaterial₂, hkey]
  exact ⟨material₁.keyId, by rw [haad, hkeyId]⟩

end Chain

/-- The encryption of `\x7b\x7d` for the additional data `2|72ca1e089653ce4b|1|a|b|error|`. -/
def boundCalls : RecordedCalls :=
  shortKeyCalls
    [((shortKey.macKey,
        List.replicate 12 0 ++ [54, 39] ++ Bytes.bigEndian 16 0xbeb7c43788a2b043d4ae427753839a3b ++
          buildAad "a|b" "1" shortKey.keyId .error none),
      Bytes.bigEndian 32 0x367852cc2fe68d348a12eb600a15fb82a5de7df75d4ebcb109d0671fe46fea12)]
    { key := shortKey.derivedKey
      nonce := List.replicate 12 0
      aad := buildAad "a|b" "1" shortKey.keyId .error none
      plaintext := [0x7b, 0x7d]
      ciphertext := [54, 39]
      authTag := Bytes.bigEndian 16 0xbeb7c43788a2b043d4ae427753839a3b
      length_eq := by decide }
    [] []

/-- The envelope as it is sent, with the metadata that the sender or somebody else put in. -/
def boundEnvelope (sdkVersion eventId : Text) : Value :=
  .object
    [("v", .number "2"), ("eventId", .string eventId), ("kind", .string "error"),
      ("sdk", .object [("name", .string "errorcore"), ("version", .string sdkVersion)]),
      ("keyId", .string "72ca1e089653ce4b"), ("iv", .string "AAAAAAAAAAAAAAAA"),
      ("ciphertext", .string "Nic="), ("authTag", .string "vrfEN4iisEPUrkJ3U4OaOw=="),
      ("hmac", .string "NnhSzC/mjTSKEutgChX7gqXeffddTryxCdBnH+Rv6hI="),
      ("compressed", .bool false), ("producedAt", .number "0")]

def boundMetadata (sdkVersion eventId : Text) : Envelope where
  version := .v2 .error none
  eventId := eventId
  sdkVersion := some sdkVersion
  keyId := "72ca1e089653ce4b"
  iv := "AAAAAAAAAAAAAAAA"
  ciphertext := "Nic="
  authTag := "vrfEN4iisEPUrkJ3U4OaOw=="
  hmac := "NnhSzC/mjTSKEutgChX7gqXeffddTryxCdBnH+Rv6hI="
  compressed := false
  producedAt := "0"

theorem parseEnvelope_boundEnvelope :
    parseEnvelope (boundEnvelope "1" "a|b") = .ok (boundMetadata "1" "a|b") ∧
      parseEnvelope (boundEnvelope "1|a" "b") = .ok (boundMetadata "1|a" "b") := by
  constructor <;> rfl

theorem decryptEnvelope_boundMetadata :
    shortEncryption.decryptEnvelope boundCalls.runtime (boundMetadata "1" "a|b") =
        .ok (some ⟨[Char.ofNat 0x7b, Char.ofNat 0x7d], 0⟩) ∧
      shortEncryption.decryptEnvelope boundCalls.runtime (boundMetadata "1|a" "b") =
        .ok (some ⟨[Char.ofNat 0x7b, Char.ofNat 0x7d], 0⟩) := by
  decide +kernel

theorem boundMetadata_substitution :
    Substitution boundCalls.runtime shortEncryption (boundMetadata "1" "a|b")
      (boundMetadata "1|a" "b") where
  chain := ⟨_, _, shortEncryption_new _ _ _ _⟩
  ideal := by
    intro key aad bytes key' aad' bytes' h h'
    obtain ⟨hkey, haad, -⟩ := RecordedCalls.gcmDecrypt_eq_some h
    obtain ⟨hkey', haad', -⟩ := RecordedCalls.gcmDecrypt_eq_some h'
    exact ⟨hkey.trans hkey'.symm, haad.trans haad'.symm⟩
  iv := rfl
  ciphertext := rfl
  authTag := rfl
  accepted₁ := ⟨_, decryptEnvelope_boundMetadata.1⟩
  accepted₂ := ⟨_, decryptEnvelope_boundMetadata.2⟩

end ErrorCore
