import ErrorCore.Ingest
import ErrorCore.Security.Encryption.Attempts

/-!
# Soundness of the receiver

What an accepted envelope guarantees about its record: where the plaintext came
from, that the record agrees with the envelope, and that both are reported. The
receiver keeps all of this except for a payload inside an envelope that looks
like a watchdog record: it is returned without its envelope and as unencrypted.
-/

namespace ErrorCore

open Json (Value)

variable {rt : IngestRuntime} {input : IngestInput} {options : IngestEnvelopeOptions}
variable {result : IngestedPayload} {envelope : Envelope}

/-! ## What is guaranteed -/

/-- The plaintext was covered by an HMAC and a tag that verified under a configured key. -/
def CoveredPlaintext (rt : IngestRuntime) (options : IngestEnvelopeOptions) (envelope : Envelope)
    (plaintext : Text) : Prop :=
  ∃ key limit encryption i material bytes inflated,
    options.encryptionKey = some key ∧
    ingestEncryption rt key options envelope limit = .ok encryption ∧
    Encryption.IsMaterialAt rt.toCryptoRuntime encryption i material ∧
    Authenticates rt.toCryptoRuntime material envelope encryption.sdkVersion bytes ∧
    maybeDecompress rt.toCryptoRuntime bytes envelope.compressed limit = .ok inflated ∧
    plaintext = rt.bufferToText inflated

/-- All four markers of an unencrypted envelope, where it is allowed. -/
structure AllowedTransparent (options : IngestEnvelopeOptions) (envelope : Envelope) : Prop where
  allowed : options.allowUnencrypted = some true
  iv : envelope.iv = TRANSPARENT_MARKER
  authTag : envelope.authTag = TRANSPARENT_MARKER
  keyId : envelope.keyId = TRANSPARENT_MARKER
  hmac : envelope.hmac = TRANSPARENT_MARKER

/-- The record is of the envelope's kind or unknown, and carries its ids. -/
structure AgreesWith (result : IngestedPayload) (kind : EnvelopeKind) (eventId : Text)
    (blobId : Option Text) : Prop where
  kind : result.kind = kind.payloadKind ∨ result.kind = .unknown
  eventId : result.kind = .error ∨ result.kind = .payloadBlob →
    result.payload.getString? "eventId" = some eventId
  blobId : result.kind = .payloadBlob → result.payload.getString? "blobId" = blobId

/-- What a record that came in an envelope has to satisfy. -/
structure SoundFor (rt : IngestRuntime) (options : IngestEnvelopeOptions) (envelope : Envelope)
    (result : IngestedPayload) : Prop where
  covered : CoveredPlaintext rt options envelope result.rawPayload ∨
    AllowedTransparent options envelope
  agrees : ∀ kind blobId, envelope.version = .v2 kind blobId →
    AgreesWith result kind envelope.eventId blobId
  encrypted : result.encrypted = true ↔ CoveredPlaintext rt options envelope result.rawPayload ∧
    isTransparentEnvelope envelope = false
  reported : result.envelope = some envelope

/-- A bare watchdog record is plain and has no envelope; any other input has one. -/
def Sound (rt : IngestRuntime) (input : IngestInput) (options : IngestEnvelopeOptions)
    (result : IngestedPayload) : Prop :=
  ∃ parsed, parseJsonValue rt input "EC_INGEST_INVALID_JSON" = .ok parsed ∧
    if isWatchdogPayload parsed then result.encrypted = false ∧ result.envelope = none
    else ∃ envelope, parseEnvelope parsed = .ok envelope ∧ SoundFor rt options envelope result

/-! ## What the receiver did -/

/-- The steps of an acceptance that went through an envelope. -/
structure Accepted (rt : IngestRuntime) (input : IngestInput) (options : IngestEnvelopeOptions)
    (envelope : Envelope) (opened : OpenedEnvelope) (inner : Value) : Prop where
  parsed : ∃ parsed, parseJsonValue rt input "EC_INGEST_INVALID_JSON" = .ok parsed ∧
    isWatchdogPayload parsed = false ∧ parseEnvelope parsed = .ok envelope
  opening : ∃ limit, resolvePlaintextLimit options.maxPlaintextBytes = .ok limit ∧
    openEnvelope rt options envelope limit = .ok opened
  contents : parseInnerPayload rt opened.rawPayload = .ok inner
  identity : enforceEnvelopeIdentity (classifyPayload inner) inner envelope = .ok ()

/-- The envelope of the input holds a payload in the shape of a watchdog record. -/
def HidesWatchdog (rt : IngestRuntime) (input : IngestInput) (options : IngestEnvelopeOptions) :
    Prop :=
  ∃ envelope opened inner, Accepted rt input options envelope opened inner ∧
    isWatchdogPayload inner = true

theorem receive_cases (h : receiveIngestEnvelope rt input options = .ok result) :
    (∃ parsed, parseJsonValue rt input "EC_INGEST_INVALID_JSON" = .ok parsed ∧
        isWatchdogPayload parsed = true ∧
        result = buildIngestedPayload parsed (rawJson rt input) none false none) ∨
      ∃ envelope opened inner, Accepted rt input options envelope opened inner ∧
        result = buildIngestedPayload inner opened.rawPayload (some envelope) opened.encrypted
          opened.keyIndex := by
  rw [receiveIngestEnvelope] at h
  obtain ⟨parsed, hparsed, h⟩ := Except.bind_eq_ok.mp h
  cases hwatchdog : isWatchdogPayload parsed with
  | true =>
      rw [hwatchdog] at h
      exact .inl ⟨parsed, hparsed, hwatchdog, (Except.pure_eq_ok.mp h).symm⟩
  | false =>
      rw [hwatchdog] at h
      obtain ⟨limit, hlimit, h⟩ := Except.bind_eq_ok.mp h
      obtain ⟨envelope, henvelope, h⟩ := Except.bind_eq_ok.mp h
      obtain ⟨opened, hopened, h⟩ := Except.bind_eq_ok.mp h
      obtain ⟨-, -, h⟩ := Except.bind_eq_ok.mp h
      obtain ⟨inner, hinner, h⟩ := Except.bind_eq_ok.mp h
      obtain ⟨_, hidentity, h⟩ := Except.bind_eq_ok.mp h
      refine .inr ⟨envelope, opened, inner, ?_, (Except.pure_eq_ok.mp h).symm⟩
      exact ⟨⟨parsed, hparsed, hwatchdog, henvelope⟩, ⟨limit, hlimit, hopened⟩, hinner, hidentity⟩

theorem ingestEncryption_limit {key : KeyInput} {limit : Nat} {encryption : Encryption}
    (h : ingestEncryption rt key options envelope limit = .ok encryption) :
    encryption.maxPlaintextBytes = limit := by
  rw [ingestEncryption, Encryption.new] at h
  obtain ⟨primary, -, h⟩ := Except.bind_eq_ok.mp h
  obtain ⟨previous, -, h⟩ := Except.bind_eq_ok.mp h
  rw [← Except.pure_eq_ok.mp h]
  rfl

/-- Where the plaintext of an opened envelope came from. -/
theorem openEnvelope_ok {limit : Nat} {opened : OpenedEnvelope}
    (h : openEnvelope rt options envelope limit = .ok opened) :
    (AllowedTransparent options envelope ∧ opened.encrypted = false) ∨
      (isTransparentEnvelope envelope = false ∧ opened.encrypted = true ∧
        CoveredPlaintext rt options envelope opened.rawPayload) := by
  rw [openEnvelope] at h
  cases htransparent : isTransparentEnvelope envelope with
  | true =>
      left
      rw [htransparent, if_pos rfl, openTransparent] at h
      obtain ⟨hiv, htag⟩ := (Bool.and_eq_true _ _).mp htransparent
      split at h
      · exact nomatch h
      · next hmarkers =>
          split at h
          · exact nomatch h
          · next hallowed =>
              obtain rfl := Except.ok.inj h
              rw [not_or, not_not, not_not] at hmarkers
              exact ⟨⟨not_not.mp hallowed, of_decide_eq_true hiv, of_decide_eq_true htag,
                hmarkers.1, hmarkers.2⟩, rfl⟩
  | false =>
      right
      rw [htransparent, if_neg Bool.false_ne_true, openEncrypted] at h
      split at h
      · exact nomatch h
      · next key hkey =>
          split at h
          · exact nomatch h
          · next encryption hencryption =>
              split at h
              · split at h <;> exact nomatch h
              · exact nomatch h
              · next decrypted hdecrypted =>
                  obtain rfl := Except.ok.inj h
                  obtain ⟨material, hmaterial, hattempt⟩ :=
                    Encryption.decryptEnvelope_ok hdecrypted
                  obtain ⟨bytes, inflated, hauth, hinflated, htext⟩ :=
                    tryDecryptWithMaterial_ok hattempt
                  refine ⟨rfl, rfl, key, limit, encryption, _, material, bytes, inflated, hkey,
                    hencryption, hmaterial, hauth, ?_, htext⟩
                  rw [ingestEncryption_limit hencryption] at hinflated
                  exact hinflated

/-! ## The record -/

theorem classifyPayload_of_not_watchdog {payload : Value}
    (h : isWatchdogPayload payload = false) : classifyPayload payload ≠ .watchdog := by
  rw [classifyPayload, h, if_neg Bool.false_ne_true]
  split
  · exact nofun
  · split
    · exact nofun
    · split <;> exact nofun

theorem buildIngestedPayload_watchdog {payload : Value} {rawPayload : Text}
    {envelope : Option Envelope} {encrypted : Bool} {keyIndex : Option Nat}
    (h : isWatchdogPayload payload = true) :
    buildIngestedPayload payload rawPayload envelope encrypted keyIndex =
      ⟨.watchdog, payload, rawPayload, none, false, none⟩ := by
  simp only [buildIngestedPayload, classifyPayload, h, if_true]

theorem buildIngestedPayload_of_not_watchdog {payload : Value} {rawPayload : Text}
    {encrypted : Bool} {keyIndex : Option Nat} (h : isWatchdogPayload payload = false) :
    buildIngestedPayload payload rawPayload (some envelope) encrypted keyIndex =
      ⟨classifyPayload payload, payload, rawPayload, some envelope, encrypted, keyIndex⟩ := by
  have hkind := classifyPayload_of_not_watchdog h
  cases hclass : classifyPayload payload with
  | watchdog => exact absurd hclass hkind
  | error => simp only [buildIngestedPayload, hclass]
  | payloadBlob => simp only [buildIngestedPayload, hclass]
  | unknown => simp only [buildIngestedPayload, hclass]

theorem agreesWith_of_identity {inner : Value} {kind : EnvelopeKind} {blobId : Option Text}
    (hidentity : enforceEnvelopeIdentity (classifyPayload inner) inner envelope = .ok ())
    (hversion : envelope.version = .v2 kind blobId)
    (hkind : result.kind = classifyPayload inner) (hpayload : result.payload = inner)
    (hwatchdog : classifyPayload inner ≠ .watchdog) :
    AgreesWith result kind envelope.eventId blobId := by
  subst hpayload
  rw [← hkind] at hidentity hwatchdog
  cases hclass : result.kind with
  | watchdog => exact absurd hclass hwatchdog
  | unknown =>
      refine ⟨.inr hclass, ?_, ?_⟩
      · rintro (h | h) <;> exact nomatch hclass.symm.trans h
      · intro h
        exact nomatch hclass.symm.trans h
  | error | payloadBlob =>
      simp only [hclass, enforceEnvelopeIdentity, hversion, enforceVersionIdentity] at hidentity
      split at hidentity
      · exact nomatch hidentity
      · next hevent =>
          split at hidentity
          · exact nomatch hidentity
          · next hsame =>
              split at hidentity
              · exact nomatch hidentity
              · next hblob =>
                  refine ⟨.inl (hclass.trans (not_not.mp hsame).symm),
                    fun _ => not_not.mp hevent, ?_⟩
                  intro h
                  rw [h] at hclass
                  simp_all

theorem soundFor_of_accepted {opened : OpenedEnvelope} {inner : Value}
    (h : Accepted rt input options envelope opened inner)
    (hwatchdog : isWatchdogPayload inner = false) :
    SoundFor rt options envelope
      ⟨classifyPayload inner, inner, opened.rawPayload, some envelope, opened.encrypted,
        opened.keyIndex⟩ := by
  obtain ⟨limit, -, hopened⟩ := h.opening
  have hagrees : ∀ kind blobId, envelope.version = .v2 kind blobId →
      AgreesWith ⟨classifyPayload inner, inner, opened.rawPayload, some envelope,
        opened.encrypted, opened.keyIndex⟩ kind envelope.eventId blobId :=
    fun kind blobId hversion => agreesWith_of_identity h.identity hversion rfl rfl
      (classifyPayload_of_not_watchdog hwatchdog)
  obtain ⟨htransparent, hplain⟩ | ⟨htransparent, hencrypted, hcovered⟩ := openEnvelope_ok hopened
  · refine ⟨.inr htransparent, hagrees, ?_, rfl⟩
    have hmarked : isTransparentEnvelope envelope = true := by
      rw [isTransparentEnvelope, htransparent.iv, htransparent.authTag]
      rfl
    constructor
    · intro henc
      exact nomatch hplain.symm.trans henc
    · rintro ⟨-, hnot⟩
      exact nomatch hmarked.symm.trans hnot
  · exact ⟨.inl hcovered, hagrees, ⟨fun _ => ⟨hcovered, htransparent⟩, fun _ => hencrypted⟩, rfl⟩

def inertIngestRuntime : IngestRuntime := { inertRuntime with formatNumber := id }

/-- An envelope of version 2 and kind `error` around a payload that is not encrypted. -/
def transparentEnvelope (payload : Value) : Value :=
  .object
    [("v", .number "2"), ("eventId", .string "e1"), ("kind", .string "error"),
      ("sdk", .object [("name", .string "errorcore"), ("version", .string "1")]),
      ("keyId", .string TRANSPARENT_MARKER), ("iv", .string TRANSPARENT_MARKER),
      ("ciphertext", .string (Bytes.toBase64 (Bytes.ofText (Json.stringify payload)))),
      ("authTag", .string TRANSPARENT_MARKER), ("hmac", .string TRANSPARENT_MARKER),
      ("compressed", .bool false), ("producedAt", .number "0")]

def errorPayload : Value :=
  .object
    [("schemaVersion", .string "1.4.0"), ("eventId", .string "e1"), ("capturedAt", .string "now"),
      ("error", .object [])]

def watchdogPayload : Value :=
  .object
    [("source", .string "watchdog"), ("watchdogPayloadVersion", .string "1.0.0"),
      ("capturedAt", .string "now"), ("error", .object [("message", .string "late")]),
      ("invocation", .object
        [("functionName", .string "f"), ("startedAt", .string "now"), ("durationMs", .number "1"),
          ("timeoutMs", .number "1")])]

def receiveTransparent (payload : Value) : Except IngestFailure IngestedPayload :=
  receiveIngestEnvelope inertIngestRuntime (.value (transparentEnvelope payload))
    { allowUnencrypted := some true }

theorem receiveTransparent_error_isSome :
    (receiveTransparent errorPayload).toOption.isSome = true := by
  decide +kernel

theorem receiveTransparent_watchdog_envelope :
    (receiveTransparent watchdogPayload).toOption.any (·.envelope.isNone) = true := by
  decide +kernel

end ErrorCore
