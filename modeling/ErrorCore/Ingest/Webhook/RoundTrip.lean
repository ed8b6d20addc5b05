import ErrorCore.Capture.PackageBuilder.Finalize
import ErrorCore.Ingest.Webhook.Labels
import ErrorCore.Transport.WebhookTransport.Batch

/-!
# From the finished payload to the ingested one

A payload that the SDK finished, stored, posted in a batch and received again is
the object that was serialized, with the text and the envelope it was sealed in,
whatever the labels are. The receiver's limit on the plaintext is the only bound.
-/

namespace ErrorCore

open Json (Value)

/-! ## Finished payloads -/

variable {rt : CryptoRuntime} {numbers : Json.NumberFormat} {sealer : Sealer}
variable {inner : Value} {opts : EnvelopeEncryptOptions} {finalized : Finalized}
variable {options : IngestEnvelopeOptions}

/-- A finished payload and the object that was serialized. -/
inductive ProducedBy (rt : CryptoRuntime) (numbers : Json.NumberFormat) (sealer : Sealer) :
    EnvelopeKind → Value → Finalized → Prop
  | package {packageObject : PackageObject} {finalized : Finalized} :
      Json.Canonical numbers.print (.object packageObject.fields) →
      finalizePackageAssemblyResult rt sealer packageObject = .ok finalized →
        ProducedBy rt numbers sealer .error (packageObject.marked sealer.encrypted) finalized
  | blob {blob : PayloadBlobEnvelope} {finalized : Finalized} :
      blob.eventId ≠ [] → blob.size < 9007199254740992 → blob.capturedSize < 9007199254740992 →
      finalizePayloadBlobAssemblyResult rt sealer blob = .ok finalized →
        ProducedBy rt numbers sealer .payloadBlob blob.toJson finalized

/-- What both finalizers establish. -/
structure Finished (rt : CryptoRuntime) (numbers : Json.NumberFormat) (sealer : Sealer)
    (opts : EnvelopeEncryptOptions) (inner : Value) (finalized : Finalized) : Prop where
  canonical : Json.Canonical numbers.print inner
  serialized : finalized.serialized = Json.stringify inner
  envelope : sealer.envelope rt finalized.serialized opts = .ok finalized.envelope
  kind : classifyPayload inner = opts.kind.payloadKind
  eventId : inner.getString? "eventId" = some opts.eventId
  eventId_ne : opts.eventId ≠ []
  blobId : opts.kind = .payloadBlob → inner.getString? "blobId" = opts.blobId ∧ opts.blobId ≠ none

theorem ProducedBy.finished {kind : EnvelopeKind}
    (h : ProducedBy rt numbers sealer kind inner finalized) :
    ∃ opts, opts.kind = kind ∧ Finished rt numbers sealer opts inner finalized := by
  cases h with
  | @package packageObject _ hcanonical hfinal =>
      obtain ⟨envelope, henvelope, hresult⟩ := Except.bind_eq_ok.mp hfinal
      obtain rfl := Except.pure_eq_ok.mp hresult
      refine ⟨⟨packageObject.eventId, .error, none⟩, rfl, ?_⟩
      exact ⟨PackageObject.canonical_marked hcanonical, rfl, henvelope,
        PackageObject.classifyPayload_marked, PackageObject.getString?_eventId,
        packageObject.eventId_ne, fun h => nomatch h⟩
  | @blob blob _ hevent hsize hcaptured hfinal =>
      obtain ⟨envelope, henvelope, hresult⟩ := Except.bind_eq_ok.mp hfinal
      obtain rfl := Except.pure_eq_ok.mp hresult
      refine ⟨⟨blob.eventId, .payloadBlob, some blob.blobId⟩, rfl, ?_⟩
      exact ⟨PayloadBlobEnvelope.canonical_toJson hsize hcaptured, rfl, henvelope,
        PayloadBlobEnvelope.classifyPayload_toJson, rfl, hevent,
        fun _ => ⟨rfl, Option.some_ne_none _⟩⟩

/-! ## Matching receivers -/

/-- The receiver's keys open what the encryption seals: it is configured with the key of the writer,
and the primitives do on this envelope what they are documented to do. -/
structure MatchingKeys (rt : CryptoRuntime) (options : IngestEnvelopeOptions)
    (encryption : Encryption) (finalized : Finalized) : Prop where
  configured : ∃ key writerKey writerOptions, options.encryptionKey = some key ∧
    Encryption.new rt writerKey writerOptions = .ok encryption ∧
    writerOptions.macKey = options.macKey ∧
    writerKey ∈ key :: options.previousEncryptionKeys.map .text ∧
    (∀ other ∈ key :: options.previousEncryptionKeys.map .text,
      Except.Succeeds (deriveKeys rt other options.macKey)) ∧
    SeparateKeys rt options.macKey (key :: options.previousEncryptionKeys.map .text)
      finalized.envelope encryption.sdkVersion
  sha256_ne : ∀ bytes, rt.sha256 bytes ≠ []
  hmacSha256_ne : ∀ key message, rt.hmacSha256 key message ≠ []
  deflateRawSync_ne : ∀ bytes, rt.deflateRawSync bytes ≠ []
  gcm : GcmInverts rt finalized.envelope.sealedBytes
  zlib : ZlibInverts rt (Bytes.ofText finalized.serialized)

/-- The receiver is configured for the sealer: it has its keys, or admits plain envelopes. -/
def MatchingReceiver (rt : CryptoRuntime) (options : IngestEnvelopeOptions) (sealer : Sealer)
    (finalized : Finalized) : Prop :=
  match sealer.encryption with
  | none => options.allowUnencrypted = some true
  | some encryption => MatchingKeys rt options encryption finalized

/-- The plaintext is within the receiver's limit. -/
def Admitted (options : IngestEnvelopeOptions) (finalized : Finalized) : Prop :=
  ∃ limit, resolvePlaintextLimit options.maxPlaintextBytes = .ok limit ∧
    Text.byteLength finalized.serialized ≤ limit

/-! ## The envelope on the wire -/

theorem toBase64_ne_nil {bytes : Bytes} (h : bytes ≠ []) : Bytes.toBase64 bytes ≠ [] := by
  intro hnil
  have hlength := Bytes.length_toBase64 bytes
  rw [hnil, List.length_nil] at hlength
  have hpos := List.length_pos_of_ne_nil h
  omega

theorem toHex_ne_nil {bytes : Bytes} (h : bytes ≠ []) : Bytes.toHex bytes ≠ [] := by
  cases bytes with
  | nil => exact absurd rfl h
  | cons b rest => exact List.cons_ne_nil _ _

theorem computeKeyId_ne_nil (h : ∀ bytes, rt.sha256 bytes ≠ []) (derivedKey : Bytes) :
    computeKeyId rt derivedKey ≠ [] := by
  apply toHex_ne_nil
  cases hdigest : rt.sha256 derivedKey with
  | nil => exact absurd hdigest (h derivedKey)
  | cons b rest => exact List.cons_ne_nil _ _

theorem ofText_ne_nil {text : Text} (h : text ≠ []) : Bytes.ofText text ≠ [] := by
  intro hnil
  apply h
  apply Bytes.ofText_injective
  rw [hnil]
  rfl

theorem maybeCompress_ne_nil {bytes : Bytes} (hdeflate : ∀ bytes, rt.deflateRawSync bytes ≠ [])
    (h : bytes ≠ []) : (maybeCompress rt bytes).buf ≠ [] := by
  rw [maybeCompress]
  split
  · exact h
  · dsimp only
    split
    · exact h
    · exact hdeflate bytes

namespace Finished

variable (h : Finished rt numbers sealer opts inner finalized)
include h

theorem serialized_ne : finalized.serialized ≠ [] := by
  obtain ⟨c, cs, hstart, -⟩ := Json.stringify_start h.canonical
  rw [h.serialized, hstart]
  exact List.cons_ne_nil _ _

/-- The envelope says what it was sealed with. -/
theorem described : finalized.envelope.version = .v2 opts.kind opts.blobId ∧
    finalized.envelope.eventId = opts.eventId ∧
    finalized.envelope.producedAt = sealer.producedAt := by
  have henvelope := h.envelope
  rw [Sealer.envelope] at henvelope
  cases hencryption : sealer.encryption with
  | none =>
      rw [hencryption] at henvelope
      obtain ⟨-, -, hresult⟩ := Except.bind_eq_ok.mp henvelope
      rw [← Except.pure_eq_ok.mp hresult]
      exact ⟨rfl, rfl, rfl⟩
  | some encryption =>
      rw [hencryption] at henvelope
      obtain ⟨-, -, hresult⟩ := Except.bind_eq_ok.mp henvelope
      rw [← Except.pure_eq_ok.mp hresult]
      exact ⟨rfl, rfl, rfl⟩

theorem coherent : finalized.envelope.version.assertCoherence = .ok () := by
  rw [h.described.1]
  have henvelope := h.envelope
  rw [Sealer.envelope] at henvelope
  cases hencryption : sealer.encryption with
  | none =>
      rw [hencryption] at henvelope
      obtain ⟨_, hcoherent, -⟩ := Except.bind_eq_ok.mp henvelope
      exact hcoherent
  | some encryption =>
      rw [hencryption] at henvelope
      obtain ⟨_, hcoherent, -⟩ := Except.bind_eq_ok.mp henvelope
      exact hcoherent

theorem wellFormed_plain (hplain : sealer.encryption = none) :
    finalized.envelope.WellFormed ∧ isTransparentEnvelope finalized.envelope = true ∧
      finalized.envelope.keyId = TRANSPARENT_MARKER ∧
      finalized.envelope.hmac = TRANSPARENT_MARKER ∧
      finalized.envelope.ciphertext = Bytes.toBase64 (Bytes.ofText finalized.serialized) := by
  have hcoherent := h.coherent
  have henvelope := h.envelope
  rw [Sealer.envelope, hplain] at henvelope
  obtain ⟨-, -, hresult⟩ := Except.bind_eq_ok.mp henvelope
  rw [← Except.pure_eq_ok.mp hresult] at hcoherent ⊢
  have hmarker : TRANSPARENT_MARKER ≠ [] := List.cons_ne_nil _ _
  refine ⟨⟨h.eventId_ne, hmarker, hmarker, ?_, hmarker, hmarker, rfl, hcoherent⟩, rfl, rfl, rfl,
    rfl⟩
  exact toBase64_ne_nil (ofText_ne_nil h.serialized_ne)

theorem wellFormed_encrypted {encryption : Encryption}
    (hencryption : sealer.encryption = some encryption)
    (hmatching : MatchingKeys rt options encryption finalized) :
    finalized.envelope.WellFormed ∧ isTransparentEnvelope finalized.envelope = false ∧
      finalized.envelope.sdkVersion = some encryption.sdkVersion := by
  have hcoherent := h.coherent
  have henvelope := h.envelope
  rw [Sealer.envelope, hencryption] at henvelope
  obtain ⟨-, -, hresult⟩ := Except.bind_eq_ok.mp henvelope
  rw [← Except.pure_eq_ok.mp hresult] at hcoherent ⊢
  obtain ⟨key, writerKey, writerOptions, -, hnew, -⟩ := hmatching.configured
  obtain ⟨hciphertext, hauthTag⟩ := rt.gcmEncrypt_length encryption.primary.derivedKey
    sealer.nonce.bytes
    (buildAad opts.eventId encryption.sdkVersion encryption.primary.keyId opts.kind opts.blobId)
    (maybeCompress rt (Bytes.ofText finalized.serialized)).buf
  have hiv : sealer.nonce.bytes ≠ [] := by
    apply List.ne_nil_of_length_pos
    rw [sealer.nonce.length_eq]
    decide
  have hkeyId : encryption.primary.keyId ≠ [] := by
    rw [Encryption.keyId_of_isMaterialAt (i := 0) hnew ⟨encryption.primary, rfl, .inl rfl⟩]
    exact computeKeyId_ne_nil hmatching.sha256_ne _
  have hworking := maybeCompress_ne_nil hmatching.deflateRawSync_ne
    (ofText_ne_nil h.serialized_ne)
  refine ⟨⟨h.eventId_ne, hkeyId, toBase64_ne_nil hiv, toBase64_ne_nil ?_, toBase64_ne_nil ?_,
    toBase64_ne_nil (hmatching.hmacSha256_ne _ _), rfl, hcoherent⟩, ?_, rfl⟩
  · apply List.ne_nil_of_length_pos
    rw [hciphertext]
    exact List.length_pos_of_ne_nil hworking
  · apply List.ne_nil_of_length_pos
    rw [hauthTag]
    decide
  · -- twelve bytes are sixteen characters of base64, and the marker has eleven
    have hmarker : Bytes.toBase64 sealer.nonce.bytes ≠ TRANSPARENT_MARKER := by
      intro hsame
      have hlength := congrArg List.length hsame
      rw [Bytes.length_toBase64, sealer.nonce.length_eq] at hlength
      exact absurd hlength (by decide)
    rw [isTransparentEnvelope, decide_eq_false hmarker, Bool.false_and]

theorem wellFormed (hmatching : MatchingReceiver rt options sealer finalized) :
    finalized.envelope.WellFormed := by
  cases hencryption : sealer.encryption with
  | none => exact (h.wellFormed_plain hencryption).1
  | some encryption =>
      rw [MatchingReceiver, hencryption] at hmatching
      exact (h.wellFormed_encrypted hencryption hmatching).1

theorem canonical_envelope : Json.Canonical numbers.print finalized.envelope.toJson := by
  apply canonical_toJson
  rw [h.described.2.2]
  exact numbers.numberText_nat sealer.now_safe

/-- The identity check passes. -/
theorem identity :
    enforceEnvelopeIdentity (classifyPayload inner) inner finalized.envelope = .ok () := by
  obtain ⟨hversion, hevent, -⟩ := h.described
  rw [h.kind, enforceEnvelopeIdentity_payloadKind, hversion, hevent]
  refine ⟨h.eventId, ?_⟩
  rw [enforceVersionIdentity, if_neg (not_not.mpr rfl), if_neg]
  rintro ⟨hblob, hdiffers⟩
  obtain ⟨hid, hsome⟩ := h.blobId (EnvelopeKind.payloadKind_injective hblob)
  rw [hid] at hdiffers
  cases hdiffers with
  | inl hnone => exact hsome hnone
  | inr hne => exact hne rfl

end Finished

/-! ## Opening -/

/-- A chain of keys that can all be derived is constructed. -/
theorem Encryption.new_isOk {key : KeyInput} {encryptionOptions : EncryptionOptions}
    (h : ∀ other ∈ configuredKeys key encryptionOptions,
      Except.Succeeds (deriveKeys rt other encryptionOptions.macKey)) :
    ∃ encryption, Encryption.new rt key encryptionOptions = .ok encryption := by
  obtain ⟨primary, hprimary⟩ := h key List.mem_cons_self
  have hprevious : ∃ previous, (encryptionOptions.previousEncryptionKeys.mapM fun other =>
      deriveKeys rt (.text other) encryptionOptions.macKey) = .ok previous := by
    apply Except.mapM_isOk
    intro other hother
    exact h _ (List.mem_cons_of_mem _ (List.mem_map_of_mem hother))
  obtain ⟨previous, hprevious⟩ := hprevious
  exact ⟨_, by rw [Encryption.new, hprimary, Except.ok_bind, hprevious]; rfl⟩

/-- The receiver's runtime. -/
def ingestRuntime (rt : CryptoRuntime) (numbers : Json.NumberFormat) : IngestRuntime :=
  { rt with formatNumber := numbers.print }

/-- The envelope of a finished payload is opened to the text that was sealed. -/
theorem Finished.opens (h : Finished rt numbers sealer opts inner finalized)
    (hmatching : MatchingReceiver rt options sealer finalized) {limit : Nat}
    (hlimit : Text.byteLength finalized.serialized ≤ limit) :
    ∃ keyIndex, openEnvelope (ingestRuntime rt numbers) options finalized.envelope limit =
      .ok ⟨finalized.serialized, keyIndex, sealer.encrypted⟩ := by
  rw [openEnvelope]
  cases hencryption : sealer.encryption with
  | none =>
      rw [MatchingReceiver, hencryption] at hmatching
      obtain ⟨-, htransparent, hkeyId, hhmac, hciphertext⟩ := h.wellFormed_plain hencryption
      have htext : (ingestRuntime rt numbers).bufferToText
          (Bytes.ofBase64 finalized.envelope.ciphertext) = finalized.serialized := by
        rw [hciphertext, Bytes.ofBase64_toBase64, CryptoRuntime.bufferToText, Bytes.toText?_ofText,
          Option.getD_some]
      refine ⟨none, ?_⟩
      rw [if_pos htransparent, openTransparent, hkeyId, hhmac, htext, Sealer.encrypted,
        hencryption, if_neg (fun hor => hor.elim (· rfl) (· rfl)), if_neg (not_not.mpr hmatching)]
      rfl
  | some encryption =>
      rw [MatchingReceiver, hencryption] at hmatching
      obtain ⟨-, htransparent, hsdk⟩ := h.wellFormed_encrypted hencryption hmatching
      obtain ⟨key, writerKey, writerOptions, hkey, hnew, hmac, hwriter, hderives, hseparate⟩ :=
        hmatching.configured
      let readerOptions : EncryptionOptions :=
        { previousEncryptionKeys := options.previousEncryptionKeys
          macKey := options.macKey
          sdkVersion := finalized.envelope.sdkVersion
          maxPlaintextBytes := some limit }
      have hderived : ∃ reader, Encryption.new rt key readerOptions = .ok reader :=
        Encryption.new_isOk hderives
      obtain ⟨reader, hreader⟩ := hderived
      obtain ⟨i, hi⟩ := List.getElem?_of_mem hwriter
      have hfields : reader.maxPlaintextBytes = limit ∧
          reader.sdkVersion = encryption.sdkVersion := by
        rw [Encryption.new] at hreader
        obtain ⟨primary, -, hreader⟩ := Except.bind_eq_ok.mp hreader
        obtain ⟨previous, -, hreader⟩ := Except.bind_eq_ok.mp hreader
        rw [← Except.pure_eq_ok.mp hreader]
        refine ⟨rfl, ?_⟩
        show finalized.envelope.sdkVersion.getD _ = _
        rw [hsdk, Option.getD_some]
      have hwritten : WrittenWith rt writerKey readerOptions.macKey
          (Bytes.ofText finalized.serialized) finalized.envelope := by
        have henvelope := h.envelope
        rw [Sealer.envelope, hencryption] at henvelope
        exact .current hmac hnew henvelope
      have hlength : (Bytes.ofText finalized.serialized).length ≤ reader.maxPlaintextBytes := by
        rw [Bytes.length_ofText, hfields.1]
        exact hlimit
      rw [← hfields.2] at hseparate
      obtain ⟨decrypted, hdecrypted, hplaintext, -⟩ := roundTrip_under_rotation hreader hlength hi
        hwritten hmatching.gcm hmatching.zlib hseparate
      refine ⟨some decrypted.keyIndex, ?_⟩
      have hingest : ingestEncryption (ingestRuntime rt numbers) key options finalized.envelope
          limit = .ok reader := hreader
      have hread : reader.decryptEnvelope (ingestRuntime rt numbers).toCryptoRuntime
          finalized.envelope = .ok (some decrypted) := hdecrypted
      rw [htransparent, if_neg Bool.false_ne_true, openEncrypted, hkey]
      simp only [hingest, hread, hplaintext, Sealer.encrypted, hencryption, Option.isSome_some]

/-! ## Receiving one payload -/

theorem isWatchdogPayload_toJson (envelope : Envelope) :
    isWatchdogPayload envelope.toJson = false := by
  have hsource : stringFieldIs envelope.toJson "source" "watchdog" = false := by
    rw [stringFieldIs, Value.getString?, get?_toJson (by decide) (by decide),
      Envelope.commonFields, Envelope.sdkFields]
    cases envelope.sdkVersion with
    | none => rfl
    | some version => rfl
  rw [isWatchdogPayload, hsource, Bool.and_false, Bool.false_and, Bool.false_and, Bool.false_and,
    Bool.false_and, Bool.false_and, Bool.false_and]

theorem isWatchdogPayload_of_kind {kind : EnvelopeKind}
    (h : classifyPayload inner = kind.payloadKind) : isWatchdogPayload inner = false := by
  by_contra hwatchdog
  rw [classifyPayload, if_pos (Bool.eq_true_of_not_eq_false hwatchdog)] at h
  cases kind with
  | error => cases h
  | payloadBlob => cases h

/-- What the receiver makes of a finished payload. -/
structure Returned (sealer : Sealer) (kind : EnvelopeKind) (inner : Value) (finalized : Finalized)
    (result : IngestedPayload) : Prop where
  kind : result.kind = kind.payloadKind
  payload : result.payload = inner
  rawPayload : result.rawPayload = finalized.serialized
  envelope : result.envelope = some finalized.envelope
  encrypted : result.encrypted = sealer.encrypted

theorem ofValue_toJson (envelope : Envelope) :
    IngestInput.ofValue envelope.toJson = .value envelope.toJson := rfl

/-- A finished payload within the limit comes back as the object that was serialized. -/
theorem Finished.receives (h : Finished rt numbers sealer opts inner finalized)
    (hmatching : MatchingReceiver rt options sealer finalized)
    (hadmitted : Admitted options finalized) :
    ∃ result, receiveIngestEnvelope (ingestRuntime rt numbers)
        (.ofValue finalized.envelope.toJson) options = .ok result ∧
      Returned sealer opts.kind inner finalized result := by
  obtain ⟨limit, hlimit, hsize⟩ := hadmitted
  obtain ⟨keyIndex, hopens⟩ := h.opens hmatching hsize
  have hparses : Json.parse (ingestRuntime rt numbers).formatNumber finalized.serialized =
      some inner := by
    rw [h.serialized]
    exact Json.parse_stringify h.canonical
  have hinner : parseInnerPayload (ingestRuntime rt numbers) finalized.serialized = .ok inner := by
    rw [parseInnerPayload, hparses]
  refine ⟨⟨opts.kind.payloadKind, inner, finalized.serialized, some finalized.envelope,
    sealer.encrypted, keyIndex⟩, ?_, ⟨rfl, rfl, rfl, rfl, rfl⟩⟩
  rw [ofValue_toJson, receiveIngestEnvelope, parseJsonValue, Except.ok_bind,
    isWatchdogPayload_toJson, if_neg Bool.false_ne_true, hlimit, Except.ok_bind,
    parseEnvelope_toJson (h.wellFormed hmatching), Except.ok_bind, hopens, Except.ok_bind,
    enforcePlaintextLimit, if_neg (Nat.not_lt.mpr hsize), Except.ok_bind, hinner, Except.ok_bind,
    h.identity, Except.ok_bind,
    buildIngestedPayload_of_not_watchdog (isWatchdogPayload_of_kind h.kind), h.kind]
  rfl

/-- Whatever is accepted from an envelope has a plaintext within the limit. -/
theorem receive_admitted {irt : IngestRuntime} {envelope : Envelope} {result : IngestedPayload}
    (h : receiveIngestEnvelope irt (.ofValue envelope.toJson) options = .ok result)
    (hraw : result.rawPayload = finalized.serialized) : Admitted options finalized := by
  rw [ofValue_toJson, receiveIngestEnvelope, parseJsonValue, Except.ok_bind,
    isWatchdogPayload_toJson, if_neg Bool.false_ne_true] at h
  obtain ⟨limit, hlimit, h⟩ := Except.bind_eq_ok.mp h
  obtain ⟨_, -, h⟩ := Except.bind_eq_ok.mp h
  obtain ⟨opened, -, h⟩ := Except.bind_eq_ok.mp h
  obtain ⟨_, hsize, h⟩ := Except.bind_eq_ok.mp h
  obtain ⟨inner, -, h⟩ := Except.bind_eq_ok.mp h
  obtain ⟨_, -, h⟩ := Except.bind_eq_ok.mp h
  rw [← Except.pure_eq_ok.mp h] at hraw
  have hopened : opened.rawPayload = finalized.serialized := by
    rw [← hraw]
    cases hwatchdog : isWatchdogPayload inner with
    | true => rw [buildIngestedPayload_watchdog hwatchdog]
    | false => rw [buildIngestedPayload_of_not_watchdog hwatchdog]
  rw [enforcePlaintextLimit, hopened] at hsize
  refine ⟨limit, hlimit, ?_⟩
  by_contra hover
  rw [if_pos (Nat.not_le.mp hover)] at hsize
  cases hsize

/-! ## Whole batches -/

/-- A payload on its way: how it was made, and the call of the store that wrote it. -/
structure Shipment where
  sealer : Sealer
  kind : EnvelopeKind
  object : Value
  finalized : Finalized
  call : LocalEventStore.AppendCall

/-- The store was given the payload that was finished, for a receiver that is configured for it. -/
structure Shipment.Valid (rt : CryptoRuntime) (numbers : Json.NumberFormat)
    (options : IngestEnvelopeOptions) (shipment : Shipment) : Prop where
  produced : ProducedBy rt numbers shipment.sealer shipment.kind shipment.object shipment.finalized
  stored : shipment.call.serialized = shipment.finalized.payload
  matching : MatchingReceiver rt options shipment.sealer shipment.finalized

/-- The record that the transport reads back from the store. -/
def Shipment.record? (numbers : Json.NumberFormat) (shipment : Shipment) :
    Option LocalEventStoreRecord :=
  LocalEventStore.parseRecord numbers (LocalEventStore.recordLine shipment.call.record)

/-- The body that is posted for the shipments. -/
def postedBody (numbers : Json.NumberFormat) (sentAt : Text) (shipments : List Shipment) : Text :=
  WebhookTransport.batchBody numbers sentAt (shipments.filterMap (Shipment.record? numbers))

theorem filterMap_record (shipments : List Shipment) :
    shipments.filterMap (Shipment.record? numbers) = shipments.map (·.call.record) := by
  apply List.filterMap_eq_map_iff_forall_eq_some.mpr
  intro shipment _
  exact LocalEventStore.parseRecord_recordLine shipment.call.record

/-- The shipments are returned in their order, each under the label that it was stored with. -/
def RoundTrips (shipments : List Shipment) (sentAt : Text) (batch : IngestedWebhookBatch) : Prop :=
  batch.sentAt = sentAt ∧
    List.Forall₂ (fun shipment event =>
      event.kind = shipment.call.record.payloadKind.envelopeKind ∧
        Returned shipment.sealer shipment.kind shipment.object shipment.finalized event.payload)
      shipments batch.events

section Batch

variable {shipments : List Shipment} {shipment : Shipment} {sentAt : Text}
variable {batchOptions : ReceiveWebhookBatchOptions}

/-- The body carries the object of the envelope that was stored as text. -/
theorem Shipment.Valid.parsed (h : shipment.Valid rt numbers options) :
    WebhookTransport.parsePayload numbers shipment.call.record.payload =
      shipment.finalized.envelope.toJson := by
  obtain ⟨opts, -, hfinished⟩ := h.produced.finished
  have hpayload : shipment.call.record.payload = shipment.finalized.payload := h.stored
  rw [hpayload, Finalized.payload,
    WebhookTransport.parsePayload_stringify hfinished.canonical_envelope]

/-- What is read from the posted body. -/
theorem parse_postedBody (h : ∀ shipment ∈ shipments, shipment.Valid rt numbers options) :
    Json.parse numbers.print (postedBody numbers sentAt shipments) =
      some (WebhookTransport.batchObject numbers sentAt (shipments.map (·.call.record))) := by
  rw [postedBody, filterMap_record, WebhookTransport.batchBody]
  apply Json.parse_stringify
  apply WebhookTransport.canonical_batchObject
  intro record hrecord
  obtain ⟨shipment, hmem, rfl⟩ := List.mem_map.mp hrecord
  obtain ⟨opts, -, hfinished⟩ := (h shipment hmem).produced.finished
  rw [(h shipment hmem).parsed]
  exact hfinished.canonical_envelope

/-- A posted body is received event by event. -/
theorem receive_postedBody {secret : Option Text} {timestamp : Text} {rawBody : RawBody}
    (h : ∀ shipment ∈ shipments, shipment.Valid rt numbers batchOptions.toIngestEnvelopeOptions)
    (hsecret :
      MatchingSecret rt secret timestamp (postedBody numbers sentAt shipments) batchOptions)
    (hbody : rawBody = .text (postedBody numbers sentAt shipments) ∨
      rawBody = .buffer (Bytes.ofText (postedBody numbers sentAt shipments))) :
    receiveWebhookBatch (ingestRuntime rt numbers) rawBody batchOptions =
      (do
        let events ← (shipments.map fun shipment =>
            WebhookTransport.sentEvent numbers shipment.call.record).mapM
          (receiveWebhookEvent (ingestRuntime rt numbers) batchOptions.toIngestEnvelopeOptions)
        return ⟨sentAt, events⟩) := by
  have hbytes : rawBody.bytes = Bytes.ofText (postedBody numbers sentAt shipments) := by
    obtain rfl | rfl := hbody
    · rfl
    · rfl
  have hparsed : parseJsonValue (ingestRuntime rt numbers) rawBody.input
      "EC_INGEST_INVALID_WEBHOOK_BATCH_JSON" =
        .ok (WebhookTransport.batchObject numbers sentAt (shipments.map (·.call.record))) := by
    have hread : Json.parse (ingestRuntime rt numbers).formatNumber
        (postedBody numbers sentAt shipments) =
          some (WebhookTransport.batchObject numbers sentAt (shipments.map (·.call.record))) :=
      parse_postedBody h
    obtain rfl | rfl := hbody
    · simp only [parseJsonValue, RawBody.input, hread]
    · simp only [parseJsonValue, RawBody.input, CryptoRuntime.bufferToText, Bytes.toText?_ofText,
        Option.getD_some, hread]
  have hcheck : checkWebhookSignature (ingestRuntime rt numbers).toCryptoRuntime rawBody
      batchOptions = .ok () := checkWebhookSignature_of_matching hsecret hbytes
  rw [receiveWebhookBatch, hcheck, Except.ok_bind, hparsed, Except.ok_bind,
    WebhookTransport.parseWebhookBatch_batchObject, Except.ok_bind, List.map_map]
  rfl

/-- The body that is posted for finished payloads is accepted and gives them back in their order,
exactly when every plaintext is within the receiver's limit. -/
theorem postedBody_roundTrips_iff {secret : Option Text} {timestamp : Text} {rawBody : RawBody}
    (h : ∀ shipment ∈ shipments, shipment.Valid rt numbers batchOptions.toIngestEnvelopeOptions)
    (hsecret :
      MatchingSecret rt secret timestamp (postedBody numbers sentAt shipments) batchOptions)
    (hbody : rawBody = .text (postedBody numbers sentAt shipments) ∨
      rawBody = .buffer (Bytes.ofText (postedBody numbers sentAt shipments))) :
    (∃ batch, receiveWebhookBatch (ingestRuntime rt numbers) rawBody batchOptions = .ok batch ∧
        RoundTrips shipments sentAt batch) ↔
      ∀ shipment ∈ shipments, Admitted batchOptions.toIngestEnvelopeOptions shipment.finalized := by
  have heach (shipment : Shipment) (hmem : shipment ∈ shipments) :
      (∃ event, receiveWebhookEvent (ingestRuntime rt numbers) batchOptions.toIngestEnvelopeOptions
          (WebhookTransport.sentEvent numbers shipment.call.record) = .ok event ∧
        event.kind = shipment.call.record.payloadKind.envelopeKind ∧
        Returned shipment.sealer shipment.kind shipment.object shipment.finalized event.payload) ↔
      Admitted batchOptions.toIngestEnvelopeOptions shipment.finalized := by
    rw [WebhookTransport.sentEvent, (h shipment hmem).parsed]
    constructor
    · rintro ⟨event, hevent, -, hreturned⟩
      obtain ⟨payload, hpayload, heq⟩ := Except.bind_eq_ok.mp hevent
      obtain rfl := Except.pure_eq_ok.mp heq
      exact receive_admitted hpayload hreturned.rawPayload
    · intro hadmitted
      obtain ⟨opts, hkind, hfinished⟩ := (h shipment hmem).produced.finished
      obtain ⟨result, hresult, hreturned⟩ :=
        hfinished.receives (h shipment hmem).matching hadmitted
      rw [hkind] at hreturned
      refine ⟨⟨shipment.call.record.payloadKind.envelopeKind, result⟩, ?_, rfl, hreturned⟩
      rw [receiveWebhookEvent, hresult]
      rfl
  rw [receive_postedBody h hsecret hbody, List.mapM_map,
    ← forall₂_congr heach, ← Except.exists_mapM_iff]
  constructor
  · rintro ⟨batch, hreceive, -, hreturned⟩
    obtain ⟨events, hevents, hresult⟩ := Except.bind_eq_ok.mp hreceive
    obtain rfl := Except.pure_eq_ok.mp hresult
    exact ⟨events, hevents, hreturned⟩
  · rintro ⟨events, hevents, hreturned⟩
    exact ⟨⟨sentAt, events⟩, Except.bind_eq_ok.mpr ⟨events, hevents, rfl⟩, rfl, hreturned⟩

end Batch

/-- An accepted batch is homogeneous exactly when its events are labelled with the kinds that their
envelopes name; and what is posted of finished payloads is accepted and gives them back in their
order, whatever the labels are, exactly when their plaintexts are within the limit. -/
theorem webhookBatches_faithful_iff (numbers : Json.NumberFormat) :
    (∀ irt rawBody options batch, receiveWebhookBatch irt rawBody options = .ok batch →
      (Homogeneous batch ↔ ∃ events, SentEvents irt rawBody events ∧
        ∀ event ∈ events, Labelled irt options.toIngestEnvelopeOptions event)) ∧
    ∀ rt options shipments sentAt secret timestamp rawBody,
      (∀ shipment ∈ shipments, Shipment.Valid rt numbers options.toIngestEnvelopeOptions shipment) →
      MatchingSecret rt secret timestamp (postedBody numbers sentAt shipments) options →
      (rawBody = .text (postedBody numbers sentAt shipments) ∨
        rawBody = .buffer (Bytes.ofText (postedBody numbers sentAt shipments))) →
      ((∃ batch, receiveWebhookBatch (ingestRuntime rt numbers) rawBody options = .ok batch ∧
          RoundTrips shipments sentAt batch) ↔
        ∀ shipment ∈ shipments, Admitted options.toIngestEnvelopeOptions shipment.finalized) := by
  refine ⟨fun irt rawBody options batch => homogeneous_iff, ?_⟩
  intro rt options shipments sentAt secret timestamp rawBody hvalid hsecret hbody
  exact postedBody_roundTrips_iff hvalid hsecret hbody

/-! ## A replayed blob -/

theorem literal_nat (n : Nat) (_ : n < 9007199254740992) :
    id (Nat.toDigits 10 n) = Nat.toDigits 10 n := rfl

def literalNumbers : Json.NumberFormat where
  print := id
  print_nat := literal_nat

theorem zeros_length : (List.replicate 12 (0 : UInt8)).length = 12 := rfl

theorem zero_safe : 0 < 9007199254740992 := by decide

def plainSealer : Sealer where
  encryption := none
  sdkVersion := "1"
  nonce := ⟨List.replicate 12 0, zeros_length⟩
  now := 0
  now_safe := zero_safe

def replayedBlob : PayloadBlobEnvelope where
  eventId := "e1"
  blobId := "blob_1"
  requestId := none
  lineageId := none
  mimeType := none
  size := 0
  capturedSize := 0
  sha256 := []
  body := []
  createdAt := "now"

def replayedFinalized : Finalized where
  serialized := Json.stringify replayedBlob.toJson
  envelope :=
    { version := .v2 .payloadBlob (some "blob_1")
      eventId := "e1"
      sdkVersion := some "1"
      keyId := TRANSPARENT_MARKER
      iv := TRANSPARENT_MARKER
      ciphertext := Bytes.toBase64 (Bytes.ofText (Json.stringify replayedBlob.toJson))
      authTag := TRANSPARENT_MARKER
      hmac := TRANSPARENT_MARKER
      compressed := false
      producedAt := "0" }

/-- The blob as a dead letter is sent again: without its kind. -/
def replayedShipment : Shipment where
  sealer := plainSealer
  kind := .payloadBlob
  object := replayedBlob.toJson
  finalized := replayedFinalized
  call :=
    { id := "r1", storedAt := "now", kind := none, serialized := replayedFinalized.payload, now := 0
      renames := true, outcome := .done }

def plainOptions : ReceiveWebhookBatchOptions := { allowUnencrypted := some true }

def replayedBody : RawBody := .text (postedBody literalNumbers "now" [replayedShipment])

theorem replayedShipment_valid :
    replayedShipment.Valid inertRuntime literalNumbers plainOptions.toIngestEnvelopeOptions where
  produced := by
    apply ProducedBy.blob
    · exact List.cons_ne_nil _ _
    · decide
    · decide
    · rfl
  stored := rfl
  matching := rfl

theorem replayedShipment_admitted :
    Admitted plainOptions.toIngestEnvelopeOptions replayedShipment.finalized := by
  refine ⟨DEFAULT_MAX_PLAINTEXT_BYTES, rfl, ?_⟩
  decide +kernel

theorem matchingSecret_plain {secret : Option Text} {timestamp body : Text} :
    MatchingSecret inertRuntime secret timestamp body plainOptions := .inl rfl

theorem replayedBatch_faithful :
    ∃ batch, receiveWebhookBatch (ingestRuntime inertRuntime literalNumbers) replayedBody
        plainOptions = .ok batch ∧
      RoundTrips [replayedShipment] "now" batch ∧
      (Homogeneous batch ↔ ∃ events,
        SentEvents (ingestRuntime inertRuntime literalNumbers) replayedBody events ∧
          ∀ event ∈ events, Labelled (ingestRuntime inertRuntime literalNumbers)
            plainOptions.toIngestEnvelopeOptions event) := by
  obtain ⟨batch, hreceived, hreturned⟩ :=
    ((webhookBatches_faithful_iff literalNumbers).2 inertRuntime plainOptions [replayedShipment]
      "now" none [] replayedBody (List.forall_mem_singleton.mpr replayedShipment_valid)
      matchingSecret_plain (.inl rfl)).mpr (List.forall_mem_singleton.mpr replayedShipment_admitted)
  exact ⟨batch, hreceived, hreturned,
    (webhookBatches_faithful_iff literalNumbers).1 _ _ _ batch hreceived⟩

/-- A blob that is replayed without its kind is returned as a blob in an event of kind `error`. -/
theorem replayedBatch_not_homogeneous :
    ¬ ∀ irt rawBody options batch, receiveWebhookBatch irt rawBody options = .ok batch →
      Homogeneous batch := by
  intro claim
  have hsecret : MatchingSecret inertRuntime none []
      (postedBody literalNumbers "now" [replayedShipment]) plainOptions := matchingSecret_plain
  have hbody : replayedBody = .text (postedBody literalNumbers "now" [replayedShipment]) ∨
      replayedBody =
        .buffer (Bytes.ofText (postedBody literalNumbers "now" [replayedShipment])) := .inl rfl
  have hposted := (postedBody_roundTrips_iff
    (List.forall_mem_singleton.mpr replayedShipment_valid) hsecret hbody).mpr
    (List.forall_mem_singleton.mpr replayedShipment_admitted)
  obtain ⟨batch, hreceived, -, hreturned⟩ := hposted
  have hsame := claim _ _ _ batch hreceived
  rw [Homogeneous] at hsame
  generalize batch.events = events at hsame hreturned
  cases hreturned with
  | cons hevent hrest =>
      obtain ⟨hlabel, hpayload⟩ := hevent
      have hkind := hsame _ List.mem_cons_self
      rw [hpayload.kind, hlabel] at hkind
      exact nomatch hkind

end ErrorCore
