import ErrorCore.Ingest.Webhook
import ErrorCore.Transport.WebhookTransport

/-!
# Posted batches

The request that `sendBatchOnce` makes of a batch of records: the body, and the
header that signs it. The text of a payload is parsed again before the body is
written; a text that is not JSON goes in as a string.
-/

namespace ErrorCore

open Json (Value)

def LocalEventStore.PayloadKind.envelopeKind : LocalEventStore.PayloadKind → EnvelopeKind
  | .error => .error
  | .payload_blob => .payloadBlob

namespace WebhookTransport

variable (numbers : Json.NumberFormat)

def parsePayload (payload : Text) : Value :=
  (Json.parse numbers.print payload).getD (.string payload)

def batchEvent (record : LocalEventStoreRecord) : Value :=
  .object [("kind", .string record.payloadKind.text),
    ("payload", parsePayload numbers record.payload)]

def batchObject (sentAt : Text) (records : List LocalEventStoreRecord) : Value :=
  .object [("version", .number "1"), ("kind", .string "errorcore.webhook_batch"),
    ("sentAt", .string sentAt), ("events", .array (records.map (batchEvent numbers)))]

def batchBody (sentAt : Text) (records : List LocalEventStoreRecord) : Text :=
  Json.stringify (batchObject numbers sentAt records)

/-- The header that signs a body, when there is a secret. -/
def signatureHeaders (rt : CryptoRuntime) (secret : Option Text) (body : Text) :
    List (Text × HeaderValue) :=
  match secret with
  | none => []
  | some secret =>
      [("X-Errorcore-Webhook-Signature", .text (webhookSignature rt secret (Bytes.ofText body)))]

/-- The headers of the request. -/
def batchHeaders (rt : CryptoRuntime) (secret : Option Text) (timestamp body : Text) :
    List (Text × HeaderValue) :=
  ("content-type", .text "application/json") ::
    ("content-length", .text (Nat.toDigits 10 (Bytes.ofText body).length)) ::
    ("X-Errorcore-Webhook-Timestamp", .text timestamp) :: signatureHeaders rt secret body

/-- An event as the receiver reads it. -/
def sentEvent (record : LocalEventStoreRecord) : WebhookEvent where
  kind := record.payloadKind.envelopeKind
  payload := parsePayload numbers record.payload

variable {numbers} {sentAt : Text} {records : List LocalEventStoreRecord}

theorem parsePayload_stringify {value : Value} (h : Json.Canonical numbers.print value) :
    parsePayload numbers (Json.stringify value) = value := by
  rw [parsePayload, Json.parse_stringify h, Option.getD_some]

theorem canonical_batchObject
    (h : ∀ record ∈ records, Json.Canonical numbers.print (parsePayload numbers record.payload)) :
    Json.Canonical numbers.print (batchObject numbers sentAt records) := by
  have hbatch : (["version", "kind", "sentAt", "events"] : List Text).Nodup := by decide
  have hevent : (["kind", "payload"] : List Text).Nodup := by decide
  refine ⟨hbatch, numbers.numberText_digit (show 1 < 10 by decide), trivial, trivial, ?_, trivial⟩
  apply (Json.canonicalItems_iff _).mpr
  intro item hitem
  obtain ⟨record, hrecord, rfl⟩ := List.mem_map.mp hitem
  exact ⟨hevent, trivial, h record hrecord, trivial⟩

theorem parseWebhookEvent_batchEvent (record : LocalEventStoreRecord) :
    parseWebhookEvent (batchEvent numbers record) = .ok (sentEvent numbers record) := by
  rw [batchEvent, sentEvent]
  cases record.payloadKind with
  | error => rfl
  | payload_blob => rfl

/-- The receiver reads the events of a posted batch in their order. -/
theorem parseWebhookBatch_batchObject :
    parseWebhookBatch (batchObject numbers sentAt records) =
      .ok ⟨sentAt, records.map (sentEvent numbers)⟩ := by
  have hevents : (records.map (batchEvent numbers)).mapM parseWebhookEvent =
      .ok (records.map (sentEvent numbers)) := by
    apply Except.mapM_of_forall₂
    rw [List.forall₂_map_left_iff, List.forall₂_map_right_iff, List.forall₂_same]
    intro record _
    exact parseWebhookEvent_batchEvent record
  have hshape : parseWebhookBatch (batchObject numbers sentAt records) =
      (do
        let events ← (records.map (batchEvent numbers)).mapM parseWebhookEvent
        return ⟨sentAt, events⟩) := rfl
  rw [hshape, hevents]
  rfl

/-- The header of the signature, as the receiver looks it up in what was sent. -/
theorem getHeader_batchHeaders (rt : CryptoRuntime) (secret timestamp body : Text) :
    getHeader (.record (batchHeaders rt (some secret) timestamp body)) SIGNATURE_HEADER =
      some (webhookSignature rt secret (Bytes.ofText body)) := rfl

end WebhookTransport

/-- The signature header of the request reaches the receiver as it was sent. -/
def Arrives (sent : List (Text × HeaderValue)) (headers : IngestHeaders) : Prop :=
  getHeader headers SIGNATURE_HEADER = getHeader (.record sent) SIGNATURE_HEADER

/-- The receiver expects no signature, or the one of the sender's secret. -/
def MatchingSecret (rt : CryptoRuntime) (secret : Option Text) (timestamp body : Text)
    (options : ReceiveWebhookBatchOptions) : Prop :=
  options.secret = none ∨
    options.secret = secret ∧
      ∃ headers, options.headers = some headers ∧
        Arrives (WebhookTransport.batchHeaders rt secret timestamp body) headers

theorem checkWebhookSignature_of_matching {rt : CryptoRuntime} {secret : Option Text}
    {timestamp body : Text} {options : ReceiveWebhookBatchOptions} {rawBody : RawBody}
    (h : MatchingSecret rt secret timestamp body options)
    (hbody : rawBody.bytes = Bytes.ofText body) :
    checkWebhookSignature rt rawBody options = .ok () := by
  rw [checkWebhookSignature]
  obtain hnone | ⟨hsecret, headers, hheaders, harrives⟩ := h
  · rw [hnone]
  · cases secret with
    | none => rw [hsecret]
    | some secret =>
        have hverified : verifyWebhookSignature rt rawBody secret headers = true := by
          rw [verifyWebhookSignature, harrives, WebhookTransport.getHeader_batchHeaders, hbody]
          have hstarts : Text.startsWith (webhookSignature rt secret (Bytes.ofText body))
              SIGNATURE_PREFIX = true := List.isPrefixOf_iff_prefix.mpr (List.prefix_append _ _)
          exact (Bool.and_eq_true _ _).mpr ⟨hstarts, decide_eq_true rfl⟩
        rw [hsecret, hheaders]
        exact if_pos hverified

end ErrorCore
