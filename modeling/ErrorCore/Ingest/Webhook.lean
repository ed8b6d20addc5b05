import ErrorCore.Foundation.Except
import ErrorCore.Ingest

/-!
# Webhook batches

The receiver of batches in `src/ingest/index.ts`: the signature over the raw
body, the shape of the batch, and the envelope that each event carries. The
payload of an event can be any JSON value; a string is parsed once more.
-/

namespace ErrorCore

open Json (Value)

/-- A value in a record of headers. -/
inductive HeaderValue
  | undefined
  | text (value : Text)
  | list (values : List Text)
  deriving DecidableEq, Repr

def HeaderValue.first : HeaderValue → Option Text
  | .undefined => none
  | .text value => some value
  | .list values => values.head?

/-- An object with a `get` method, or the entries of a record. -/
inductive IngestHeaders
  | getter (get : Text → Option Text)
  | record (entries : List (Text × HeaderValue))

def getHeader (headers : IngestHeaders) (name : Text) : Option Text :=
  match headers with
  | .getter get => get name
  | .record entries =>
      (entries.find? fun entry => Text.toLowerCase entry.1 = Text.toLowerCase name).bind
        (·.2.first)

/-- The body of a request as it came in. -/
inductive RawBody
  | text (value : Text)
  | buffer (value : Bytes)

def RawBody.bytes : RawBody → Bytes
  | .text value => Bytes.ofText value
  | .buffer value => value

def RawBody.input : RawBody → IngestInput
  | .text value => .text value
  | .buffer value => .buffer value

/-- A parsed value as an input: only a string is parsed again. -/
def IngestInput.ofValue : Value → IngestInput
  | .string json => .text json
  | parsed => .value parsed

structure ReceiveWebhookBatchOptions extends IngestEnvelopeOptions where
  secret : Option Text := none
  headers : Option IngestHeaders := none

structure WebhookEvent where
  kind : EnvelopeKind
  payload : Value

structure WebhookBatch where
  sentAt : Text
  events : List WebhookEvent

structure IngestedWebhookEvent where
  kind : EnvelopeKind
  payload : IngestedPayload

structure IngestedWebhookBatch where
  sentAt : Text
  events : List IngestedWebhookEvent

def SIGNATURE_HEADER : Text := "x-errorcore-webhook-signature"

def SIGNATURE_PREFIX : Text := "sha256="

/-- What a body is signed with. -/
def webhookSignature (rt : CryptoRuntime) (secret : Text) (body : Bytes) : Text :=
  SIGNATURE_PREFIX ++ Bytes.toHex (rt.hmacSha256 (Bytes.ofText secret) body)

def verifyWebhookSignature (rt : CryptoRuntime) (rawBody : RawBody) (secret : Text)
    (headers : IngestHeaders) : Bool :=
  match getHeader headers SIGNATURE_HEADER with
  | none => false
  | some actual =>
      Text.startsWith actual SIGNATURE_PREFIX &&
        Bytes.ofText actual = Bytes.ofText (webhookSignature rt secret rawBody.bytes)

def invalidBatch (message : Text) : IngestFailure :=
  ingestError "EC_INGEST_INVALID_WEBHOOK_BATCH" message 400

def parseEventKind (event : Value) : Option EnvelopeKind :=
  if stringFieldIs event "kind" "error" then some .error
  else if stringFieldIs event "kind" "payload_blob" then some .payloadBlob
  else none

def parseWebhookEvent (event : Value) : Except IngestFailure WebhookEvent :=
  match parseEventKind event, event.get? "payload" with
  | some kind, some payload => .ok ⟨kind, payload⟩
  | _, _ => .error (invalidBatch "Webhook batch event shape is invalid")

def parseWebhookBatch (input : Value) : Except IngestFailure WebhookBatch :=
  match numberFieldIs input "version" "1" && stringFieldIs input "kind" "errorcore.webhook_batch",
    input.getString? "sentAt", input.get? "events" with
  | true, some sentAt, some (.array events) => do
      let events ← events.mapM parseWebhookEvent
      return ⟨sentAt, events⟩
  | _, _, _ => .error (invalidBatch "Webhook batch shape is invalid")

/-- The check of the signature, when a secret is configured. -/
def checkWebhookSignature (rt : CryptoRuntime) (rawBody : RawBody)
    (options : ReceiveWebhookBatchOptions) : Except IngestFailure Unit :=
  match options.secret, options.headers with
  | none, _ => .ok ()
  | some _, none =>
      .error (ingestError "EC_INGEST_WEBHOOK_SIGNATURE_MISSING"
        "Webhook signature headers are required when a secret is configured" 401)
  | some secret, some headers =>
      if verifyWebhookSignature rt rawBody secret headers then .ok ()
      else
        .error (ingestError "EC_INGEST_WEBHOOK_SIGNATURE_INVALID"
          "Webhook signature verification failed" 401)

section Receive

variable (rt : IngestRuntime)

/-- An event with the envelope in it opened. -/
def receiveWebhookEvent (options : IngestEnvelopeOptions) (event : WebhookEvent) :
    Except IngestFailure IngestedWebhookEvent := do
  let payload ← receiveIngestEnvelope rt (.ofValue event.payload) options
  return ⟨event.kind, payload⟩

def receiveWebhookBatch (rawBody : RawBody) (options : ReceiveWebhookBatchOptions) :
    Except IngestFailure IngestedWebhookBatch := do
  checkWebhookSignature rt.toCryptoRuntime rawBody options
  let parsed ← parseJsonValue rt rawBody.input "EC_INGEST_INVALID_WEBHOOK_BATCH_JSON"
  let batch ← parseWebhookBatch parsed
  let events ← batch.events.mapM (receiveWebhookEvent rt options.toIngestEnvelopeOptions)
  return ⟨batch.sentAt, events⟩

end Receive

/-! ## Batches that are accepted -/

variable {rt : IngestRuntime} {rawBody : RawBody} {options : ReceiveWebhookBatchOptions}
variable {batch : IngestedWebhookBatch}

/-- The events of a body that is accepted, before their envelopes are opened. -/
def SentEvents (rt : IngestRuntime) (rawBody : RawBody) (events : List WebhookEvent) : Prop :=
  ∃ parsed batch, parseJsonValue rt rawBody.input "EC_INGEST_INVALID_WEBHOOK_BATCH_JSON" =
      .ok parsed ∧
    parseWebhookBatch parsed = .ok batch ∧ batch.events = events

theorem SentEvents.unique {events other : List WebhookEvent} (h : SentEvents rt rawBody events)
    (hother : SentEvents rt rawBody other) : events = other := by
  obtain ⟨parsed, sent, hparsed, hsent, rfl⟩ := h
  obtain ⟨parsed', sent', hparsed', hsent', rfl⟩ := hother
  obtain rfl := Except.ok.inj (hparsed.symm.trans hparsed')
  obtain rfl := Except.ok.inj (hsent.symm.trans hsent')
  rfl

/-- The events of the result are those of the body, in their order and with their kinds. -/
theorem receiveWebhookBatch_events (h : receiveWebhookBatch rt rawBody options = .ok batch) :
    ∃ events, SentEvents rt rawBody events ∧
      List.Forall₂ (fun sent event => event.kind = sent.kind ∧
        receiveIngestEnvelope rt (.ofValue sent.payload) options.toIngestEnvelopeOptions =
          .ok event.payload) events batch.events := by
  rw [receiveWebhookBatch] at h
  obtain ⟨-, -, h⟩ := Except.bind_eq_ok.mp h
  obtain ⟨parsed, hparsed, h⟩ := Except.bind_eq_ok.mp h
  obtain ⟨sent, hsent, h⟩ := Except.bind_eq_ok.mp h
  obtain ⟨events, hevents, h⟩ := Except.bind_eq_ok.mp h
  obtain rfl := Except.pure_eq_ok.mp h
  refine ⟨sent.events, ⟨parsed, sent, hparsed, hsent, rfl⟩, ?_⟩
  apply (Except.forall₂_of_mapM hevents).imp
  intro event received hreceived
  obtain ⟨payload, hpayload, hevent⟩ := Except.bind_eq_ok.mp hreceived
  obtain rfl := Except.pure_eq_ok.mp hevent
  exact ⟨rfl, hpayload⟩

end ErrorCore
