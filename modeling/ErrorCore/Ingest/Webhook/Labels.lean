import ErrorCore.Ingest.Soundness
import ErrorCore.Ingest.Webhook

/-!
# Labels of webhook events

The kind of an event is the sender's, and the receiver passes it on. The kind of
the payload is found anew from the plaintext of the envelope. The two are never
compared, so an accepted batch has them equal exactly when each event holds an
envelope whose own kind is the label, around a payload of a shape that is known.
-/

namespace ErrorCore

open Json (Value)

variable {rt : IngestRuntime} {input : IngestInput} {options : IngestEnvelopeOptions}
variable {result : IngestedPayload} {envelope : Envelope}

/-- The payload is an error package or a payload blob. -/
def Recognised (inner : Value) : Prop :=
  classifyPayload inner = .error ∨ classifyPayload inner = .payloadBlob

/-- The envelope names the kind; one of version 1 leaves it to the shape of the payload. -/
def NamesKind (kind : EnvelopeKind) (inner : Value) : EnvelopeVersion → Prop
  | .v1 => classifyPayload inner = kind.payloadKind
  | .v2 envelopeKind _ => envelopeKind = kind ∧ Recognised inner

/-- The event is labelled with the kind that its envelope names. -/
def Labelled (rt : IngestRuntime) (options : IngestEnvelopeOptions) (event : WebhookEvent) : Prop :=
  ∃ envelope opened inner, Accepted rt (.ofValue event.payload) options envelope opened inner ∧
    NamesKind event.kind inner envelope.version

/-- Each event has the kind of its payload. -/
def Homogeneous (batch : IngestedWebhookBatch) : Prop :=
  ∀ event ∈ batch.events, event.payload.kind = event.kind.payloadKind

theorem EnvelopeKind.payloadKind_injective {a b : EnvelopeKind}
    (h : a.payloadKind = b.payloadKind) : a = b := by
  cases a with
  | error =>
      cases b with
      | error => rfl
      | payloadBlob => exact nomatch h
  | payloadBlob =>
      cases b with
      | error => exact nomatch h
      | payloadBlob => rfl

theorem recognised_payloadKind {inner : Value} {kind : EnvelopeKind}
    (h : classifyPayload inner = kind.payloadKind) : Recognised inner := by
  cases kind with
  | error => exact .inl h
  | payloadBlob => exact .inr h

theorem Recognised.exists_kind {inner : Value} (h : Recognised inner) :
    ∃ kind : EnvelopeKind, classifyPayload inner = kind.payloadKind := by
  cases h with
  | inl herror => exact ⟨.error, herror⟩
  | inr hblob => exact ⟨.payloadBlob, hblob⟩

/-- There is one way to accept an input. -/
theorem Accepted.unique {envelope' : Envelope} {opened opened' : OpenedEnvelope}
    {inner inner' : Value} (h : Accepted rt input options envelope opened inner)
    (h' : Accepted rt input options envelope' opened' inner') :
    envelope = envelope' ∧ opened = opened' ∧ inner = inner' := by
  obtain ⟨parsed, hparsed, -, henvelope⟩ := h.parsed
  obtain ⟨parsed', hparsed', -, henvelope'⟩ := h'.parsed
  obtain rfl := Except.ok.inj (hparsed.symm.trans hparsed')
  obtain rfl := Except.ok.inj (henvelope.symm.trans henvelope')
  obtain ⟨limit, hlimit, hopened⟩ := h.opening
  obtain ⟨limit', hlimit', hopened'⟩ := h'.opening
  obtain rfl := Except.ok.inj (hlimit.symm.trans hlimit')
  obtain rfl := Except.ok.inj (hopened.symm.trans hopened')
  exact ⟨rfl, rfl, Except.ok.inj (h.contents.symm.trans h'.contents)⟩

/-- The identity of an error package or a payload blob is the event id and what the version adds. -/
theorem enforceEnvelopeIdentity_payloadKind (kind : EnvelopeKind) (payload : Value)
    (envelope : Envelope) :
    enforceEnvelopeIdentity kind.payloadKind payload envelope = .ok () ↔
      payload.getString? "eventId" = some envelope.eventId ∧
        enforceVersionIdentity kind.payloadKind payload envelope.version = .ok () := by
  have hcases : enforceEnvelopeIdentity kind.payloadKind payload envelope =
      if payload.getString? "eventId" ≠ some envelope.eventId then
        .error (identityMismatch "Inner payload eventId does not match the envelope eventId")
      else
        enforceVersionIdentity kind.payloadKind payload envelope.version := by
    cases kind with
    | error => rfl
    | payloadBlob => rfl
  rw [hcases]
  split
  · next hevent => exact iff_of_false nofun fun h => hevent h.1
  · next hevent => exact ⟨fun h => ⟨not_not.mp hevent, h⟩, fun h => h.2⟩

/-- A payload of known shape in an envelope of version 2 has the kind of the envelope. -/
theorem Accepted.kind_eq {opened : OpenedEnvelope} {inner : Value} {kind label : EnvelopeKind}
    {blobId : Option Text} (h : Accepted rt input options envelope opened inner)
    (hversion : envelope.version = .v2 kind blobId)
    (hclass : classifyPayload inner = label.payloadKind) : kind = label := by
  have hidentity := h.identity
  rw [hclass, enforceEnvelopeIdentity_payloadKind, hversion, enforceVersionIdentity] at hidentity
  have hsame := hidentity.2
  split at hsame
  · cases hsame
  · next hkind => exact EnvelopeKind.payloadKind_injective (not_not.mp hkind)

/-- What names the kind of an accepted payload is right about it. -/
theorem Accepted.namesKind_iff {opened : OpenedEnvelope} {inner : Value} {kind : EnvelopeKind}
    (h : Accepted rt input options envelope opened inner) :
    NamesKind kind inner envelope.version ↔ classifyPayload inner = kind.payloadKind := by
  cases hversion : envelope.version with
  | v1 => exact Iff.rfl
  | v2 envelopeKind blobId =>
      constructor
      · intro hnames
        obtain ⟨rfl, hknown⟩ := hnames
        obtain ⟨label, hlabel⟩ := hknown.exists_kind
        rw [h.kind_eq hversion hlabel, hlabel]
      · intro hclass
        exact ⟨h.kind_eq hversion hclass, recognised_payloadKind hclass⟩

theorem Accepted.result_kind {opened : OpenedEnvelope} {inner : Value} {kind : EnvelopeKind} :
    (buildIngestedPayload inner opened.rawPayload (some envelope) opened.encrypted
        opened.keyIndex).kind = kind.payloadKind ↔ classifyPayload inner = kind.payloadKind := by
  cases hwatchdog : isWatchdogPayload inner with
  | true =>
      have hclass : classifyPayload inner = .watchdog := by
        rw [classifyPayload, hwatchdog, if_pos rfl]
      rw [buildIngestedPayload_watchdog hwatchdog, hclass]
  | false => rw [buildIngestedPayload_of_not_watchdog hwatchdog]

/-- An accepted event has the kind of its payload exactly when it is labelled with it. -/
theorem receive_kind_iff {event : WebhookEvent}
    (h : receiveIngestEnvelope rt (.ofValue event.payload) options = .ok result) :
    result.kind = event.kind.payloadKind ↔ Labelled rt options event := by
  obtain ⟨parsed, hparsed, hwatchdog, hresult⟩ | ⟨envelope, opened, inner, haccepted, hresult⟩ :=
    receive_cases h
  · rw [hresult, buildIngestedPayload_watchdog hwatchdog]
    constructor
    · intro hkind
      cases hlabel : event.kind with
      | error => exact nomatch hlabel ▸ hkind
      | payloadBlob => exact nomatch hlabel ▸ hkind
    · rintro ⟨envelope, opened, inner, haccepted, -⟩
      obtain ⟨parsed', hparsed', hbare, -⟩ := haccepted.parsed
      obtain rfl := Except.ok.inj (hparsed.symm.trans hparsed')
      exact nomatch hwatchdog.symm.trans hbare
  · rw [hresult, Accepted.result_kind, ← haccepted.namesKind_iff]
    constructor
    · intro hnames
      exact ⟨envelope, opened, inner, haccepted, hnames⟩
    · rintro ⟨envelope', opened', inner', haccepted', hnames⟩
      obtain ⟨rfl, rfl, rfl⟩ := haccepted.unique haccepted'
      exact hnames

/-- An accepted batch is homogeneous exactly when every event of the body is labelled. -/
theorem homogeneous_iff {rawBody : RawBody} {options : ReceiveWebhookBatchOptions}
    {batch : IngestedWebhookBatch} (h : receiveWebhookBatch rt rawBody options = .ok batch) :
    Homogeneous batch ↔ ∃ events, SentEvents rt rawBody events ∧
      ∀ event ∈ events, Labelled rt options.toIngestEnvelopeOptions event := by
  obtain ⟨events, hsent, hreceived⟩ := receiveWebhookBatch_events h
  have hlabels : (∀ event ∈ batch.events, event.payload.kind = event.kind.payloadKind) ↔
      ∀ event ∈ events, Labelled rt options.toIngestEnvelopeOptions event := by
    generalize batch.events = received at hreceived
    clear hsent h
    induction hreceived with
    | nil => exact iff_of_true (List.forall_mem_nil _) (List.forall_mem_nil _)
    | cons hevent _ ih =>
        rw [List.forall_mem_cons, List.forall_mem_cons, ih, hevent.1,
          receive_kind_iff hevent.2]
  constructor
  · intro hsame
    exact ⟨events, hsent, hlabels.mp hsame⟩
  · rintro ⟨events', hsent', hall⟩
    obtain rfl := hsent.unique hsent'
    exact hlabels.mpr hall

end ErrorCore
