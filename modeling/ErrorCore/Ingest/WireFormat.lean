import ErrorCore.Foundation.Except
import ErrorCore.Foundation.Json.RoundTrip
import ErrorCore.Ingest

/-!
# The wire format of envelopes

The object that `encryptToEnvelope` and `buildTransparentEnvelope` build, with
its properties in their order, and the parser of `src/ingest/index.ts` on it.
-/

namespace ErrorCore

open Json (Value)

/-- `v`. -/
def EnvelopeVersion.number : EnvelopeVersion → Text
  | .v1 => "1"
  | .v2 _ _ => "2"

/-- The properties that only version 2 has. -/
def EnvelopeVersion.fields : EnvelopeVersion → List (Text × Value)
  | .v1 => []
  | .v2 kind none => [("kind", .string kind.text)]
  | .v2 kind (some blobId) => [("kind", .string kind.text), ("blobId", .string blobId)]

def Envelope.sdkFields (envelope : Envelope) : List (Text × Value) :=
  match envelope.sdkVersion with
  | none => []
  | some version =>
      [("sdk", .object [("name", .string "errorcore"), ("version", .string version)])]

/-- The properties after `sdk`. -/
def Envelope.sealedFields (envelope : Envelope) : List (Text × Value) :=
  [("keyId", .string envelope.keyId), ("iv", .string envelope.iv),
    ("ciphertext", .string envelope.ciphertext), ("authTag", .string envelope.authTag),
    ("hmac", .string envelope.hmac), ("compressed", .bool envelope.compressed),
    ("producedAt", .number envelope.producedAt)]

def Envelope.toJson (envelope : Envelope) : Value :=
  .object (("v", .number envelope.version.number) :: ("eventId", .string envelope.eventId) ::
    (envelope.version.fields ++ (envelope.sdkFields ++ envelope.sealedFields)))

/-- What the parser asks of an envelope, besides the types of its properties. -/
structure Envelope.WellFormed (envelope : Envelope) : Prop where
  eventId : envelope.eventId ≠ []
  keyId : envelope.keyId ≠ []
  iv : envelope.iv ≠ []
  ciphertext : envelope.ciphertext ≠ []
  authTag : envelope.authTag ≠ []
  hmac : envelope.hmac ≠ []
  sdkVersion : envelope.sdkVersion.isSome = true
  coherent : envelope.version.assertCoherence = .ok ()

variable {envelope : Envelope} {value : Value} {name text : Text}

theorem requiredString_ok (h : value.getString? name = some text) (hne : text ≠ []) :
    requiredString value name = .ok text := by
  cases text with
  | nil => exact absurd rfl hne
  | cons c rest => rw [requiredString, h]

/-- The fields of version 2 read back as the kind and the blob id. -/
theorem parseVersion2_of_fields {kind : EnvelopeKind} {blobId : Option Text}
    (hkind : value.get? "kind" = some (.string kind.text))
    (hblob : value.get? "blobId" = blobId.map .string)
    (hcoherent : assertKindBlobIdCoherence kind blobId = .ok ()) :
    parseVersion2 value = .ok (.v2 kind blobId) := by
  have hstring : value.getString? "kind" = some kind.text := by
    rw [Value.getString?, hkind]
  cases kind with
  | payloadBlob =>
      have hpayload : stringFieldIs value "kind" "payload_blob" = true := by
        rw [stringFieldIs, hstring]
        rfl
      match blobId, hblob, hcoherent with
      | none, _, hnone => exact nomatch hnone
      | some [], _, hempty => exact nomatch hempty
      | some (c :: rest), hblob, _ =>
          have hid : value.getString? "blobId" = some (c :: rest) := by
            rw [Value.getString?, hblob]
            rfl
          rw [parseVersion2, hpayload, if_pos rfl, hid]
  | error =>
      have hpayload : stringFieldIs value "kind" "payload_blob" = false := by
        rw [stringFieldIs, hstring]
        decide
      have herror : stringFieldIs value "kind" "error" = true := by
        rw [stringFieldIs, hstring]
        rfl
      match blobId, hblob, hcoherent with
      | some blobId, _, hsome => exact nomatch hsome
      | none, hblob, _ =>
          rw [Option.map_none] at hblob
          rw [parseVersion2, hpayload, if_neg Bool.false_ne_true, herror, if_pos rfl, hblob]

/-- The common fields of an envelope are read. -/
theorem envelopeShape_toJson {version : Text} (hsdk : envelope.sdkVersion = some version) :
    envelopeShape? envelope.toJson = some
      { isV1 := envelope.version = .v1, sdkVersion := version, compressed := envelope.compressed
        producedAt := envelope.producedAt } := by
  obtain ⟨envelopeVersion, eventId, sdkVersion, keyId, iv, ciphertext, authTag, hmac, compressed,
    producedAt⟩ := envelope
  obtain rfl := hsdk
  match envelopeVersion with
  | .v1 => rfl
  | .v2 kind none => rfl
  | .v2 kind (some blobId) => rfl

/-- The properties of both versions. -/
def Envelope.commonFields (envelope : Envelope) : List (Text × Value) :=
  ("v", .number envelope.version.number) :: ("eventId", .string envelope.eventId) ::
    (envelope.sdkFields ++ envelope.sealedFields)

theorem EnvelopeVersion.lookup_fields {version : EnvelopeVersion} (hkind : name ≠ "kind")
    (hblob : name ≠ "blobId") : version.fields.lookup name = none := by
  have hkind' : (name == ("kind" : Text)) = false := beq_eq_false_iff_ne.mpr hkind
  have hblob' : (name == ("blobId" : Text)) = false := beq_eq_false_iff_ne.mpr hblob
  match version with
  | .v1 => rfl
  | .v2 kind none => rw [fields, List.lookup_cons, hkind', List.lookup_nil]
  | .v2 kind (some blobId) =>
      rw [fields, List.lookup_cons, hkind', List.lookup_cons, hblob', List.lookup_nil]

/-- Only the kind and the blob id depend on the version's own properties. -/
theorem get?_toJson (hkind : name ≠ "kind") (hblob : name ≠ "blobId") :
    envelope.toJson.get? name = envelope.commonFields.lookup name := by
  rw [Envelope.toJson, Value.get?, Envelope.commonFields, List.lookup_cons, List.lookup_cons,
    List.lookup_append, EnvelopeVersion.lookup_fields hkind hblob, Option.none_or,
    List.lookup_cons, List.lookup_cons]

/-- The kind and the blob id of version 2. -/
theorem get?_toJson_version {kind : EnvelopeKind} {blobId : Option Text}
    (h : envelope.version = .v2 kind blobId) (hsdk : envelope.sdkVersion.isSome = true) :
    envelope.toJson.get? "kind" = some (.string kind.text) ∧
      envelope.toJson.get? "blobId" = blobId.map .string := by
  obtain ⟨version, hsdk⟩ := Option.isSome_iff_exists.mp hsdk
  rw [Envelope.toJson, h, Envelope.sdkFields, hsdk]
  cases blobId with
  | none => exact ⟨rfl, rfl⟩
  | some blobId => exact ⟨rfl, rfl⟩

/-- What the parser reads from a well-formed envelope is the envelope. -/
theorem parseEnvelope_toJson (h : envelope.WellFormed) :
    parseEnvelope envelope.toJson = .ok envelope := by
  obtain ⟨version, hsdk⟩ := Option.isSome_iff_exists.mp h.sdkVersion
  have hread (name : Text) {text : Text} (hkind : name ≠ "kind") (hblob : name ≠ "blobId")
      (hlookup : envelope.commonFields.lookup name = some (.string text)) (hne : text ≠ []) :
      requiredString envelope.toJson name = .ok text := by
    apply requiredString_ok _ hne
    rw [Value.getString?, get?_toJson hkind hblob, hlookup]
  rw [Envelope.commonFields, Envelope.sdkFields, hsdk] at hread
  have hrecord : isRecord envelope.toJson = true := rfl
  rw [parseEnvelope, if_neg (not_not.mpr hrecord), envelopeShape_toJson hsdk]
  simp only [decide_eq_true_eq]
  rw [hread "eventId" (by decide) (by decide) rfl h.eventId,
    hread "keyId" (by decide) (by decide) rfl h.keyId, hread "iv" (by decide) (by decide) rfl h.iv,
    hread "ciphertext" (by decide) (by decide) rfl h.ciphertext,
    hread "authTag" (by decide) (by decide) rfl h.authTag,
    hread "hmac" (by decide) (by decide) rfl h.hmac]
  simp only [Except.ok_bind]
  rw [← hsdk]
  have hcoherent := h.coherent
  cases hversion : envelope.version with
  | v1 => rw [if_pos rfl, ← hversion]; rfl
  | v2 kind blobId =>
      obtain ⟨hkind, hblob⟩ := get?_toJson_version hversion h.sdkVersion
      rw [hversion] at hcoherent
      rw [if_neg EnvelopeVersion.noConfusion, parseVersion2_of_fields hkind hblob hcoherent, ← hversion]
      rfl

/-! ## The text -/

theorem EnvelopeVersion.number_canonical (numbers : Json.NumberFormat)
    (version : EnvelopeVersion) : Json.NumberText numbers.print version.number := by
  cases version with
  | v1 => exact numbers.numberText_digit (show 1 < 10 by decide)
  | v2 kind blobId => exact numbers.numberText_digit (show 2 < 10 by decide)

theorem EnvelopeVersion.fields_names (version : EnvelopeVersion) :
    (version.fields.map Prod.fst).Sublist ["kind", "blobId"] := by
  match version with
  | .v1 => exact List.nil_sublist _
  | .v2 kind none => exact (List.nil_sublist _).cons_cons _
  | .v2 kind (some blobId) => exact List.Sublist.refl _

theorem Envelope.sdkFields_names (envelope : Envelope) :
    (envelope.sdkFields.map Prod.fst).Sublist ["sdk"] := by
  rw [sdkFields]
  cases envelope.sdkVersion with
  | none => exact List.nil_sublist _
  | some version => exact List.Sublist.refl _

/-- No property is written twice. -/
theorem nodup_toJson (envelope : Envelope) :
    ((("v", Value.number envelope.version.number) :: ("eventId", .string envelope.eventId) ::
      (envelope.version.fields ++ (envelope.sdkFields ++ envelope.sealedFields)) :
        List (Text × Value)).map Prod.fst).Nodup := by
  have hall : ("v" :: "eventId" :: (["kind", "blobId"] ++ (["sdk"] ++
      ["keyId", "iv", "ciphertext", "authTag", "hmac", "compressed", "producedAt"])) :
        List Text).Nodup := by
    decide
  apply List.Nodup.sublist _ hall
  rw [List.map_cons, List.map_cons, List.map_append, List.map_append]
  apply List.Sublist.cons_cons
  apply List.Sublist.cons_cons
  apply envelope.version.fields_names.append
  exact envelope.sdkFields_names.append (List.Sublist.refl _)

/-- The object of an envelope reads back, when the time is a number that does. -/
theorem canonical_toJson {numbers : Json.NumberFormat}
    (h : Json.NumberText numbers.print envelope.producedAt) :
    Json.Canonical numbers.print envelope.toJson := by
  refine ⟨nodup_toJson envelope, ?_⟩
  rw [Json.canonicalFields_iff]
  have hversion : ∀ field ∈ envelope.version.fields, Json.Canonical numbers.print field.2 := by
    match envelope.version with
    | .v1 => exact List.forall_mem_nil _
    | .v2 kind none => exact List.forall_mem_singleton.mpr trivial
    | .v2 kind (some blobId) =>
        exact List.forall_mem_cons.mpr ⟨trivial, List.forall_mem_singleton.mpr trivial⟩
  have hsdk : ∀ field ∈ envelope.sdkFields, Json.Canonical numbers.print field.2 := by
    rw [Envelope.sdkFields]
    cases envelope.sdkVersion with
    | none => exact List.forall_mem_nil _
    | some version =>
        have hnames : (["name", "version"] : List Text).Nodup := by decide
        exact List.forall_mem_singleton.mpr ⟨hnames, trivial, trivial, trivial⟩
  have hsealed : ∀ field ∈ envelope.sealedFields, Json.Canonical numbers.print field.2 :=
    (Json.canonicalFields_iff _).mp
      ⟨trivial, trivial, trivial, trivial, trivial, trivial, h, trivial⟩
  rw [List.forall_mem_cons, List.forall_mem_cons, List.forall_mem_append, List.forall_mem_append]
  exact ⟨envelope.version.number_canonical numbers, trivial, hversion, hsdk, hsealed⟩

end ErrorCore
