import ErrorCore.Foundation.Json.RoundTrip
import ErrorCore.Transport.DeadLetterStore

/-!
# Lines of the dead-letter file

A line that was written for an envelope is read back as it by the parser without
checks. The parser of a store is that one with checks on what it finds: the date,
the signature, and the payload or the code.
-/

namespace ErrorCore.DeadLetterStore

variable (rt : Runtime) (opts writer : DeadLetterStoreOptions)

/-! ## The two parsers -/

/-- The checks of the reader on a payload. -/
def passesReader (payload : Text) : Bool :=
  Text.byteLength payload ≠ 0 && Text.byteLength payload ≤ opts.maxPayloadBytes &&
    (!opts.requireEncryptedPayload || isEncryptedPayloadFormat rt payload)

def acceptsContent : Content → Bool
  | .payload _ payload => passesReader rt opts payload
  | .marker code => code ≠ []

/-- The checks of the reader on an envelope. -/
def accepts (envelope : DeadLetterEnvelope) : Bool :=
  (rt.parseDate envelope.storedAt).isSome &&
    verifyMac opts envelope.toUnsignedEnvelope envelope.mac &&
    acceptsContent rt opts envelope.content

theorem parsePayloadContent_eq {parsed : Json.Value} {payload : Text}
    (hpayload : parsed.getString? "payload" = some payload) :
    parsePayloadContent rt opts parsed =
      if passesReader rt opts payload then
        match parsed.get? "id" with
        | none => some (.payload none payload)
        | some (.string id) => some (.payload (some id) payload)
        | some _ => none
      else none := by
  rw [parsePayloadContent, hpayload]
  dsimp only
  by_cases hsize : Text.byteLength payload = 0 ∨ opts.maxPayloadBytes < Text.byteLength payload
  · have hfails : passesReader rt opts payload = false := by
      rw [passesReader]
      rcases hsize with hempty | hlarge
      · simp [hempty]
      · simp [Nat.not_le.mpr hlarge]
    rw [if_pos hsize, hfails, if_neg Bool.false_ne_true]
  · obtain ⟨hne, hle⟩ := not_or.mp hsize
    have hformat : passesReader rt opts payload =
        !(opts.requireEncryptedPayload && !isEncryptedPayloadFormat rt payload) := by
      rw [passesReader]
      simp [hne, Nat.not_lt.mp hle]
    rw [if_neg hsize, hformat]
    cases opts.requireEncryptedPayload && !isEncryptedPayloadFormat rt payload with
    | false => rfl
    | true => rfl

/-- The reader checks what the parser without checks finds. -/
theorem parseContent_eq (parsed : Json.Value) :
    parseContent rt opts parsed = (parseRawContent parsed).filter (acceptsContent rt opts) := by
  rw [parseContent, parseRawContent]
  by_cases hkind : parsed.getString? "kind" = some "payload"
  · rw [if_pos hkind, if_pos hkind]
    cases hpayload : parsed.getString? "payload" with
    | none =>
        rw [parsePayloadContent, hpayload]
        rfl
    | some payload =>
        rw [parsePayloadContent_eq rt opts hpayload]
        cases hreader : passesReader rt opts payload with
        | false =>
            rw [if_neg Bool.false_ne_true]
            cases parsed.get? "id" with
            | none => simp [Option.filter, acceptsContent, hreader]
            | some id =>
                cases id with
                | string id => simp [Option.filter, acceptsContent, hreader]
                | _ => rfl
        | true =>
            rw [if_pos rfl]
            cases parsed.get? "id" with
            | none => simp [Option.filter, acceptsContent, hreader]
            | some id =>
                cases id with
                | string id => simp [Option.filter, acceptsContent, hreader]
                | _ => rfl
  · rw [if_neg hkind, if_neg hkind]
    by_cases hmarker : parsed.getString? "kind" = some "marker"
    · rw [if_pos hmarker, if_pos hmarker]
      cases parsed.getString? "code" with
      | none => rfl
      | some code =>
          by_cases hcode : code = []
          · simp [Option.filter, acceptsContent, hcode]
          · simp [Option.filter, acceptsContent, hcode]
    · rw [if_neg hmarker, if_neg hmarker]
      rfl

/-- The parser of a store is the one without checks, with its checks. -/
theorem parseEnvelope_eq (line : Text) :
    parseEnvelope rt opts line = (parseRawEnvelope rt line).filter (accepts rt opts) := by
  rw [parseEnvelope, parseRawEnvelope]
  cases Json.parse rt.numbers.print line with
  | none => rfl
  | some parsed =>
      dsimp only
      by_cases hversion : parsed.getNumber? "version" = some "1"
      · rw [if_pos hversion, if_pos hversion, parseContent_eq]
        cases parsed.getString? "storedAt" with
        | none => rfl
        | some storedAt =>
            cases parsed.getString? "mac" with
            | none => rfl
            | some mac =>
                cases parseRawContent parsed with
                | none => rfl
                | some content =>
                    cases hcontent : acceptsContent rt opts content with
                    | false => simp [Option.filter, accepts, hcontent]
                    | true =>
                        cases hchecks : (rt.parseDate storedAt).isSome &&
                            verifyMac opts { storedAt, content } mac with
                        | false => simp [Option.filter, accepts, hcontent, hchecks]
                        | true => simp [Option.filter, accepts, hcontent, hchecks]
      · rw [if_neg hversion, if_neg hversion]
        rfl

theorem parseRawEnvelope_of_parseEnvelope {line : Text} {envelope : DeadLetterEnvelope}
    (h : parseEnvelope rt opts line = some envelope) :
    parseRawEnvelope rt line = some envelope ∧
      verifyMac opts envelope.toUnsignedEnvelope envelope.mac = true := by
  rw [parseEnvelope_eq, Option.filter_eq_some_iff] at h
  obtain ⟨hraw, haccepts⟩ := h
  rw [accepts, Bool.and_eq_true, Bool.and_eq_true] at haccepts
  exact ⟨hraw, haccepts.1.2⟩

/-! ## Written envelopes -/

/-- What `JSON.parse` makes of a line. -/
def DeadLetterEnvelope.record (envelope : DeadLetterEnvelope) : Json.Value :=
  .object (envelope.fields ++ [(("mac" : Text), .string envelope.mac)])

theorem parse_stringify (envelope : DeadLetterEnvelope) :
    Json.parse rt.numbers.print envelope.stringify = some envelope.record := by
  have hversion := rt.numbers.numberText_digit (show 1 < 10 by decide)
  apply Json.parse_stringify
  obtain ⟨⟨storedAt, content⟩, mac⟩ := envelope
  cases content with
  | payload id payload =>
      cases id with
      | none =>
          have distinct :
              (["version", "kind", "storedAt", "payload", "mac"] : List Text).Nodup := by decide
          exact ⟨distinct, hversion, trivial, trivial, trivial, trivial, trivial⟩
      | some id =>
          have distinct :
              (["version", "kind", "storedAt", "id", "payload", "mac"] : List Text).Nodup := by
            decide
          exact ⟨distinct, hversion, trivial, trivial, trivial, trivial, trivial, trivial⟩
  | marker code =>
      have distinct :
          (["version", "kind", "storedAt", "code", "mac"] : List Text).Nodup := by decide
      exact ⟨distinct, hversion, trivial, trivial, trivial, trivial, trivial⟩

/-- What was written for an envelope is read back as it. -/
theorem parseRawEnvelope_stringify (envelope : DeadLetterEnvelope) :
    parseRawEnvelope rt envelope.stringify = some envelope := by
  obtain ⟨⟨storedAt, content⟩, mac⟩ := envelope
  rw [parseRawEnvelope, parse_stringify]
  cases content with
  | payload id payload =>
      cases id with
      | none => rfl
      | some id => rfl
  | marker code => rfl

theorem parseEnvelope_stringify (envelope : DeadLetterEnvelope) :
    parseEnvelope rt opts envelope.stringify =
      if accepts rt opts envelope then some envelope else none := by
  rw [parseEnvelope_eq, parseRawEnvelope_stringify]
  rfl

/-- A payload line is read when its date, its signature and its payload are in order. -/
theorem parsePayload_payloadLine (storedAt : Text) (id : Option Text) (payload mac : Text) :
    parsePayload rt opts ({ storedAt, content := .payload id payload, mac } :
      DeadLetterEnvelope).stringify =
        if (rt.parseDate storedAt).isSome &&
            verifyMac opts { storedAt, content := .payload id payload } mac &&
            passesReader rt opts payload then
          some (id.getD (computePayloadId rt payload), payload)
        else none := by
  rw [parsePayload, parseEnvelope_stringify]
  have haccepts : accepts rt opts { storedAt, content := .payload id payload, mac } =
      ((rt.parseDate storedAt).isSome &&
        verifyMac opts { storedAt, content := .payload id payload } mac &&
        passesReader rt opts payload) := rfl
  rw [haccepts]
  cases (rt.parseDate storedAt).isSome &&
      verifyMac opts { storedAt, content := .payload id payload } mac &&
      passesReader rt opts payload with
  | false => rfl
  | true => rfl

/-- A marker is not a payload. -/
theorem parsePayload_markerLine (storedAt code mac : Text) :
    parsePayload rt opts
      ({ storedAt, content := .marker code, mac } : DeadLetterEnvelope).stringify = none := by
  rw [parsePayload, parseEnvelope_stringify]
  cases accepts rt opts { storedAt, content := .marker code, mac } with
  | false => rfl
  | true => rfl

/-- A line written for a payload is read as that payload, by every store whose
checks it passes. -/
theorem parsePayload_signedLine {storedAt payload : Text}
    (h : (parseEnvelope rt opts (signedLine writer (payloadEnvelope rt storedAt payload))).isSome) :
    parsePayload rt opts (signedLine writer (payloadEnvelope rt storedAt payload)) =
      some (computePayloadId rt payload, payload) := by
  rw [signedLine, parseEnvelope_stringify] at h
  rw [parsePayload, signedLine, parseEnvelope_stringify]
  split at h
  · next haccepts =>
    rw [if_pos haccepts]
    rfl
  · contradiction

/-- A payload entry is read when its signature, its date and its payload are in order. -/
theorem parsePayload_isSome {storedAt id payload mac : Text}
    (hmac : verifyMac opts { storedAt, content := .payload (some id) payload } mac = true)
    (hdate : (rt.parseDate storedAt).isSome = true) (hne : payload ≠ [])
    (hlimit : Text.byteLength payload ≤ opts.maxPayloadBytes)
    (hformat : isEncryptedPayloadFormat rt payload = true) :
    (parsePayload rt opts ({ storedAt, content := .payload (some id) payload, mac } :
      DeadLetterEnvelope).stringify).isSome = true := by
  have hpositive : Text.byteLength payload ≠ 0 := by
    cases payload with
    | nil => exact absurd rfl hne
    | cons c rest =>
        rw [Text.byteLength_cons]
        have hsize := Char.utf8Size_pos c
        omega
  have hreader : passesReader rt opts payload = true := by
    simp [passesReader, hpositive, hlimit, hformat]
  simp only [parsePayload_payloadLine, hmac, hdate, hreader, Bool.and_self, ↓reduceIte,
    Option.isSome_some]

/-! ## Lines of a file -/

theorem newline_not_mem_stringify (envelope : DeadLetterEnvelope) : '\n' ∉ envelope.stringify := by
  have hquote (text : Text) : '\n' ∉ Json.quote text := Json.newline_not_mem_quote text
  obtain ⟨⟨storedAt, content⟩, mac⟩ := envelope
  cases content with
  | payload id payload =>
      cases id with
      | none =>
          simp [DeadLetterEnvelope.stringify, UnsignedEnvelope.fields, Json.stringify,
            Json.stringifyFields, hquote]
      | some id =>
          simp [DeadLetterEnvelope.stringify, UnsignedEnvelope.fields, Json.stringify,
            Json.stringifyFields, hquote]
  | marker code =>
      simp [DeadLetterEnvelope.stringify, UnsignedEnvelope.fields, Json.stringify,
        Json.stringifyFields, hquote]

theorem stringify_ne_nil (envelope : DeadLetterEnvelope) : envelope.stringify ≠ [] := by
  rw [DeadLetterEnvelope.stringify, Json.stringify]
  exact List.cons_ne_nil _ _

/-- A file with one line. -/
theorem linesOf_line {line : Text} (hne : line ≠ []) (hnewline : '\n' ∉ line) :
    linesOf (some (line ++ ['\n'])) = [line] := by
  rw [linesOf, splitLines, Text.split, List.splitOn_append_cons_self_of_not_mem hnewline]
  simp [hne]

/-! ## A runtime for single entries -/

def exampleTime : Text := "2026-01-01T00:00:00.000Z"

/-- The digests of the two payloads of single runs. -/
def exampleDigest (payload : Text) : List Text :=
  if payload = ['p'] then
    ["148de9c5", "a7a44d19", "e56cd9ae", "1a554bf6", "7847afb0", "c58f6e12", "fa29ac7d",
      "dfca9940"]
  else if payload = ['q'] then
    ["8e35c2cd", "3bf6641b", "db0e2050", "b76932cb", "b2e6034a", "0ddacc1d", "9bea82a6",
      "ba57f7cf"]
  else
    []

/-- SHA-256 and the date parser on the inputs of single runs. -/
def exampleRuntime : Runtime where
  sha256Hex payload := (exampleDigest payload).flatten
  parseDate date := if date = exampleTime then some 1767225600000 else none
  numbers := { print := id, print_nat := fun _ _ => rfl }

end ErrorCore.DeadLetterStore
