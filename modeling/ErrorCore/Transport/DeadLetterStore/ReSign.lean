import ErrorCore.Transport.DeadLetterStore.Appends
import ErrorCore.Transport.DeadLetterStore.Signatures

/-!
# Re-signing

`reSignAll` replaces each line that some key of the chain has signed by the same
envelope under the primary key and drops the others. A line and its replacement
hold the same envelope, so the reader makes the same of them.
-/

namespace ErrorCore.DeadLetterStore

/-- A signer finds what it has signed at the index of the primary key. -/
def PrimaryFirst (verifier : IntegrityVerifier) : Prop :=
  ∀ payload, verifier.verifyKeyIndex payload (verifier.sign payload) = some 0

/-- A store with the keys of a chain. -/
def DeadLetterStoreOptions.withKeys (opts : DeadLetterStoreOptions) (crt : CryptoRuntime)
    (primaryKey : Text) (previousKeys : List Text) : DeadLetterStoreOptions :=
  { opts with verifier := createHmacVerifier crt primaryKey previousKeys }

section Properties

variable (rt : Runtime) (opts alone : DeadLetterStoreOptions) (file : StoreFile) (store : Store)

/-- The payloads that a drain lists. -/
def drained : List Text := (drain rt opts file store true).entries.map (·.payload)

/-- The lines are replaced one by one and in their order, those that no key has signed or that hold
no envelope are gone, and nothing else changes. `alone` has the primary key only. -/
structure KeysRotated : Prop where
  drained_eq :
    drained rt opts (reSignAll rt opts file store).2.1 (reSignAll rt opts file store).2.2 =
      drained rt opts file store
  drained_alone :
    drained rt alone (reSignAll rt opts file store).2.1 (reSignAll rt opts file store).2.2 =
      drained rt opts file store
  primary : ∀ line ∈ linesOf (reSignAll rt opts file store).2.1, ∃ envelope,
    parseRawEnvelope rt line = some envelope ∧
      opts.verifier.verifyKeyIndex envelope.toUnsignedEnvelope.stringify envelope.mac = some 0
  replaced : ∃ kept : List (Text × Text),
    (linesOf file).filter (fun line => (parseRawEnvelope rt line).any fun envelope =>
        (opts.verifier.verifyKeyIndex envelope.toUnsignedEnvelope.stringify
          envelope.mac).isSome) = kept.map Prod.fst ∧
      linesOf (reSignAll rt opts file store).2.1 = kept.map Prod.snd ∧
      ∀ entry ∈ kept, ∃ before after, parseRawEnvelope rt entry.1 = some before ∧
        parseRawEnvelope rt entry.2 = some after ∧
        before.toUnsignedEnvelope = after.toUnsignedEnvelope
  again : (reSignAll rt opts (reSignAll rt opts file store).2.1
      (reSignAll rt opts file store).2.2).2 = (reSignAll rt opts file store).2

end Properties

variable {rt : Runtime} {opts alone : DeadLetterStoreOptions} {store : Store} {file : StoreFile}
variable {line out content : Text} {envelope : DeadLetterEnvelope}

/-! ## Single lines -/

theorem verifyMac_signEnvelope_of_first (h : PrimaryFirst opts.verifier)
    (envelope : UnsignedEnvelope) : verifyMac opts envelope (signEnvelope opts envelope) = true := by
  rw [verifyMac, signEnvelope, h]
  rfl

theorem reSignLine_eq_some_iff :
    reSignLine rt opts line = some out ↔ ∃ envelope, parseRawEnvelope rt line = some envelope ∧
      verifyMac opts envelope.toUnsignedEnvelope envelope.mac = true ∧
      out = signedLine opts envelope.toUnsignedEnvelope := by
  rw [reSignLine]
  constructor
  · intro h
    split at h
    · contradiction
    · next envelope hraw =>
      split at h
      · next hmac => exact ⟨envelope, hraw, hmac, (Option.some.inj h).symm⟩
      · contradiction
  · rintro ⟨envelope, hraw, hmac, rfl⟩
    rw [hraw]
    exact if_pos hmac

/-- A line that was re-signed is left as it is. -/
theorem reSignLine_signedLine (h : PrimaryFirst opts.verifier) (envelope : UnsignedEnvelope) :
    reSignLine rt opts (signedLine opts envelope) = some (signedLine opts envelope) :=
  reSignLine_eq_some_iff.mpr
    ⟨{ envelope with mac := signEnvelope opts envelope }, parseRawEnvelope_stringify rt _,
      verifyMac_signEnvelope_of_first h envelope, rfl⟩

/-- The reader makes the same of an envelope under another accepted signature. -/
theorem parsePayload_signedLine_eq (halone : ∀ payload,
      (alone.verifier.verifyKeyIndex payload (opts.verifier.sign payload)).isSome = true)
    (hreader : ∀ content, acceptsContent rt alone content = acceptsContent rt opts content)
    (hraw : parseRawEnvelope rt line = some envelope)
    (hmac : verifyMac opts envelope.toUnsignedEnvelope envelope.mac = true) :
    parsePayload rt alone (signedLine opts envelope.toUnsignedEnvelope) =
      parsePayload rt opts line := by
  have hnew : verifyMac alone envelope.toUnsignedEnvelope
      (signEnvelope opts envelope.toUnsignedEnvelope) = true := halone _
  have haccepts : accepts rt alone { envelope.toUnsignedEnvelope with
      mac := signEnvelope opts envelope.toUnsignedEnvelope } = accepts rt opts envelope := by
    rw [accepts, accepts, hmac, hreader]
    exact congrArg (fun b => _ && b && _) hnew
  rw [parsePayload, parsePayload, signedLine, parseEnvelope_stringify, parseEnvelope_eq, hraw,
    haccepts]
  obtain ⟨⟨storedAt, content⟩, mac⟩ := envelope
  rw [Option.filter]
  cases haccepted : accepts rt opts { storedAt, content, mac } with
  | false => rfl
  | true =>
      cases content with
      | payload id payload => rfl
      | marker code => rfl

/-- The reader takes nothing of a line that is dropped. -/
theorem parsePayload_of_dropped (h : reSignLine rt opts line = none) :
    parsePayload rt opts line = none := by
  rw [parsePayload]
  cases henvelope : parseEnvelope rt opts line with
  | none => rfl
  | some envelope =>
      obtain ⟨hraw, hmac⟩ := parseRawEnvelope_of_parseEnvelope rt opts henvelope
      have hkept := reSignLine_eq_some_iff.mpr ⟨envelope, hraw, hmac, rfl⟩
      rw [h] at hkept
      contradiction

/-! ## The file -/

/-- The lines after the call. -/
theorem linesOf_reSignAll :
    linesOf (reSignAll rt opts file store).2.1 =
      (linesOf file).filterMap (reSignLine rt opts) := by
  cases file with
  | none => rfl
  | some content =>
      have hfile : (reSignAll rt opts (some content) store).2.1 =
          some (if (splitLines content).filterMap (reSignLine rt opts) = [] then []
            else joinLines ((splitLines content).filterMap (reSignLine rt opts))) := rfl
      rw [hfile]
      by_cases hempty : (splitLines content).filterMap (reSignLine rt opts) = []
      · rw [if_pos hempty, linesOf, linesOf, hempty]
        rfl
      · rw [if_neg hempty]
        apply splitLines_joinLines hempty
        intro line hline
        obtain ⟨before, -, hkept⟩ := List.mem_filterMap.mp hline
        obtain ⟨envelope, -, -, rfl⟩ := reSignLine_eq_some_iff.mp hkept
        exact ⟨stringify_ne_nil _, newline_not_mem_stringify _⟩

theorem reSignAll_acked :
    (reSignAll rt opts file store).2.2.ackedPayloadIds = store.ackedPayloadIds := by
  cases file with
  | none => rfl
  | some content => rfl

/-- The drained payloads, line by line. -/
theorem drained_eq_filterMap (file : StoreFile) (store : Store) :
    drained rt opts file store =
      (((linesOf file).filterMap (parsePayload rt opts)).filter fun found =>
        decide (found.1 ∉ store.ackedPayloadIds)).map Prod.snd := by
  rw [← drainEntries_payloads 1, List.map_map]
  rfl

theorem drained_reSignAll (halone : ∀ payload,
      (alone.verifier.verifyKeyIndex payload (opts.verifier.sign payload)).isSome = true)
    (hreader : ∀ content, acceptsContent rt alone content = acceptsContent rt opts content) :
    drained rt alone (reSignAll rt opts file store).2.1 (reSignAll rt opts file store).2.2 =
      drained rt opts file store := by
  have hlines : ((linesOf file).filterMap (reSignLine rt opts)).filterMap
      (parsePayload rt alone) = (linesOf file).filterMap (parsePayload rt opts) := by
    rw [List.filterMap_filterMap]
    refine List.filterMap_congr fun line _ => ?_
    cases hline : reSignLine rt opts line with
    | none => exact (parsePayload_of_dropped hline).symm
    | some out =>
        obtain ⟨envelope, hraw, hmac, rfl⟩ := reSignLine_eq_some_iff.mp hline
        exact parsePayload_signedLine_eq halone hreader hraw hmac
  rw [drained_eq_filterMap, drained_eq_filterMap, linesOf_reSignAll, hlines, reSignAll_acked]

/-- The payload lines among those that are kept. -/
def resignedCount (rt : Runtime) (opts : DeadLetterStoreOptions) (lines : List Text) : Nat :=
  (lines.filter fun line => (reSignLine rt opts line).isSome).countP fun line =>
    !isMarkerLine rt line

/-- The text of the lines that are written back. -/
def textOf (lines : List Text) : Text := if lines = [] then [] else joinLines lines

theorem reSignAll_some (content : Text) (store : Store) :
    (reSignAll rt opts (some content) store).2 =
      (some (textOf ((splitLines content).filterMap (reSignLine rt opts))),
        { store with pendingPayloadCount := some (resignedCount rt opts (splitLines content)) }) :=
  rfl

theorem isMarkerLine_signedLine (hraw : parseRawEnvelope rt line = some envelope) :
    isMarkerLine rt (signedLine opts envelope.toUnsignedEnvelope) = isMarkerLine rt line := by
  rw [isMarkerLine, isMarkerLine, signedLine, parseRawEnvelope_stringify, hraw]
  obtain ⟨⟨storedAt, content⟩, mac⟩ := envelope
  cases content with
  | payload id payload => rfl
  | marker code => rfl

theorem filterMap_reSignLine_again (h : PrimaryFirst opts.verifier) (lines : List Text) :
    (lines.filterMap (reSignLine rt opts)).filterMap (reSignLine rt opts) =
      lines.filterMap (reSignLine rt opts) := by
  rw [List.filterMap_filterMap]
  refine List.filterMap_congr fun line _ => ?_
  cases hline : reSignLine rt opts line with
  | none => rfl
  | some out =>
      obtain ⟨envelope, -, -, rfl⟩ := reSignLine_eq_some_iff.mp hline
      exact reSignLine_signedLine h _

theorem resignedCount_again (h : PrimaryFirst opts.verifier) (lines : List Text) :
    resignedCount rt opts (lines.filterMap (reSignLine rt opts)) = resignedCount rt opts lines := by
  rw [resignedCount, resignedCount, List.countP_filter, List.countP_filter, List.countP_filterMap]
  refine List.countP_congr fun line _ => ?_
  cases hline : reSignLine rt opts line with
  | none => simp
  | some out =>
      obtain ⟨envelope, hraw, -, rfl⟩ := reSignLine_eq_some_iff.mp hline
      have hmarker : isMarkerLine rt (signedLine opts envelope.toUnsignedEnvelope) =
          isMarkerLine rt line := isMarkerLine_signedLine hraw
      simp [hmarker, reSignLine_signedLine h]

/-- Re-signing what was re-signed changes nothing. -/
theorem reSignAll_again (h : PrimaryFirst opts.verifier) :
    (reSignAll rt opts (reSignAll rt opts file store).2.1
      (reSignAll rt opts file store).2.2).2 = (reSignAll rt opts file store).2 := by
  cases file with
  | none => rfl
  | some content =>
      have hlines : splitLines (textOf ((splitLines content).filterMap (reSignLine rt opts))) =
          (splitLines content).filterMap (reSignLine rt opts) := by
        have hfile : linesOf (reSignAll rt opts (some content) store).2.1 =
            (linesOf (some content)).filterMap (reSignLine rt opts) := linesOf_reSignAll
        exact hfile
      rw [reSignAll_some, reSignAll_some, hlines, filterMap_reSignLine_again h,
        resignedCount_again h]

theorem replaced_by_pairs (file : StoreFile) :
    ∃ kept : List (Text × Text),
      (linesOf file).filter (fun line => (parseRawEnvelope rt line).any fun envelope =>
          (opts.verifier.verifyKeyIndex envelope.toUnsignedEnvelope.stringify
            envelope.mac).isSome) = kept.map Prod.fst ∧
        (linesOf file).filterMap (reSignLine rt opts) = kept.map Prod.snd ∧
        ∀ entry ∈ kept, ∃ before after, parseRawEnvelope rt entry.1 = some before ∧
          parseRawEnvelope rt entry.2 = some after ∧
          before.toUnsignedEnvelope = after.toUnsignedEnvelope := by
  generalize linesOf file = lines
  induction lines with
  | nil => exact ⟨[], rfl, rfl, nofun⟩
  | cons line lines ih =>
      obtain ⟨kept, hfirst, hsecond, hpairs⟩ := ih
      cases hline : reSignLine rt opts line with
      | none =>
          have hdropped : ((parseRawEnvelope rt line).any fun envelope =>
              (opts.verifier.verifyKeyIndex envelope.toUnsignedEnvelope.stringify
                envelope.mac).isSome) = false := by
            cases hraw : parseRawEnvelope rt line with
            | none => rfl
            | some envelope =>
                rw [Option.any_some, Bool.eq_false_iff]
                intro hmac
                rw [reSignLine_eq_some_iff.mpr ⟨envelope, hraw, hmac, rfl⟩] at hline
                contradiction
          refine ⟨kept, ?_, ?_, hpairs⟩
          · rw [List.filter_cons, hdropped, if_neg Bool.false_ne_true, hfirst]
          · rw [List.filterMap_cons, hline, hsecond]
      | some out =>
          obtain ⟨envelope, hraw, hmac, rfl⟩ := reSignLine_eq_some_iff.mp hline
          refine ⟨(line, signedLine opts envelope.toUnsignedEnvelope) :: kept, ?_, ?_, ?_⟩
          · have hkept : (opts.verifier.verifyKeyIndex envelope.toUnsignedEnvelope.stringify
                envelope.mac).isSome = true := hmac
            rw [List.filter_cons, hraw, Option.any_some, if_pos hkept, hfirst, List.map_cons]
          · rw [List.filterMap_cons, hline, hsecond, List.map_cons]
          · intro entry hentry
            rcases List.mem_cons.mp hentry with rfl | hrest
            · exact ⟨envelope, _, hraw, parseRawEnvelope_stringify rt _, rfl⟩
            · exact hpairs entry hrest

theorem keysRotated_of_primaryFirst (h : PrimaryFirst opts.verifier) (halone : ∀ payload,
      (alone.verifier.verifyKeyIndex payload (opts.verifier.sign payload)).isSome = true)
    (hreader : ∀ content, acceptsContent rt alone content = acceptsContent rt opts content) :
    KeysRotated rt opts alone file store where
  drained_eq := by
    apply drained_reSignAll
    · intro payload
      rw [h]
      rfl
    · exact fun _ => rfl
  drained_alone := drained_reSignAll halone hreader
  primary := by
    intro line hline
    rw [linesOf_reSignAll] at hline
    obtain ⟨before, -, hkept⟩ := List.mem_filterMap.mp hline
    obtain ⟨envelope, -, -, rfl⟩ := reSignLine_eq_some_iff.mp hkept
    exact ⟨_, parseRawEnvelope_stringify rt _, h _⟩
  replaced := by
    rw [linesOf_reSignAll]
    exact replaced_by_pairs file
  again := reSignAll_again h

theorem createHmacVerifier_primaryFirst (crt : CryptoRuntime) (primaryKey : Text)
    (previousKeys : List Text) : PrimaryFirst (createHmacVerifier crt primaryKey previousKeys) := by
  intro payload
  have hmatch : hmacMatches crt (Bytes.ofText primaryKey) payload
      (hmacText crt (Bytes.ofText primaryKey) payload) = true :=
    (hmacMatches_hmacText payload).mpr rfl
  simp only [createHmacVerifier, List.findIdx?_cons, hmatch, if_true]

/-- The keys of a store are rotated by `reSignAll`, whatever its file holds. -/
theorem reSignAll_rotates (rt : Runtime) (crt : CryptoRuntime) (opts : DeadLetterStoreOptions)
    (primaryKey : Text) (previousKeys : List Text) (file : StoreFile) (store : Store) :
    KeysRotated rt (opts.withKeys crt primaryKey previousKeys) (opts.withKeys crt primaryKey [])
      file store := by
  apply keysRotated_of_primaryFirst
  · exact createHmacVerifier_primaryFirst crt primaryKey previousKeys
  · intro payload
    have hfirst : (createHmacVerifier crt primaryKey []).verifyKeyIndex payload
        ((createHmacVerifier crt primaryKey []).sign payload) = some 0 :=
      createHmacVerifier_primaryFirst crt primaryKey [] payload
    exact congrArg Option.isSome hfirst
  · exact fun _ => rfl

/-- The keys of an encryption chain are rotated in the same way. -/
theorem encryptionVerifier_primaryFirst (crt : CryptoRuntime) (encryption : Encryption) :
    PrimaryFirst (encryptionVerifier crt encryption) := by
  intro payload
  have hmatch : hmacMatches crt encryption.primary.macKey payload
      (hmacText crt encryption.primary.macKey payload) = true :=
    (hmacMatches_hmacText payload).mpr rfl
  have hfirst : encryption.chain.findIdx? (fun km =>
      hmacMatches crt km.macKey payload (hmacText crt encryption.primary.macKey payload)) =
        some 0 := by
    rw [Encryption.chain, List.findIdx?_cons, if_pos hmatch]
  have hverify : encryption.verify crt payload (encryption.sign crt payload) = .ok (some 0) := by
    rw [Encryption.verify, Encryption.sign, hfirst]
  rw [encryptionVerifier]
  dsimp only
  rw [hverify]
  rfl

end ErrorCore.DeadLetterStore
