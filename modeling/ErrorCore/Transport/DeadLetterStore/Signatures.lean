import ErrorCore.Config
import ErrorCore.Foundation.Except
import ErrorCore.Security.Encryption.Attempts
import ErrorCore.Transport.DeadLetterStore.Lines

/-!
# Who signs dead letters

The application derives the signer of its dead-letter store in
`src/sdk-factory.ts`, the command `errorcore drain` in `bin/errorcore.js`. The
command looks for the secrets in the resolved configuration, which has none of
them, and is left with the secret of the transport.
-/

namespace ErrorCore.DeadLetterStore

/-! ## The two derivations -/

section Derivations

variable (rt : CryptoRuntime)

/-- `createHmacVerifier` of a chain of keys, the first of which signs. -/
def createHmacVerifier (primaryKey : Text) (previousKeys : List Text) : IntegrityVerifier where
  sign payload := hmacText rt (Bytes.ofText primaryKey) payload
  verifyKeyIndex payload mac :=
    (primaryKey :: previousKeys).findIdx? fun key => hmacMatches rt (Bytes.ofText key) payload mac

/-- The signer over a chain of encryption keys. An error of `verify` ends the check of the entry
like a signature that no key has made. -/
def encryptionVerifier (encryption : Encryption) : IntegrityVerifier where
  sign payload := encryption.sign rt payload
  verifyKeyIndex payload mac := (encryption.verify rt payload mac).toOption.join

def callbackKeyError : Text :=
  "encryptionKeyCallback must return a 32-byte Buffer or 64-character hex string"

def callbackPromiseError : Text :=
  ("encryptionKeyCallback returned a Promise, but createSDK()/init() are synchronous. Resolve " ++
    "the key before calling createSDK(), or use a synchronous callback." : String)

def normalizeCallbackEncryptionKey : CallbackResult → Except Text Text
  | .buffer value =>
      if value.length ≠ 32 then .error callbackKeyError else .ok (Bytes.toHex value)
  | .text value => if isHexKey value then .ok value else .error callbackKeyError
  | .promise => .error callbackPromiseError
  | .throws error => .error error

def resolveEncryptionKeyCallback (secrets : ResolvedSecrets) : Except Text ResolvedSecrets :=
  match secrets.encryptionKey, secrets.encryptionKeyCallback with
  | none, some callback => do
      let key ← normalizeCallbackEncryptionKey callback
      return { secrets with encryptionKey := some key }
  | _, _ => .ok secrets

/-- `createPackageAssemblyEncryptionConfig` and the constructor call on its result. -/
def createEncryption (env : Environment) (secrets : ResolvedSecrets) :
    Except Text (Option Encryption) :=
  match secrets.encryptionKey with
  | none => .ok none
  | some encryptionKey => do
      let encryption ← Encryption.new rt (.text encryptionKey)
        { previousEncryptionKeys := secrets.previousEncryptionKeys
          macKey := secrets.macKey.map .text
          sdkVersion := some env.getSdkVersion }
      return some encryption

def getWebhookSecret : Option TransportConfig → Option Text
  | some (.webhook secret) => secret
  | _ => none

def deriveDeadLetterVerifier (encryption : Option Encryption) (secrets : ResolvedSecrets)
    (transportAuthorization webhookSecret : Option Text) : Option IntegrityVerifier :=
  match encryption with
  | some encryption => some (encryptionVerifier rt encryption)
  | none =>
      ((secrets.encryptionKey.or transportAuthorization).or webhookSecret).map fun fallback =>
        createHmacVerifier rt fallback secrets.previousTransportAuthorizations

/-- What `createSDKComposition` knows when it makes the dead-letter store. -/
structure Composition where
  encryption : Option Encryption
  secrets : ResolvedSecrets
  transportAuthorization : Option Text
  webhookSecret : Option Text
  deadLetterStore : Option DeadLetterStoreOptions

def createSDKComposition (env : Environment) (userConfig : SDKConfig) :
    Except Text Composition := do
  let config ← resolveConfig env userConfig
  let secrets ← (resolveSecrets env userConfig).bind resolveEncryptionKeyCallback
  let transportAuthorization ← getTransportAuthorization env userConfig.transport
  let webhookSecret := getWebhookSecret userConfig.transport
  let encryption ← createEncryption rt env secrets
  let verifier :=
    deriveDeadLetterVerifier rt encryption secrets transportAuthorization webhookSecret
  return {
    encryption, secrets, transportAuthorization, webhookSecret
    deadLetterStore :=
      if config.deadLetterPath.isNone then none
      else verifier.map fun verifier =>
        { verifier
          maxSizeBytes := config.deadLetterMaxBytes
          maxBackups := config.deadLetterMaxBackups
          maxPayloadBytes := config.maxTotalPackageSize + 16384
          requireEncryptedPayload := secrets.encryptionKey.isSome } }

/-- The secret of the transport as the command reads it from the user's configuration. -/
def commandSecret (userConfig : SDKConfig) : Option Text :=
  match userConfig.transport with
  | some (.http _ authorization) => authorization
  | some (.webhook secret) => secret
  | _ => none

def cannotDrainError : Text :=
  ("Cannot drain: no encryptionKey or transport authorization configured (needed for HMAC " ++
    "verification)." : String)

/-- The signer that `cmdDrain` builds from what it reads as a resolved configuration. -/
def commandVerifier (resolved : ResolvedConfig) (userConfig : SDKConfig) :
    Except Text IntegrityVerifier :=
  match resolved.encryptionKey, commandSecret userConfig with
  | some encryptionKey, _ => do
      let encryption ← Encryption.new rt (.text encryptionKey)
        { previousEncryptionKeys := resolved.previousEncryptionKeys.getD []
          macKey := resolved.macKey.map .text }
      return encryptionVerifier rt encryption
  | none, some integrityKey =>
      .ok (createHmacVerifier rt integrityKey (resolved.previousTransportAuthorizations.getD []))
  | none, none => .error cannotDrainError

/-- The store that `cmdDrain` opens, once there is a file to drain. -/
def cmdDrainStore (env : Environment) (userConfig : SDKConfig) :
    Except Text DeadLetterStoreOptions := do
  let resolved ← resolveConfig env userConfig
  if resolved.deadLetterPath.isNone then throw ("No dead-letter store configured." : Text)
  let verifier ← commandVerifier rt resolved userConfig
  return {
    verifier
    maxSizeBytes := resolved.deadLetterMaxBytes
    maxBackups := resolved.deadLetterMaxBackups }

/-- The MAC keys that the signer of the application tries, the one that signs first. -/
def Composition.macKeys (sdk : Composition) : List Bytes :=
  match sdk.encryption with
  | some encryption =>
      encryption.chain.map (·.macKey) ++ (encryption.legacyMaterials rt).map (·.macKey)
  | none =>
      (((sdk.secrets.encryptionKey.or sdk.transportAuthorization).or sdk.webhookSecret).toList ++
        sdk.secrets.previousTransportAuthorizations).map Bytes.ofText

end Derivations

/-! ## Chains of MAC keys -/

/-- A signer that signs with the first key and accepts what any of its keys has signed. -/
structure IsChain (rt : CryptoRuntime) (verifier : IntegrityVerifier) (primary : Bytes)
    (keys : List Bytes) : Prop where
  mem : primary ∈ keys
  sign : ∀ payload, verifier.sign payload = hmacText rt primary payload
  verify : ∀ payload mac, (verifier.verifyKeyIndex payload mac).isSome = true ↔
    ∃ key ∈ keys, hmacMatches rt key payload mac = true

/-- Two different keys never sign a text alike. -/
def SeparateMacs (rt : CryptoRuntime) (keys : List Bytes) : Prop :=
  ∀ key ∈ keys, ∀ other ∈ keys, key ≠ other → ∀ text : Text,
    rt.hmacSha256 key (Bytes.ofText text) ≠ rt.hmacSha256 other (Bytes.ofText text)

section Chains

variable {rt : CryptoRuntime} {key other : Bytes}

theorem hmacMatches_hmacText (payload : Text) :
    hmacMatches rt other payload (hmacText rt key payload) = true ↔
      rt.hmacSha256 other (Bytes.ofText payload) = rt.hmacSha256 key (Bytes.ofText payload) := by
  rw [hmacMatches, hmacText, Bytes.ofBase64_toBase64, decide_eq_true_eq]

theorem createHmacVerifier_isChain (primaryKey : Text) (previousKeys : List Text) :
    IsChain rt (createHmacVerifier rt primaryKey previousKeys) (Bytes.ofText primaryKey)
      ((primaryKey :: previousKeys).map Bytes.ofText) where
  mem := List.mem_map_of_mem List.mem_cons_self
  sign _ := rfl
  verify payload mac := by
    rw [createHmacVerifier, List.findIdx?_isSome, List.any_eq_true]
    constructor
    · rintro ⟨key, hmem, hmatch⟩
      exact ⟨Bytes.ofText key, List.mem_map_of_mem hmem, hmatch⟩
    · rintro ⟨bytes, hmem, hmatch⟩
      obtain ⟨key, hkey, rfl⟩ := List.mem_map.mp hmem
      exact ⟨key, hkey, hmatch⟩

theorem verifyLegacy_isSome {payload mac : Text} {chain : List KeyMaterial}
    (h : ∀ km ∈ chain, ∃ legacy, getLegacyKeyMaterial rt km = .ok legacy) (i : Nat) :
    (Encryption.verifyLegacy rt payload mac i chain).toOption.join.isSome = true ↔
      ∃ km ∈ chain, ∃ legacy, getLegacyKeyMaterial rt km = .ok legacy ∧
        hmacMatches rt legacy.macKey payload mac = true := by
  induction chain generalizing i with
  | nil => simp [Encryption.verifyLegacy, Except.toOption]
  | cons km rest ih =>
      obtain ⟨legacy, hlegacy⟩ := h km List.mem_cons_self
      have hrest := ih (fun km' hkm' => h km' (List.mem_cons_of_mem km hkm')) (i + 1)
      rw [Encryption.verifyLegacy, hlegacy, Except.ok_bind]
      by_cases hmatch : hmacMatches rt legacy.macKey payload mac = true
      · rw [if_pos hmatch]
        refine ⟨fun _ => ⟨km, List.mem_cons_self, legacy, hlegacy, hmatch⟩, fun _ => rfl⟩
      · rw [if_neg hmatch, hrest]
        constructor
        · rintro ⟨km', hmem, hfound⟩
          exact ⟨km', List.mem_cons_of_mem km hmem, hfound⟩
        · rintro ⟨km', hmem, legacy', hlegacy', hmatch'⟩
          rcases List.mem_cons.mp hmem with rfl | hmem
          · obtain rfl := Except.ok.inj (hlegacy.symm.trans hlegacy')
            exact absurd hmatch' hmatch
          · exact ⟨km', hmem, legacy', hlegacy', hmatch'⟩

theorem encryptionVerifier_isChain {encryption : Encryption} {encryptionKey : KeyInput}
    {options : EncryptionOptions} (h : Encryption.new rt encryptionKey options = .ok encryption) :
    IsChain rt (encryptionVerifier rt encryption) encryption.primary.macKey
      (encryption.chain.map (·.macKey) ++ (encryption.legacyMaterials rt).map (·.macKey)) where
  mem := by
    apply List.mem_append_left
    exact List.mem_map_of_mem (List.mem_cons_self : encryption.primary ∈ encryption.chain)
  sign _ := rfl
  verify payload mac := by
    have hlegacy : ∀ km ∈ encryption.chain,
        ∃ legacy, getLegacyKeyMaterial rt km = .ok legacy := by
      intro km hkm
      obtain ⟨i, hi⟩ := List.getElem?_of_mem hkm
      obtain ⟨key, -, hderived⟩ := Encryption.deriveKeys_of_chain h hi
      exact getLegacyKeyMaterial_isOk hderived
    change (encryption.verify rt payload mac).toOption.join.isSome = true ↔ _
    rw [Encryption.verify]
    cases hfind : encryption.chain.findIdx? fun km => hmacMatches rt km.macKey payload mac with
    | some i =>
        have hany := congrArg Option.isSome hfind
        rw [List.findIdx?_isSome, Option.isSome_some, List.any_eq_true] at hany
        obtain ⟨km, hkm, hmatch⟩ := hany
        refine ⟨fun _ => ⟨km.macKey, ?_, hmatch⟩, fun _ => rfl⟩
        exact List.mem_append_left _ (List.mem_map_of_mem hkm)
    | none =>
        have hnone := congrArg Option.isSome hfind
        rw [List.findIdx?_isSome, Option.isSome_none, List.any_eq_false] at hnone
        simp only [verifyLegacy_isSome hlegacy]
        constructor
        · rintro ⟨km, hkm, legacy, hderived, hmatch⟩
          refine ⟨legacy.macKey, List.mem_append_right _ ?_, hmatch⟩
          refine List.mem_map_of_mem ?_
          exact List.mem_filterMap.mpr ⟨km, hkm, by rw [hderived]; rfl⟩
        · rintro ⟨key, hmem, hmatch⟩
          rcases List.mem_append.mp hmem with hcurrent | hmem
          · obtain ⟨km, hkm, rfl⟩ := List.mem_map.mp hcurrent
            exact absurd hmatch (hnone km hkm)
          · obtain ⟨legacy, hmaterial, rfl⟩ := List.mem_map.mp hmem
            obtain ⟨km, hkm, hoption⟩ := List.mem_filterMap.mp hmaterial
            obtain ⟨legacy', hderived⟩ := hlegacy km hkm
            rw [hderived] at hoption
            obtain rfl := Option.some.inj hoption
            exact ⟨km, hkm, legacy', hderived, hmatch⟩

end Chains

/-! ## Two stores over one file -/

/-- The command accepts every entry that the application signs, and rotation drops no line that
the application would drain. -/
structure CommandAgrees (drt : Runtime) (application command : DeadLetterStoreOptions) : Prop where
  accepts : ∀ envelope, verifyMac command envelope (signEnvelope application envelope) = true
  keeps : ∀ file, ∀ line ∈ linesOf file, (parsePayload drt application line).isSome = true →
    (reSignLine drt command line).isSome = true

/-- A payload in the form of an encrypted one. -/
def emptyEnvelope : Json.Value :=
  .object [("v", .number "2"), ("eventId", .string []), ("iv", .string []),
    ("ciphertext", .string []), ("authTag", .string []), ("hmac", .string [])]

def emptyEnvelopePayload : Text := Json.stringify emptyEnvelope

theorem isEncryptedPayloadFormat_emptyEnvelope (drt : Runtime) :
    isEncryptedPayloadFormat drt emptyEnvelopePayload = true := by
  have hparse : Json.parse drt.numbers.print emptyEnvelopePayload = some emptyEnvelope := by
    apply Json.parse_stringify
    have distinct :
        (["v", "eventId", "iv", "ciphertext", "authTag", "hmac"] : List Text).Nodup := by decide
    refine ⟨distinct, ?_⟩
    exact ⟨drt.numbers.numberText_digit (show 2 < 10 by decide), trivial, trivial, trivial,
      trivial, trivial, trivial⟩
  rw [isEncryptedPayloadFormat, hparse]
  rfl

section Agreement

variable {rt : CryptoRuntime} {drt : Runtime} {application command : DeadLetterStoreOptions}
variable {primary commandPrimary : Bytes} {keys commandKeys : List Bytes}

theorem isSome_reSignLine {line : Text} {envelope : DeadLetterEnvelope}
    (hline : parseRawEnvelope drt line = some envelope)
    (hmac : verifyMac command envelope.toUnsignedEnvelope envelope.mac = true) :
    (reSignLine drt command line).isSome = true := by
  rw [reSignLine, hline]
  simp only [hmac, ↓reduceIte, Option.isSome_some]

/-- A chain of keys accepts what another one accepts when it has the other's keys. -/
theorem commandAgrees_of_subset (happ : IsChain rt application.verifier primary keys)
    (hcmd : IsChain rt command.verifier commandPrimary commandKeys)
    (hsub : ∀ key ∈ keys, key ∈ commandKeys) : CommandAgrees drt application command where
  accepts envelope := by
    apply (hcmd.verify _ _).mpr
    refine ⟨primary, hsub primary happ.mem, ?_⟩
    rw [signEnvelope, happ.sign]
    exact (hmacMatches_hmacText _).mpr rfl
  keeps file line _ hline := by
    rw [parsePayload] at hline
    cases henvelope : parseEnvelope drt application line with
    | none =>
        rw [henvelope] at hline
        exact absurd hline Bool.false_ne_true
    | some envelope =>
        obtain ⟨hraw, hmac⟩ := parseRawEnvelope_of_parseEnvelope drt application henvelope
        obtain ⟨key, hkey, hmatch⟩ := (happ.verify _ _).mp hmac
        exact isSome_reSignLine hraw ((hcmd.verify _ _).mpr ⟨key, hsub key hkey, hmatch⟩)

/-- An entry of the file under a key. -/
def entryUnder (rt : CryptoRuntime) (storedAt : Text) (key : Bytes) : DeadLetterEnvelope :=
  let unsigned : UnsignedEnvelope :=
    { storedAt, content := .payload (some []) emptyEnvelopePayload }
  { unsigned with mac := hmacText rt key unsigned.stringify }

theorem parsePayload_entryUnder (happ : IsChain rt application.verifier primary keys)
    {storedAt : Text} (hdate : (drt.parseDate storedAt).isSome = true)
    (hlimit : Text.byteLength emptyEnvelopePayload ≤ application.maxPayloadBytes) {key : Bytes}
    (hkey : key ∈ keys) :
    (parsePayload drt application (entryUnder rt storedAt key).stringify).isSome = true := by
  apply parsePayload_isSome
  · exact (happ.verify _ _).mpr ⟨key, hkey, (hmacMatches_hmacText _).mpr rfl⟩
  · exact hdate
  · rw [emptyEnvelopePayload, emptyEnvelope, Json.stringify]
    exact List.cons_ne_nil _ _
  · exact hlimit
  · exact isEncryptedPayloadFormat_emptyEnvelope drt

theorem linesOf_entryUnder (storedAt : Text) (key : Bytes) :
    linesOf (some ((entryUnder rt storedAt key).stringify ++ ['\n'])) =
      [(entryUnder rt storedAt key).stringify] := by
  apply linesOf_line
  · exact stringify_ne_nil _
  · exact newline_not_mem_stringify _

/-- An entry under a key that the command does not have is drained by the application and dropped
by the command. -/
theorem mem_of_commandAgrees (happ : IsChain rt application.verifier primary keys)
    (hcmd : IsChain rt command.verifier commandPrimary commandKeys)
    (hseparate : SeparateMacs rt (keys ++ commandKeys)) {storedAt : Text}
    (hdate : (drt.parseDate storedAt).isSome = true)
    (hlimit : Text.byteLength emptyEnvelopePayload ≤ application.maxPayloadBytes)
    (h : CommandAgrees drt application command) {key : Bytes} (hkey : key ∈ keys) :
    key ∈ commandKeys := by
  have hmem : (entryUnder rt storedAt key).stringify ∈
      linesOf (some ((entryUnder rt storedAt key).stringify ++ ['\n'])) := by
    rw [linesOf_entryUnder]
    exact List.mem_singleton_self _
  have hkept := h.keeps _ _ hmem (parsePayload_entryUnder happ hdate hlimit hkey)
  have hraw : parseRawEnvelope drt (entryUnder rt storedAt key).stringify =
      some (entryUnder rt storedAt key) := parseRawEnvelope_stringify drt _
  rw [reSignLine, hraw] at hkept
  dsimp only at hkept
  split at hkept
  case isFalse => exact nomatch hkept
  case isTrue hverified =>
    obtain ⟨other, hother, hmatch⟩ := (hcmd.verify _ _).mp hverified
    have hsame := (hmacMatches_hmacText _).mp hmatch
    by_contra hnot
    have hne : other ≠ key := fun heq => hnot (heq ▸ hother)
    exact hseparate other (List.mem_append_right _ hother) key (List.mem_append_left _ hkey) hne _
      hsame

end Agreement

/-! ## What both sides make of one configuration -/

section Configured

variable {rt : CryptoRuntime} {env : Environment} {userConfig : SDKConfig}

/-- No secret is left in a resolved configuration. -/
theorem resolveConfig_ok {resolved : ResolvedConfig}
    (h : resolveConfig env userConfig = .ok resolved) :
    resolved.encryptionKey = none ∧ resolved.previousTransportAuthorizations = none := by
  rw [resolveConfig] at h
  obtain ⟨_, -, h⟩ := Except.bind_eq_ok.mp h
  obtain ⟨_, -, h⟩ := Except.bind_eq_ok.mp h
  obtain ⟨_, -, h⟩ := Except.bind_eq_ok.mp h
  obtain ⟨_, -, h⟩ := Except.bind_eq_ok.mp h
  obtain ⟨_, -, h⟩ := Except.bind_eq_ok.mp h
  obtain ⟨_, -, h⟩ := Except.bind_eq_ok.mp h
  obtain rfl := Except.pure_eq_ok.mp h
  exact ⟨rfl, rfl⟩

theorem createEncryption_some {secrets : ResolvedSecrets} {encryption : Encryption}
    (h : createEncryption rt env secrets = .ok (some encryption)) :
    ∃ key options, Encryption.new rt key options = .ok encryption := by
  rw [createEncryption] at h
  cases hkey : secrets.encryptionKey with
  | none =>
      rw [hkey] at h
      exact nomatch h
  | some key =>
      rw [hkey] at h
      obtain ⟨encryption', hnew, h⟩ := Except.bind_eq_ok.mp h
      obtain rfl := Option.some.inj (Except.pure_eq_ok.mp h)
      exact ⟨_, _, hnew⟩

/-- What is known of the application when it has a dead-letter store. -/
structure HasStore (rt : CryptoRuntime) (env : Environment) (userConfig : SDKConfig)
    (sdk : Composition) (application : DeadLetterStoreOptions) : Prop where
  resolved : ∃ resolved, resolveConfig env userConfig = .ok resolved ∧
    resolved.deadLetterPath.isNone = false
  chain : ∃ primary, IsChain rt application.verifier primary (sdk.macKeys rt)
  limit : 16384 ≤ application.maxPayloadBytes

theorem hasStore_of_createSDKComposition {sdk : Composition} {application : DeadLetterStoreOptions}
    (h : createSDKComposition rt env userConfig = .ok sdk)
    (hstore : sdk.deadLetterStore = some application) :
    HasStore rt env userConfig sdk application := by
  rw [createSDKComposition] at h
  obtain ⟨resolved, hresolved, h⟩ := Except.bind_eq_ok.mp h
  obtain ⟨secrets, -, h⟩ := Except.bind_eq_ok.mp h
  obtain ⟨transportAuthorization, -, h⟩ := Except.bind_eq_ok.mp h
  obtain ⟨encryption, hencryption, h⟩ := Except.bind_eq_ok.mp h
  obtain rfl := Except.pure_eq_ok.mp h
  dsimp only at hstore
  split at hstore
  case isTrue => exact nomatch hstore
  case isFalse hpath =>
    obtain ⟨verifier, hverifier, rfl⟩ := Option.map_eq_some_iff.mp hstore
    refine ⟨⟨resolved, hresolved, Bool.eq_false_iff.mpr hpath⟩, ?_, Nat.le_add_left ..⟩
    cases encryption with
    | some encryption =>
        obtain rfl := Option.some.inj hverifier
        obtain ⟨key, options, hnew⟩ := createEncryption_some hencryption
        exact ⟨_, encryptionVerifier_isChain hnew⟩
    | none =>
        obtain ⟨fallback, hfallback, rfl⟩ := Option.map_eq_some_iff.mp hverifier
        refine ⟨Bytes.ofText fallback, ?_⟩
        dsimp only [Composition.macKeys]
        rw [hfallback]
        exact createHmacVerifier_isChain fallback secrets.previousTransportAuthorizations

/-- The command has the one key that is the secret of the transport. -/
theorem cmdDrainStore_ok_iff {resolved : ResolvedConfig}
    (hresolved : resolveConfig env userConfig = .ok resolved)
    (hpath : resolved.deadLetterPath.isNone = false) {command : DeadLetterStoreOptions} :
    cmdDrainStore rt env userConfig = .ok command ↔
      ∃ secret, commandSecret userConfig = some secret ∧
        command = {
          verifier := createHmacVerifier rt secret []
          maxSizeBytes := resolved.deadLetterMaxBytes
          maxBackups := resolved.deadLetterMaxBackups } := by
  obtain ⟨hkey, hprevious⟩ := resolveConfig_ok hresolved
  rw [cmdDrainStore, hresolved, Except.ok_bind, hpath, commandVerifier, hkey, hprevious]
  cases commandSecret userConfig with
  | none =>
      constructor
      · intro h
        exact nomatch h
      · rintro ⟨secret, hsecret, -⟩
        exact nomatch hsecret
  | some secret =>
      constructor
      · intro h
        exact ⟨secret, rfl, (Except.pure_eq_ok.mp h).symm⟩
      · rintro ⟨secret', hsecret, rfl⟩
        obtain rfl := Option.some.inj hsecret
        rfl

/-- Where the application has a dead-letter store, the command agrees with it exactly when every
key of the application is the secret of the transport as the command reads it. -/
theorem commandAgrees_iff {drt : Runtime} {sdk : Composition}
    {application : DeadLetterStoreOptions} {storedAt : Text}
    (hsdk : createSDKComposition rt env userConfig = .ok sdk)
    (hstore : sdk.deadLetterStore = some application)
    (hseparate : SeparateMacs rt
      (sdk.macKeys rt ++ (commandSecret userConfig).toList.map Bytes.ofText))
    (hdate : (drt.parseDate storedAt).isSome = true) :
    (∃ command, cmdDrainStore rt env userConfig = .ok command ∧
        CommandAgrees drt application command) ↔
      ∃ secret, commandSecret userConfig = some secret ∧
        ∀ key ∈ sdk.macKeys rt, key = Bytes.ofText secret := by
  have hhas := hasStore_of_createSDKComposition hsdk hstore
  obtain ⟨resolved, hresolved, hpath⟩ := hhas.resolved
  obtain ⟨primary, happ⟩ := hhas.chain
  have hlimit : Text.byteLength emptyEnvelopePayload ≤ application.maxPayloadBytes := by
    have hsmall : Text.byteLength emptyEnvelopePayload ≤ 16384 := by decide +kernel
    exact Nat.le_trans hsmall hhas.limit
  constructor
  · rintro ⟨command, hcommand, hagrees⟩
    obtain ⟨secret, hsecret, rfl⟩ := (cmdDrainStore_ok_iff hresolved hpath).mp hcommand
    refine ⟨secret, hsecret, ?_⟩
    intro key hkey
    rw [hsecret] at hseparate
    have hchain : IsChain rt (createHmacVerifier rt secret []) (Bytes.ofText secret)
        [Bytes.ofText secret] := createHmacVerifier_isChain secret []
    exact List.mem_singleton.mp
      (mem_of_commandAgrees happ hchain hseparate hdate hlimit hagrees hkey)
  · rintro ⟨secret, hsecret, hkeys⟩
    refine ⟨_, (cmdDrainStore_ok_iff hresolved hpath).mpr ⟨secret, hsecret, rfl⟩, ?_⟩
    apply commandAgrees_of_subset happ (createHmacVerifier_isChain secret [])
    intro key hkey
    exact List.mem_singleton.mpr (hkeys key hkey)

end Configured

/-! ## Two configurations -/

def authorizationConfig : SDKConfig where
  transport := some (.http none (some "Bearer t0ken"))

def encryptedConfig : SDKConfig :=
  { authorizationConfig with
    encryptionKey := some "00112233445566778899aabbccddeeff0123456789abcdeffedcba9876543210" }

/-- The marker of a capture that failed. -/
def markerEntry : UnsignedEnvelope where
  storedAt := exampleTime
  content := .marker "EC_CAPTURE_FAILED"

/-- The MAC key of the encrypted configuration. -/
def encryptedMacKey : Bytes :=
  Bytes.bigEndian 32 0xf92bcb5946aa71716cdb5be610c777dba4382bdd0126ae72e7a22c11a372f199

/-- Nothing is encrypted below. -/
def noCall : GcmCall where
  key := []
  nonce := []
  aad := []
  plaintext := []
  ciphertext := []
  authTag := List.replicate 16 (UInt8.ofNat 0)
  length_eq := ⟨rfl, rfl⟩

/-- The derived key of the encrypted configuration. -/
def encryptedDerivedKey : Bytes :=
  Bytes.bigEndian 32 0x0a9b0a2e76638deb16a9e76f5e20ed47d06dc7a433697329842631126fe76a64

/-- The primitives on the two configurations and the one entry. -/
def signatureCalls : RecordedCalls where
  hkdf :=
    [((Bytes.bigEndian 32 0x00112233445566778899aabbccddeeff0123456789abcdeffedcba9876543210,
        STATIC_KEY_SALT), encryptedDerivedKey),
      ((Bytes.bigEndian 32 0x00112233445566778899aabbccddeeff0123456789abcdeffedcba9876543210,
        MAC_DERIVATION_SALT), encryptedMacKey)]
  pbkdf2 := []
  sha256 :=
    [(encryptedDerivedKey,
        Bytes.bigEndian 32 0xb1e120e141bf77d813ae62c0bf21a7320b5eb8a19882b401d62a645ddb1cb29a)]
  hmac :=
    [((encryptedMacKey, Bytes.ofText markerEntry.stringify),
        Bytes.bigEndian 32 0xf35922db89f6c22d155cb1072d56bf8f169fcba8d6916d9996c2a7a4cc2c134c),
      ((Bytes.ofText "Bearer t0ken", Bytes.ofText markerEntry.stringify),
        Bytes.bigEndian 32 0xab3136538f4812205a719ed25affef104aea668f1790c79be257a9af4a100ffb)]
  gcm := noCall
  deflate := []
  inflate := []

def signatureRuntime : CryptoRuntime := signatureCalls.runtime

/-- The signature of the application. -/
def markerMac : Text := "81ki24n2wi0VXLEHLVa/jxafy6jWkW2ZlsKnpMwsE0w="

/-- What the application makes of a configuration, and its dead-letter store. -/
def storeOf (userConfig : SDKConfig) : Option (Composition × DeadLetterStoreOptions) :=
  match createSDKComposition signatureRuntime {} userConfig with
  | .ok sdk => sdk.deadLetterStore.map fun application => (sdk, application)
  | .error _ => none

theorem storeOf_some {userConfig : SDKConfig} {sdk : Composition}
    {application : DeadLetterStoreOptions} (h : storeOf userConfig = some (sdk, application)) :
    createSDKComposition signatureRuntime {} userConfig = .ok sdk ∧
      sdk.deadLetterStore = some application := by
  rw [storeOf] at h
  split at h
  · next sdk' hsdk =>
      obtain ⟨application', hstore, heq⟩ := Option.map_eq_some_iff.mp h
      obtain ⟨rfl, rfl⟩ := Prod.mk.inj heq
      exact ⟨hsdk, hstore⟩
  · exact nomatch h

theorem authorizationConfig_agrees :
    ∃ sdk application, createSDKComposition signatureRuntime {} authorizationConfig = .ok sdk ∧
      sdk.deadLetterStore = some application ∧
      ∃ command, cmdDrainStore signatureRuntime {} authorizationConfig = .ok command ∧
        CommandAgrees exampleRuntime application command := by
  have hkeys :
      (storeOf authorizationConfig).map (fun found => found.1.macKeys signatureRuntime) =
        some [Bytes.ofText "Bearer t0ken"] := by decide +kernel
  have htime : (exampleRuntime.parseDate exampleTime).isSome = true := by decide +kernel
  obtain ⟨⟨sdk, application⟩, hfound, hmacKeys⟩ := Option.map_eq_some_iff.mp hkeys
  obtain ⟨hsdk, hstore⟩ := storeOf_some hfound
  dsimp only at hmacKeys
  refine ⟨sdk, application, hsdk, hstore, ?_⟩
  apply (commandAgrees_iff hsdk hstore _ htime).mpr
  · refine ⟨"Bearer t0ken", rfl, ?_⟩
    rw [hmacKeys]
    intro key hkey
    exact List.mem_singleton.mp hkey
  · rw [hmacKeys]
    have hsecret : (commandSecret authorizationConfig).toList.map Bytes.ofText =
        [Bytes.ofText "Bearer t0ken"] := rfl
    rw [hsecret]
    intro key hkey other hother hne
    simp only [List.cons_append, List.nil_append, List.mem_cons, List.not_mem_nil, or_false,
      or_self] at hkey hother
    exact absurd (hkey.trans hother.symm) hne

theorem encryptedConfig_not_agrees :
    ∃ sdk application, createSDKComposition signatureRuntime {} encryptedConfig = .ok sdk ∧
      sdk.deadLetterStore = some application ∧
      ¬ ∃ command, cmdDrainStore signatureRuntime {} encryptedConfig = .ok command ∧
        CommandAgrees exampleRuntime application command := by
  have hsigned : (storeOf encryptedConfig).map (fun found => signEnvelope found.2 markerEntry) =
      some markerMac := by decide +kernel
  obtain ⟨⟨sdk, application⟩, hfound, hmac⟩ := Option.map_eq_some_iff.mp hsigned
  obtain ⟨hsdk, hstore⟩ := storeOf_some hfound
  refine ⟨sdk, application, hsdk, hstore, ?_⟩
  rintro ⟨command, hcommand, hagrees⟩
  have haccepts := hagrees.accepts markerEntry
  dsimp only at hmac
  rw [hmac] at haccepts
  have hrejects : (cmdDrainStore signatureRuntime {} encryptedConfig).toOption.map
      (fun command => verifyMac command markerEntry markerMac) = some false := by decide +kernel
  rw [hcommand] at hrejects
  exact Bool.false_ne_true ((Option.some.inj hrejects).symm.trans haccepts)

end ErrorCore.DeadLetterStore
