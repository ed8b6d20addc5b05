import ErrorCore.FieldScrubber
import ErrorCore.Security.Encryption.Attempts

/-!
# Round trip of encrypted fields

Under an ideal cipher a field decrypts to what was encrypted exactly when that
was not empty and the reader has the SDK version of the writer: the packed field
of the empty input is below the minimum length, and the additional data holds
the SDK version of whoever computes it. A reference decrypts exactly when the
blob it points to is itself a packed field.
-/

namespace ErrorCore

variable {rt : CryptoRuntime} {sealing : GcmCall → Prop} {writer reader : Encryption}

/-- An ideal cipher opens exactly what was sealed, and seals no two messages alike. -/
structure IdealGcm (rt : CryptoRuntime) (sealing : GcmCall → Prop) : Prop where
  opens : ∀ key nonce aad ciphertext authTag plaintext,
    rt.gcmDecrypt key nonce aad ciphertext authTag = some plaintext ↔
      ∃ call, sealing call ∧ call.key = key ∧ call.nonce = nonce ∧ call.aad = aad ∧
        call.ciphertext = ciphertext ∧ call.authTag = authTag ∧ call.plaintext = plaintext
  unique : ∀ a b, sealing a → sealing b → a.nonce = b.nonce → a.ciphertext = b.ciphertext →
    a.authTag = b.authTag → a = b

/-- The message that encrypting a field seals. -/
def fieldCall (rt : CryptoRuntime) (writer : Encryption) (input : Bytes) (nonce : Nonce) :
    GcmCall where
  key := writer.primary.derivedKey
  nonce := nonce.bytes
  aad := buildFieldAad writer.sdkVersion writer.primary.keyId
  plaintext := input
  ciphertext := (rt.gcmEncrypt writer.primary.derivedKey nonce.bytes
    (buildFieldAad writer.sdkVersion writer.primary.keyId) input).1
  authTag := (rt.gcmEncrypt writer.primary.derivedKey nonce.bytes
    (buildFieldAad writer.sdkVersion writer.primary.keyId) input).2
  length_eq := rt.gcmEncrypt_length _ _ _ _

/-! ## Decrypting a packed field -/

/-- The materials that decrypting a field tries, in their order. -/
def Encryption.fieldMaterials (rt : CryptoRuntime) (reader : Encryption) :
    List RuntimeKeyMaterial :=
  reader.chain.map (·.toRuntimeKeyMaterial) ++ reader.legacyMaterials rt

/-- A sealed message that some material of the reader opens. -/
structure SealedFor (rt : CryptoRuntime) (reader : Encryption) (call : GcmCall) : Prop where
  nonce : call.nonce.length = 12
  material : ∃ material ∈ reader.fieldMaterials rt, call.key = material.derivedKey ∧
    call.aad = buildFieldAad reader.sdkVersion material.keyId

section Materials

variable {iv ciphertext authTag plaintext : Bytes} {materials : List RuntimeKeyMaterial}

theorem decryptFieldWith_eq_some
    (h : reader.decryptFieldWith rt iv ciphertext authTag materials = some plaintext) :
    ∃ material ∈ materials, rt.gcmDecrypt material.derivedKey iv
      (buildFieldAad reader.sdkVersion material.keyId) ciphertext authTag = some plaintext := by
  induction materials with
  | nil => exact nomatch h
  | cons material rest ih =>
      rw [Encryption.decryptFieldWith] at h
      split at h
      · next opened hopened =>
          obtain rfl := Option.some.inj h
          exact ⟨material, List.mem_cons_self, hopened⟩
      · obtain ⟨other, hmem, hopened⟩ := ih h
        exact ⟨other, List.mem_cons_of_mem _ hmem, hopened⟩

theorem decryptFieldWith_isSome
    (h : ∃ material ∈ materials, rt.gcmDecrypt material.derivedKey iv
      (buildFieldAad reader.sdkVersion material.keyId) ciphertext authTag = some plaintext) :
    ∃ opened, reader.decryptFieldWith rt iv ciphertext authTag materials = some opened := by
  induction materials with
  | nil =>
      obtain ⟨material, hmem, -⟩ := h
      exact nomatch hmem
  | cons material rest ih =>
      rw [Encryption.decryptFieldWith]
      split
      · next opened hopened => exact ⟨opened, rfl⟩
      · next hnone =>
          obtain ⟨other, hmem, hopened⟩ := h
          rcases List.mem_cons.mp hmem with rfl | hmem
          · exact nomatch hnone.symm.trans hopened
          · exact ih ⟨other, hmem, hopened⟩

/-- All materials that open one ciphertext yield the same plaintext. -/
theorem IdealGcm.decryptFieldWith_iff (hideal : IdealGcm rt sealing) :
    reader.decryptFieldWith rt iv ciphertext authTag materials = some plaintext ↔
      ∃ material ∈ materials, rt.gcmDecrypt material.derivedKey iv
        (buildFieldAad reader.sdkVersion material.keyId) ciphertext authTag = some plaintext := by
  constructor
  · intro h
    exact decryptFieldWith_eq_some h
  · intro h
    obtain ⟨opened, hopened⟩ := decryptFieldWith_isSome h
    obtain ⟨material, -, hmaterial⟩ := h
    obtain ⟨other, -, hother⟩ := decryptFieldWith_eq_some hopened
    obtain ⟨a, ha, -, hna, -, hca, hta, rfl⟩ := (hideal.opens _ _ _ _ _ _).mp hmaterial
    obtain ⟨b, hb, -, hnb, -, hcb, htb, rfl⟩ := (hideal.opens _ _ _ _ _ _).mp hother
    rw [hopened, hideal.unique a b ha hb (hna.trans hnb.symm) (hca.trans hcb.symm)
      (hta.trans htb.symm)]

end Materials

/-- A field decrypts exactly when it is a packed message, not empty, that the reader opens. -/
theorem decryptField_iff {bytes nonce plaintext : Bytes} (hideal : IdealGcm rt sealing) :
    reader.decryptField rt bytes nonce = .ok plaintext ↔
      ∃ call, sealing call ∧ SealedFor rt reader call ∧ call.nonce = nonce ∧
        call.ciphertext ++ call.authTag = bytes ∧ call.plaintext = plaintext ∧
          plaintext ≠ [] := by
  constructor
  · intro h
    rw [Encryption.decryptField] at h
    split at h
    · exact nomatch h
    · next hshape =>
        obtain ⟨hnonce, hlength⟩ := not_or.mp hshape
        dsimp only at h
        split at h
        · next opened hopened =>
            obtain rfl := Except.ok.inj h
            obtain ⟨material, hmem, hdecrypt⟩ := hideal.decryptFieldWith_iff.mp hopened
            obtain ⟨call, hcall, hkey, rfl, haad, hciphertext, hauthTag, rfl⟩ :=
              (hideal.opens _ _ _ _ _ _).mp hdecrypt
            refine ⟨call, hcall, ⟨not_not.mp hnonce, material, hmem, hkey, haad⟩, rfl, ?_, rfl, ?_⟩
            · rw [hciphertext, hauthTag, List.take_append_drop]
            · intro hempty
              have hcount := call.length_eq.1
              rw [hciphertext, hempty, List.length_take, List.length_nil] at hcount
              omega
        · exact nomatch h
  · rintro ⟨call, hcall, hopens, rfl, rfl, rfl, hne⟩
    obtain ⟨material, hmem, hkey, haad⟩ := hopens.material
    obtain ⟨hciphertext, hauthTag⟩ := call.length_eq
    have hpositive := List.length_pos_iff.mpr hne
    have hlength : (call.ciphertext ++ call.authTag).length - 16 = call.ciphertext.length := by
      rw [List.length_append, hauthTag]
      omega
    have hfound : reader.decryptFieldWith rt call.nonce call.ciphertext call.authTag
        (reader.fieldMaterials rt) = some call.plaintext := by
      apply hideal.decryptFieldWith_iff.mpr
      refine ⟨material, hmem, (hideal.opens _ _ _ _ _ _).mpr ?_⟩
      exact ⟨call, hcall, hkey, rfl, haad, rfl, rfl, rfl⟩
    rw [Encryption.fieldMaterials] at hfound
    rw [Encryption.decryptField, if_neg]
    · rw [hlength, List.take_left, List.drop_left]
      simp only [hfound]
    · rw [List.length_append, hauthTag, hopens.nonce]
      omega

/-! ## Readers that share the key -/

/-- Two chains of the constructor; the reader has the key of the writer. -/
structure SharesKey (rt : CryptoRuntime) (writer reader : Encryption) : Prop where
  configured : ∃ key writerOptions readerKey readerOptions,
    Encryption.new rt key writerOptions = .ok writer ∧
      Encryption.new rt readerKey readerOptions = .ok reader ∧
      key ∈ configuredKeys readerKey readerOptions

theorem deriveKeys_derivedKey {key : KeyInput} {macKey : Option KeyInput} {km : KeyMaterial}
    {secret : Bytes} (hsecret : readKeyMaterial key = .ok secret)
    (h : deriveKeys rt key macKey = .ok km) :
    km.derivedKey = rt.hkdfSync secret STATIC_KEY_SALT := by
  rw [deriveKeys, hsecret] at h
  obtain ⟨_, hread, h⟩ := Except.bind_eq_ok.mp h
  obtain rfl := Except.ok.inj hread
  obtain ⟨_, -, h⟩ := Except.bind_eq_ok.mp h
  obtain ⟨_, -, h⟩ := Except.bind_eq_ok.mp h
  obtain rfl := Except.pure_eq_ok.mp h
  rfl

theorem deriveKeys_readKeyMaterial {key : KeyInput} {macKey : Option KeyInput} {km : KeyMaterial}
    (h : deriveKeys rt key macKey = .ok km) : ∃ secret, readKeyMaterial key = .ok secret := by
  rw [deriveKeys] at h
  obtain ⟨secret, hread, -⟩ := Except.bind_eq_ok.mp h
  exact ⟨secret, hread⟩

/-- The reader has a material with the key and the key id of the writer. -/
theorem SharesKey.exists_mem (h : SharesKey rt writer reader) :
    ∃ material ∈ reader.fieldMaterials rt, material.derivedKey = writer.primary.derivedKey ∧
      material.keyId = writer.primary.keyId := by
  obtain ⟨key, writerOptions, readerKey, readerOptions, hwriter, hreader, hmem⟩ := h.configured
  obtain ⟨key', hkey', hprimary⟩ := Encryption.deriveKeys_of_chain hwriter (i := 0) rfl
  obtain rfl := Option.some.inj hkey'
  obtain ⟨i, hi⟩ := List.getElem?_of_mem hmem
  obtain ⟨-, hnone⟩ | ⟨other, km, hother, hkm, hderived⟩ :=
    Except.getElem?_mapM (Encryption.new_chain hreader) i
  · exact nomatch hnone.symm.trans hi
  · obtain rfl := Option.some.inj (hother.symm.trans hi)
    obtain ⟨secret, hsecret⟩ := deriveKeys_readKeyMaterial hprimary
    have hsame : km.derivedKey = writer.primary.derivedKey := by
      rw [deriveKeys_derivedKey hsecret hderived, deriveKeys_derivedKey hsecret hprimary]
    refine ⟨km.toRuntimeKeyMaterial, ?_, hsame, ?_⟩
    · apply List.mem_append_left
      exact List.mem_map_of_mem (List.mem_of_getElem? hkm)
    · rw [deriveKeys_keyId hderived, hsame, deriveKeys_keyId hprimary]

theorem SharesKey.keyId_of_mem (h : SharesKey rt writer reader) {material : RuntimeKeyMaterial}
    (hmem : material ∈ reader.fieldMaterials rt) :
    material.keyId = computeKeyId rt material.derivedKey := by
  obtain ⟨key, writerOptions, readerKey, readerOptions, hwriter, hreader, -⟩ := h.configured
  rcases List.mem_append.mp hmem with hcurrent | hlegacy
  · obtain ⟨km, hkm, rfl⟩ := List.mem_map.mp hcurrent
    obtain ⟨i, hi⟩ := List.getElem?_of_mem hkm
    exact Encryption.keyId_of_isMaterialAt hreader ⟨km, hi, .inl rfl⟩
  · obtain ⟨km, -, hderived⟩ := List.mem_filterMap.mp hlegacy
    cases hmaterial : getLegacyKeyMaterial rt km with
    | error message =>
        rw [hmaterial] at hderived
        exact nomatch hderived
    | ok legacy =>
        rw [hmaterial] at hderived
        obtain rfl := Option.some.inj hderived
        exact getLegacyKeyMaterial_keyId hmaterial

theorem buildFieldAad_inj {keyId sdkVersion₁ sdkVersion₂ : Text} :
    buildFieldAad sdkVersion₁ keyId = buildFieldAad sdkVersion₂ keyId ↔
      sdkVersion₁ = sdkVersion₂ := by
  constructor
  · intro h
    have htext := List.append_cancel_left (Bytes.ofText_injective h)
    exact (List.cons.inj htext).2
  · intro h
    rw [h]

/-- The reader opens what the writer sealed exactly when they have the same SDK version. -/
theorem SharesKey.sealedFor_iff (h : SharesKey rt writer reader) (input : Bytes)
    (nonce : Nonce) :
    SealedFor rt reader (fieldCall rt writer input nonce) ↔
      writer.sdkVersion = reader.sdkVersion := by
  obtain ⟨material, hmem, hderivedKey, hkeyId⟩ := h.exists_mem
  constructor
  · intro hsealed
    obtain ⟨other, hother, hkey, haad⟩ := hsealed.material
    have hotherId : other.keyId = writer.primary.keyId := by
      rw [h.keyId_of_mem hother, ← hkeyId, h.keyId_of_mem hmem, hderivedKey]
      exact congrArg (computeKeyId rt) hkey.symm
    rw [hotherId] at haad
    exact buildFieldAad_inj.mp haad
  · intro hversion
    refine ⟨nonce.length_eq, material, hmem, hderivedKey.symm, ?_⟩
    rw [hkeyId, ← hversion]
    rfl

/-- A field that the writer encrypted, read with the key of the writer. -/
theorem decryptField_encryptField_iff (hideal : IdealGcm rt sealing)
    (hshares : SharesKey rt writer reader) {input : Bytes} {nonce : Nonce}
    (hsealed : sealing (fieldCall rt writer input nonce)) :
    reader.decryptField rt (writer.encryptField rt input nonce).bytes
        (writer.encryptField rt input nonce).nonce = .ok input ↔
      input ≠ [] ∧ writer.sdkVersion = reader.sdkVersion := by
  rw [decryptField_iff hideal, ← hshares.sealedFor_iff input nonce]
  constructor
  · rintro ⟨call, hcall, hopens, hnonce, hbytes, hplaintext, hne⟩
    have htag := call.length_eq.2.trans (fieldCall rt writer input nonce).length_eq.2.symm
    have hparts := List.append_inj' hbytes htag
    have hsame := hideal.unique _ _ hcall hsealed hnonce hparts.1 hparts.2
    exact ⟨hne, hsame ▸ hopens⟩
  · rintro ⟨hne, hopens⟩
    exact ⟨_, hsealed, hopens, rfl, rfl, rfl, hne⟩

/-! ## Canonical base64 -/

namespace FieldScrubber

theorem isBase64Char_base64Char : ∀ n, n < 64 → isBase64Char (Bytes.base64Char n) = true := by
  decide

/-- Base64 text is a run of the alphabet and at most two pads. -/
theorem toBase64_shape (bytes : Bytes) :
    ∃ body count, Bytes.toBase64 bytes = body ++ List.replicate count '=' ∧ count ≤ 2 ∧
      body.all isBase64Char = true ∧ (bytes ≠ [] → body ≠ []) := by
  induction bytes using Bytes.toBase64.induct with
  | case1 => exact ⟨[], 0, rfl, by decide, rfl, fun h => absurd rfl h⟩
  | case2 a =>
      have ha := a.toNat_lt
      refine ⟨[_, _], 2, rfl, by decide, ?_, fun _ => List.cons_ne_nil _ _⟩
      simp only [List.all_cons, List.all_nil,
        isBase64Char_base64Char _ (show a.toNat / 4 < 64 by omega),
        isBase64Char_base64Char _ (show a.toNat % 4 * 16 < 64 by omega), Bool.and_true]
  | case3 a b =>
      have ha := a.toNat_lt
      have hb := b.toNat_lt
      refine ⟨[_, _, _], 1, rfl, by decide, ?_, fun _ => List.cons_ne_nil _ _⟩
      simp only [List.all_cons, List.all_nil,
        isBase64Char_base64Char _ (show a.toNat / 4 < 64 by omega),
        isBase64Char_base64Char _ (show a.toNat % 4 * 16 + b.toNat / 16 < 64 by omega),
        isBase64Char_base64Char _ (show b.toNat % 16 * 4 < 64 by omega), Bool.and_true]
  | case4 a b c rest ih =>
      have ha := a.toNat_lt
      have hb := b.toNat_lt
      have hc := c.toNat_lt
      obtain ⟨body, count, hrest, hcount, hall, -⟩ := ih
      refine ⟨Bytes.base64Char (a.toNat / 4) ::
        Bytes.base64Char (a.toNat % 4 * 16 + b.toNat / 16) ::
        Bytes.base64Char (b.toNat % 16 * 4 + c.toNat / 64) :: Bytes.base64Char (c.toNat % 64) ::
        body, count, ?_, hcount, ?_, fun _ => List.cons_ne_nil _ _⟩
      · rw [Bytes.toBase64, hrest]
        rfl
      · simp only [List.all_cons, hall,
          isBase64Char_base64Char _ (show a.toNat / 4 < 64 by omega),
          isBase64Char_base64Char _ (show a.toNat % 4 * 16 + b.toNat / 16 < 64 by omega),
          isBase64Char_base64Char _ (show b.toNat % 16 * 4 + c.toNat / 64 < 64 by omega),
          isBase64Char_base64Char _ (show c.toNat % 64 < 64 by omega), Bool.and_true]

theorem matchesBase64_toBase64 {bytes : Bytes} (h : bytes ≠ []) :
    matchesBase64 (Bytes.toBase64 bytes) = true := by
  obtain ⟨body, count, hshape, hcount, hall, hne⟩ := toBase64_shape bytes
  have hall' : ∀ c ∈ body, isBase64Char c = true := List.all_eq_true.mp hall
  have hpad : isBase64Char '=' = false := by decide
  have htake : (List.replicate count '=').takeWhile isBase64Char = [] := by
    cases count with
    | zero => rfl
    | succ count => rw [List.replicate_succ, List.takeWhile_cons, hpad]; rfl
  have hdrop : (List.replicate count '=').dropWhile isBase64Char = List.replicate count '=' := by
    cases count with
    | zero => rfl
    | succ count => rw [List.replicate_succ, List.dropWhile_cons, hpad]; rfl
  rw [matchesBase64, hshape, List.takeWhile_append_of_pos hall', List.dropWhile_append_of_pos hall',
    htake, hdrop, List.append_nil]
  simp [hne h, hcount]

/-- Decoding accepts what encoding writes, unless there was nothing to encode. -/
theorem decodeCanonicalBase64_toBase64 {bytes : Bytes} (h : bytes ≠ []) (fieldName : Text) :
    decodeCanonicalBase64 (Bytes.toBase64 bytes) fieldName = .ok bytes := by
  have hlength := Bytes.length_toBase64 bytes
  have hpositive := List.length_pos_iff.mpr h
  have hne : Bytes.toBase64 bytes ≠ [] := by
    intro hempty
    rw [hempty, List.length_nil] at hlength
    omega
  rw [decodeCanonicalBase64, if_neg]
  · dsimp only
    rw [Bytes.ofBase64_toBase64, if_neg (not_not.mpr rfl)]
  · rintro (hempty | hmod | hmatch)
    · exact hne hempty
    · omega
    · exact hmatch (matchesBase64_toBase64 h)

/-! ## Fields -/

section Fields

variable {σ : Type} {scrubber : Scrubber σ} {state : σ} {name : Text} {value : CapturedValue}
variable {source : Source} {nonce : Nonce} {processed : Processed σ} {data : Meta} {cipher : Blob}
variable {get : Text → Option Bytes}

theorem encodeNormal_encrypted {spool : Option (FieldSpool σ)} {policy : Policy} {data₀ : Meta}
    {result : σ × Field}
    (h : encodeNormal rt writer policy spool state name value data₀ source nonce = .ok result)
    (hcipher : result.2 = .encrypted data cipher) :
    ∃ plaintext, encodeFieldPlaintext value = .ok plaintext ∧
      (cipher = toInlineBlob rt writer plaintext nonce ∨ ∃ id bytes, cipher = .ref id bytes) := by
  rw [encodeNormal] at h
  obtain ⟨plaintext, hplaintext, h⟩ := Except.bind_eq_ok.mp h
  refine ⟨plaintext, hplaintext, ?_⟩
  split at h
  · cases spool with
    | none =>
        obtain rfl := Except.pure_eq_ok.mp h
        exact nomatch hcipher
    | some spool =>
        obtain ⟨stored, hstored, h⟩ := Except.bind_eq_ok.mp h
        obtain rfl := Except.pure_eq_ok.mp h
        rw [toRefBlob] at hstored
        obtain ⟨_, -, hstored⟩ := Except.bind_eq_ok.mp hstored
        obtain rfl := Except.pure_eq_ok.mp hstored
        obtain ⟨-, rfl⟩ := Field.encrypted.inj hcipher
        exact .inr ⟨_, _, rfl⟩
  · split at h
    · obtain rfl := Except.pure_eq_ok.mp h
      exact nomatch hcipher
    · obtain rfl := Except.pure_eq_ok.mp h
      obtain ⟨-, rfl⟩ := Field.encrypted.inj hcipher
      exact .inl rfl

/-- A field of mode `encrypted` comes from encoding the value with the key of the scrubber. -/
theorem process_encrypted
    (h : scrubber.process rt state name value source nonce = .ok processed)
    (hcipher : processed.field = .encrypted data cipher) :
    ∃ writer plaintext, scrubber.encryption = some writer ∧
      encodeFieldPlaintext value = .ok plaintext ∧
        (cipher = toInlineBlob rt writer plaintext nonce ∨
          ∃ id bytes, cipher = .ref id bytes) := by
  rw [Scrubber.process] at h
  obtain ⟨data₀, -, h⟩ := Except.bind_eq_ok.mp h
  split at h
  · obtain rfl := Except.pure_eq_ok.mp h
    exact nomatch hcipher
  · split at h
    · obtain rfl := Except.pure_eq_ok.mp h
      exact nomatch hcipher
    · next writer hwriter =>
        split at h
        · next state' field hencoded =>
            obtain rfl := Except.pure_eq_ok.mp h
            obtain ⟨plaintext, hplaintext, hblob⟩ := encodeNormal_encrypted hencoded hcipher
            exact ⟨writer, plaintext, hwriter, hplaintext, hblob⟩
        · obtain rfl := Except.pure_eq_ok.mp h
          exact nomatch hcipher

theorem decryptFieldValue_ref {id : Text} {bytes : Nat} {packed : Bytes}
    (hpresent : get id = some packed) (hlength : REF_NONCE_BYTES + 1 ≤ packed.length) :
    decryptFieldValue rt reader get (.encrypted data (.ref id bytes)) =
      reader.decryptField rt (packed.drop REF_NONCE_BYTES) (packed.take REF_NONCE_BYTES) := by
  rw [decryptFieldValue, hpresent]
  exact if_neg (by omega)

theorem encryptField_length (rt : CryptoRuntime) (writer : Encryption) (input : Bytes)
    (nonce : Nonce) :
    (writer.encryptField rt input nonce).bytes.length = input.length + 16 := by
  have hlength := (fieldCall rt writer input nonce).length_eq
  change ((fieldCall rt writer input nonce).ciphertext ++
    (fieldCall rt writer input nonce).authTag).length = _
  rw [List.length_append, hlength.1, hlength.2]
  rfl

/-- Both forms of a field lead to decrypting what the writer encrypted. -/
theorem decryptFieldValue_encoded {plaintext : Bytes}
    (hcipher : cipher = toInlineBlob rt writer plaintext nonce ∨ ∃ id bytes, cipher = .ref id bytes)
    (hpresent : ∀ id bytes, cipher = .ref id bytes →
      get id = some (packedField rt writer plaintext nonce)) :
    decryptFieldValue rt reader get (.encrypted data cipher) =
      reader.decryptField rt (writer.encryptField rt plaintext nonce).bytes
        (writer.encryptField rt plaintext nonce).nonce := by
  have hbytes := encryptField_length rt writer plaintext nonce
  have hnonce : (writer.encryptField rt plaintext nonce).nonce.length = 12 := nonce.length_eq
  have hbytesNe : (writer.encryptField rt plaintext nonce).bytes ≠ [] := by
    apply List.length_pos_iff.mp
    omega
  have hnonceNe : (writer.encryptField rt plaintext nonce).nonce ≠ [] := by
    apply List.length_pos_iff.mp
    omega
  rcases hcipher with rfl | ⟨id, bytes, rfl⟩
  · rw [toInlineBlob, decryptFieldValue, decodeCanonicalBase64_toBase64 hbytesNe,
      decodeCanonicalBase64_toBase64 hnonceNe]
    rfl
  · rw [decryptFieldValue_ref (hpresent id bytes rfl), packedField]
    · rw [REF_NONCE_BYTES, List.drop_left' hnonce, List.take_left' hnonce]
    · rw [packedField, REF_NONCE_BYTES, List.length_append]
      omega

/-- The blob is the packed field of a plaintext, not empty, that the reader opens. -/
def IsPackedField (rt : CryptoRuntime) (sealing : GcmCall → Prop) (reader : Encryption)
    (blob plaintext : Bytes) : Prop :=
  ∃ call, sealing call ∧ SealedFor rt reader call ∧
    blob = call.nonce ++ (call.ciphertext ++ call.authTag) ∧ call.plaintext = plaintext ∧
      plaintext ≠ []

theorem decryptFieldValue_blob_iff {blob plaintext : Bytes} {id : Text} {bytes : Nat}
    (hideal : IdealGcm rt sealing) (hpresent : get id = some blob) :
    decryptFieldValue rt reader get (.encrypted data (.ref id bytes)) = .ok plaintext ↔
      IsPackedField rt sealing reader blob plaintext := by
  constructor
  · intro h
    have hlength : REF_NONCE_BYTES + 1 ≤ blob.length := by
      by_contra hshort
      rw [decryptFieldValue, hpresent] at h
      dsimp only at h
      rw [if_pos (by omega)] at h
      exact nomatch h
    rw [decryptFieldValue_ref hpresent hlength, decryptField_iff hideal] at h
    obtain ⟨call, hcall, hopens, hnonce, hbytes, hplaintext, hne⟩ := h
    refine ⟨call, hcall, hopens, ?_, hplaintext, hne⟩
    rw [hnonce, hbytes, List.take_append_drop]
  · rintro ⟨call, hcall, hopens, rfl, rfl, hne⟩
    have hnonce : call.nonce.length = REF_NONCE_BYTES := hopens.nonce
    have hlength : REF_NONCE_BYTES + 1 ≤
        (call.nonce ++ (call.ciphertext ++ call.authTag)).length := by
      rw [List.length_append, List.length_append, hnonce, call.length_eq.2]
      omega
    rw [decryptFieldValue_ref hpresent hlength, decryptField_iff hideal]
    refine ⟨call, hcall, hopens, ?_, ?_, rfl, hne⟩
    · rw [List.take_left' hnonce]
    · rw [List.drop_left' hnonce]

theorem processRef_encrypted {ref : StoredRef}
    (h : scrubber.processRef state name value source ref = .ok processed)
    (hcipher : processed.field = .encrypted data cipher) : cipher = .ref ref.id ref.bytes := by
  rw [Scrubber.processRef] at h
  obtain ⟨data₀, -, h⟩ := Except.bind_eq_ok.mp h
  dsimp only at h
  split at h
  · obtain rfl := Except.pure_eq_ok.mp h
    exact nomatch hcipher
  · split at h
    · obtain rfl := Except.pure_eq_ok.mp h
      exact nomatch hcipher
    · obtain rfl := Except.pure_eq_ok.mp h
      exact (Field.encrypted.inj hcipher).2.symm

/-- An encrypted field is read back, by a reader that has the key of the writer, exactly when it was
not empty and the SDK versions agree; a reference that the caller made, exactly when the blob of the
caller is a packed field of the value. -/
theorem field_roundTrip_iff (σ : Type) (hideal : IdealGcm rt sealing)
    (hshares : SharesKey rt writer reader) :
    (∀ (input : Bytes) (nonce : Nonce), sealing (fieldCall rt writer input nonce) →
      (reader.decryptField rt (writer.encryptField rt input nonce).bytes
          (writer.encryptField rt input nonce).nonce = .ok input ↔
        input ≠ [] ∧ writer.sdkVersion = reader.sdkVersion)) ∧
    (∀ (scrubber : Scrubber σ) (state : σ) (name : Text) (value : CapturedValue) (source : Source)
        (nonce : Nonce) (processed : Processed σ) (data : Meta) (cipher : Blob)
        (get : Text → Option Bytes) (plaintext : Bytes),
      scrubber.encryption = some writer →
      scrubber.process rt state name value source nonce = .ok processed →
      processed.field = .encrypted data cipher → encodeFieldPlaintext value = .ok plaintext →
      sealing (fieldCall rt writer plaintext nonce) →
      (∀ id bytes, cipher = .ref id bytes →
        get id = some (packedField rt writer plaintext nonce)) →
      (decryptFieldValue rt reader get processed.field = .ok plaintext ↔
        plaintext ≠ [] ∧ writer.sdkVersion = reader.sdkVersion)) ∧
    ∀ (scrubber : Scrubber σ) (state : σ) (name : Text) (value : CapturedValue) (source : Source)
        (ref : StoredRef) (processed : Processed σ) (data : Meta) (cipher : Blob)
        (get : Text → Option Bytes) (plaintext blob : Bytes),
      scrubber.processRef state name value source ref = .ok processed →
      processed.field = .encrypted data cipher → encodeFieldPlaintext value = .ok plaintext →
      get ref.id = some blob →
      (decryptFieldValue rt reader get processed.field = .ok plaintext ↔
        IsPackedField rt sealing reader blob plaintext) := by
  refine ⟨?_, ?_, ?_⟩
  · intro input nonce hsealed
    exact decryptField_encryptField_iff hideal hshares hsealed
  · intro scrubber state name value source nonce processed data cipher get plaintext hencryption
      hprocess hfield hplaintext hsealed hpresent
    obtain ⟨writer', plaintext', hwriter, hplaintext', hcipher⟩ :=
      process_encrypted hprocess hfield
    obtain rfl := Option.some.inj (hwriter.symm.trans hencryption)
    obtain rfl := Except.ok.inj (hplaintext'.symm.trans hplaintext)
    rw [hfield, decryptFieldValue_encoded hcipher hpresent]
    exact decryptField_encryptField_iff hideal hshares hsealed
  · intro scrubber state name value source ref processed data cipher get plaintext blob hprocess
      hfield hplaintext hpresent
    obtain rfl := processRef_encrypted hprocess hfield
    rw [hfield]
    exact decryptFieldValue_blob_iff hideal hpresent

end Fields

/-! ## Two recorded fields -/

theorem recorded_idealGcm (calls : RecordedCalls) :
    IdealGcm calls.runtime (fun call => call = calls.gcm) where
  opens := by
    intro key nonce aad ciphertext authTag plaintext
    dsimp only [RecordedCalls.runtime]
    constructor
    · intro h
      split at h
      · next hcall =>
          obtain ⟨rfl, rfl, rfl, rfl, rfl⟩ := hcall
          exact ⟨_, rfl, rfl, rfl, rfl, rfl, rfl, Option.some.inj h⟩
      · exact nomatch h
    · rintro ⟨call, rfl, rfl, rfl, rfl, rfl, rfl, rfl⟩
      exact if_pos ⟨rfl, rfl, rfl, rfl, rfl⟩
  unique := by
    rintro a b rfl rfl - - -
    rfl

def shortNonce : Nonce := ⟨List.replicate 12 0, rfl⟩

/-- The field `1`, encrypted with the key `k` by version 1. -/
def oneCall : GcmCall where
  key := shortKey.derivedKey
  nonce := List.replicate 12 0
  aad := buildFieldAad "1" shortKey.keyId
  plaintext := Bytes.ofText "1"
  ciphertext := [0x7c]
  authTag := Bytes.bigEndian 16 0x878456d2d555d05e83ca7d25a38ee730
  length_eq := by decide

/-- The empty field, encrypted with the key `k` by version 1. -/
def emptyCall : GcmCall where
  key := shortKey.derivedKey
  nonce := List.replicate 12 0
  aad := buildFieldAad "1" shortKey.keyId
  plaintext := []
  ciphertext := []
  authTag := Bytes.bigEndian 16 0x29ce326da8d8100ab602d48109dea9aa
  length_eq := by decide

def fieldCalls (call : GcmCall) : RecordedCalls := shortKeyCalls [] call [] []

/-- The chain of the key `k` in another version of the SDK. -/
def otherVersion : Encryption := { shortEncryption with sdkVersion := "2" }

theorem shortEncryption_sharesKey (call : GcmCall) :
    SharesKey (fieldCalls call).runtime shortEncryption shortEncryption :=
  ⟨_, _, _, _, shortEncryption_new _ _ _ _, shortEncryption_new _ _ _ _, List.mem_cons_self⟩

theorem otherVersion_sharesKey (call : GcmCall) :
    SharesKey (fieldCalls call).runtime shortEncryption otherVersion := by
  refine ⟨_, _, .text "k", { sdkVersion := some "2" }, shortEncryption_new _ _ _ _, ?_,
    List.mem_cons_self⟩
  rfl

theorem oneCall_eq :
    fieldCall (fieldCalls oneCall).runtime shortEncryption (Bytes.ofText "1") shortNonce =
      oneCall := by
  rfl

theorem emptyCall_eq :
    fieldCall (fieldCalls emptyCall).runtime shortEncryption [] shortNonce = emptyCall := by
  rfl

/-- The number 1. -/
def oneValue : CapturedValue where
  type := "number"
  json := .text "1"
  string := .ok "1"
  length := none
  keys := none

def oneScrubber : Scrubber Unit where
  policy := {
    credentialNames := fun _ => false
    piiDetectors := []
    maxKeys := 32
    spoolBytes := 65536
    maxField := 1048576 }
  encryption := some shortEncryption
  spool := none

theorem oneField_roundTrip :
    (shortEncryption.decryptField (fieldCalls oneCall).runtime [0x7c, 0x87, 0x84, 0x56, 0xd2, 0xd5,
        0x55, 0xd0, 0x5e, 0x83, 0xca, 0x7d, 0x25, 0xa3, 0x8e, 0xe7, 0x30] (List.replicate 12 0) =
          .ok (Bytes.ofText "1") ↔
        Bytes.ofText "1" ≠ [] ∧ shortEncryption.sdkVersion = shortEncryption.sdkVersion) ∧
      (decryptFieldValue (fieldCalls oneCall).runtime shortEncryption (fun _ => none)
          (.encrypted ⟨"number", 1, none, none⟩
            (toInlineBlob (fieldCalls oneCall).runtime shortEncryption (Bytes.ofText "1")
              shortNonce)) = .ok (Bytes.ofText "1") ↔
        Bytes.ofText "1" ≠ [] ∧ shortEncryption.sdkVersion = shortEncryption.sdkVersion) ∧
      (decryptFieldValue (fieldCalls oneCall).runtime shortEncryption
          (fun _ => some (Bytes.ofText "1"))
          (.encrypted ⟨"number", 1, none, none⟩ (.ref "blob_1" 1)) = .ok (Bytes.ofText "1") ↔
        IsPackedField (fieldCalls oneCall).runtime (fun call => call = oneCall) shortEncryption
          (Bytes.ofText "1") (Bytes.ofText "1")) := by
  have h := field_roundTrip_iff Unit (recorded_idealGcm (fieldCalls oneCall))
    (shortEncryption_sharesKey oneCall)
  refine ⟨?_, ?_, ?_⟩
  · exact h.1 (Bytes.ofText "1") shortNonce oneCall_eq
  · exact h.2.1 oneScrubber () "n" oneValue .app shortNonce ⟨_, [], ()⟩ _ _ (fun _ => none) _ rfl
      rfl rfl rfl oneCall_eq (fun _ _ hcipher => nomatch hcipher)
  · exact h.2.2 oneScrubber () "n" oneValue .app ⟨"blob_1", 1⟩ ⟨_, [], ()⟩ _ _ _ _ _ rfl rfl rfl rfl

/-- The empty field is not read back by the instance that encrypted it, and the field `1` is not
read back in another version. -/
theorem emptyField_not_roundTrip :
    (¬ ∀ rt sealing writer, IdealGcm rt sealing → SharesKey rt writer writer →
        ∀ input nonce, sealing (fieldCall rt writer input nonce) →
          writer.decryptField rt (writer.encryptField rt input nonce).bytes
            (writer.encryptField rt input nonce).nonce = .ok input) ∧
      ¬ ∀ rt sealing writer reader, IdealGcm rt sealing → SharesKey rt writer reader →
        ∀ input nonce, sealing (fieldCall rt writer input nonce) → input ≠ [] →
          reader.decryptField rt (writer.encryptField rt input nonce).bytes
            (writer.encryptField rt input nonce).nonce = .ok input := by
  constructor
  · intro claim
    have hread := claim _ _ _ (recorded_idealGcm (fieldCalls emptyCall))
      (shortEncryption_sharesKey emptyCall) [] shortNonce emptyCall_eq
    exact nomatch hread
  · intro claim
    have hread := claim _ _ _ _ (recorded_idealGcm (fieldCalls oneCall))
      (otherVersion_sharesKey oneCall) (Bytes.ofText "1") shortNonce oneCall_eq (by decide)
    have hversion := (decryptField_encryptField_iff (recorded_idealGcm (fieldCalls oneCall))
      (otherVersion_sharesKey oneCall) oneCall_eq).mp hread
    exact absurd hversion.2 (by decide)

end FieldScrubber

end ErrorCore
