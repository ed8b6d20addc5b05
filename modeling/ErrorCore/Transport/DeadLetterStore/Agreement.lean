import ErrorCore.Foundation.Transition
import ErrorCore.Transport.DeadLetterStore.Appends
import ErrorCore.Transport.DeadLetterStore.Signatures

/-!
# What was appended and what is drained

The writer checks how long a payload is. The reader checks that again, and also
that there is a payload and, where the store asks for it, that it has the form of
an encrypted one. What only the reader refuses is reported as stored and is
never drained.
-/

namespace ErrorCore.DeadLetterStore

/-- A call on a store. -/
inductive Call
  | append (entry : Entry)
  | markAcked (id : Text)
  deriving DecidableEq, Repr

/-- A store over its file, with the payloads whose append returned `true`, in their order. -/
structure Session where
  file : StoreFile
  store : Store
  stored : List Text
  deriving DecidableEq, Repr

/-- The payload of an entry that has one. -/
def Entry.payloads : Entry → List Text
  | .ofPayload _ payload => [payload]
  | .ofMarker _ _ => []

namespace Session

/-- A new store, without a file. -/
def opened : Session where
  file := none
  store := Store.fresh
  stored := []

section Calls

variable (rt : Runtime) (opts : DeadLetterStoreOptions)

def append (s : Session) (entry : Entry) : Session :=
  let (ok, file, store) := entry.apply rt opts s.file s.store
  { file, store, stored := if ok then s.stored ++ entry.payloads else s.stored }

def step (s : Session) : Call → Option Session
  | .append entry => some (s.append rt opts entry)
  | .markAcked id => some { s with store := DeadLetterStore.markAcked s.store id }

def calls : Transition.System Session Call where
  init s := s = opened
  step := step rt opts

/-- The stored payloads whose id is not acknowledged. -/
def outstanding (s : Session) : List Text :=
  s.stored.filter fun payload => computePayloadId rt payload ∉ s.store.ackedPayloadIds

/-- What the reader checks of a payload and the writer does not. -/
def isDrainable (payload : Text) : Bool :=
  payload ≠ [] && (!opts.requireEncryptedPayload || isEncryptedPayloadFormat rt payload)

/-- A drain lists these payloads, in their order and by increasing line numbers. -/
structure Drains (s : Session) (payloads : List Text) : Prop where
  payloads : (drain rt opts s.file s.store true).entries.map (·.payload) = payloads
  increasing :
    (drain rt opts s.file s.store true).entries.Pairwise (·.lineNumber < ·.lineNumber)
  bounded : ∀ e ∈ (drain rt opts s.file s.store true).entries,
    e.lineNumber ≤ (drain rt opts s.file s.store true).lineCount

/-- The call does not rename the file away. -/
def WithoutRotation (s : Session) : Call → Prop
  | .append entry => entry.writes rt opts s.file s.store = true → rotates opts s.file = false
  | .markAcked _ => True

/-- The time of an entry is one that the runtime has printed. -/
def Clocked : Call → Prop
  | .append entry => (rt.parseDate entry.storedAt).isSome = true
  | .markAcked _ => True

instance (s : Session) (call : Call) : Decidable (WithoutRotation rt opts s call) :=
  match call with
  | .append entry =>
      inferInstanceAs (Decidable
        (entry.writes rt opts s.file s.store = true → rotates opts s.file = false))
  | .markAcked _ => .isTrue trivial

instance (call : Call) : Decidable (Clocked rt call) :=
  match call with
  | .append entry => inferInstanceAs (Decidable ((rt.parseDate entry.storedAt).isSome = true))
  | .markAcked _ => .isTrue trivial

end Calls

end Session

/-- The line carries a MAC for its payload that one of the keys has made. -/
def CarriesMac (rt : Runtime) (crt : CryptoRuntime) (keys : List Bytes) (line payload : Text) :
    Prop :=
  ∃ envelope id, parseRawEnvelope rt line = some envelope ∧
    envelope.content = .payload id payload ∧
    ∃ key ∈ keys, hmacMatches crt key envelope.toUnsignedEnvelope.stringify envelope.mac = true

section Chains

variable {rt : Runtime} {crt : CryptoRuntime} {opts : DeadLetterStoreOptions}
variable {primary : Bytes} {keys : List Bytes} {line id payload : Text}

/-- A store accepts what it has signed. -/
theorem verifyMac_signEnvelope (chain : IsChain crt opts.verifier primary keys)
    (envelope : UnsignedEnvelope) :
    verifyMac opts envelope (signEnvelope opts envelope) = true := by
  apply (chain.verify _ _).mpr
  refine ⟨primary, chain.mem, ?_⟩
  rw [signEnvelope, chain.sign]
  exact (hmacMatches_hmacText _).mpr rfl

/-- What is read as a payload carries a MAC of the chain. -/
theorem carriesMac_of_parsePayload (chain : IsChain crt opts.verifier primary keys)
    (h : parsePayload rt opts line = some (id, payload)) :
    CarriesMac rt crt keys line payload := by
  rw [parsePayload] at h
  split at h
  · next storedAt given payload' mac henvelope =>
    obtain ⟨-, rfl⟩ := Prod.mk.inj (Option.some.inj h)
    obtain ⟨hraw, hmac⟩ := parseRawEnvelope_of_parseEnvelope rt opts henvelope
    exact ⟨_, given, hraw, rfl, (chain.verify _ _).mp hmac⟩
  · contradiction

/-- The line of a payload is read where the reader takes the payload. -/
theorem parsePayload_ofPayload (chain : IsChain crt opts.verifier primary keys) {storedAt : Text}
    (hclock : (rt.parseDate storedAt).isSome = true) :
    parsePayload rt opts ((Entry.ofPayload storedAt payload).line rt opts) =
      if passesReader rt opts payload then some (computePayloadId rt payload, payload)
      else none := by
  have hmac := verifyMac_signEnvelope chain (payloadEnvelope rt storedAt payload)
  have hline := parsePayload_payloadLine rt opts storedAt (some (computePayloadId rt payload))
    payload (signEnvelope opts (payloadEnvelope rt storedAt payload))
  rw [payloadEnvelope] at hmac hline
  rw [hclock, hmac, Bool.true_and, Bool.true_and] at hline
  exact hline

/-- What the line of an entry is drained as. -/
theorem drainEntries_entry (chain : IsChain crt opts.verifier primary keys) {entry : Entry}
    (hclock : (rt.parseDate entry.storedAt).isSome = true) (store : Store) (n : Nat) :
    (drainEntries rt opts store n [entry.line rt opts]).map (·.payload) =
      entry.payloads.filter fun payload =>
        decide (computePayloadId rt payload ∉ store.ackedPayloadIds) &&
          passesReader rt opts payload := by
  cases entry with
  | ofPayload storedAt payload =>
      have hread : parsePayload rt opts ((Entry.ofPayload storedAt payload).line rt opts) =
          if passesReader rt opts payload then some (computePayloadId rt payload, payload)
          else none := parsePayload_ofPayload chain hclock
      rw [drainEntries, hread]
      simp only [Entry.payloads, drainEntries]
      cases hreader : passesReader rt opts payload with
      | false => simp [hreader]
      | true =>
          by_cases hacked : computePayloadId rt payload ∈ store.ackedPayloadIds
          · simp [hacked]
          · simp [hacked, hreader]
  | ofMarker storedAt code =>
      have hread : parsePayload rt opts ((Entry.ofMarker storedAt code).line rt opts) = none :=
        parsePayload_markerLine rt opts storedAt code _
      rw [drainEntries, hread]
      rfl

end Chains

/-! ## Sessions -/

namespace Session

/-- The file ends with a newline, what was stored is not oversized, and under every larger set of
acknowledged ids a drain lists what was stored, without what the reader refuses. -/
structure Consistent (rt : Runtime) (opts : DeadLetterStoreOptions) (s : Session) : Prop where
  closed : Text.openPart '\n' (s.file.getD []) = []
  fits : ∀ payload ∈ s.stored, Text.byteLength payload ≤ opts.maxPayloadBytes
  listed : ∀ store : Store, s.store.ackedPayloadIds ⊆ store.ackedPayloadIds →
    (drainEntries rt opts store 1 (linesOf s.file)).map (·.payload) =
      s.stored.filter fun payload =>
        decide (computePayloadId rt payload ∉ store.ackedPayloadIds) &&
          passesReader rt opts payload

variable {rt : Runtime} {crt : CryptoRuntime} {opts : DeadLetterStoreOptions}
variable {primary : Bytes} {keys : List Bytes} {s t : Session} {entry : Entry}

theorem opened_consistent : Consistent rt opts opened where
  closed := rfl
  fits := nofun
  listed _ _ := rfl

/-- A line that is added at the end of a finished file. -/
theorem linesOf_added (hclosed : Text.openPart '\n' (s.file.getD []) = []) :
    linesOf (some (s.file.getD [] ++ (entry.line rt opts ++ ['\n']))) =
      linesOf s.file ++ [entry.line rt opts] := by
  have hold : linesOf s.file = closedLines (s.file.getD []) := by
    cases hfile : s.file with
    | none => rfl
    | some content =>
        rw [hfile, Option.getD_some] at hclosed
        rw [linesOf, splitLines_eq, hclosed]
        simp
  rw [linesOf, splitLines_append Entry.line_ne_nil Entry.newline_not_mem_line, hclosed,
    List.nil_append, hold]

theorem append_eq {ok : Bool} {file : StoreFile} {store : Store}
    (happly : entry.apply rt opts s.file s.store = (ok, file, store)) :
    s.append rt opts entry =
      { file, store, stored := if ok then s.stored ++ entry.payloads else s.stored } := by
  rw [append, happly]

theorem Consistent.append_written (h : Consistent rt opts s)
    (chain : IsChain crt opts.verifier primary keys)
    (hclock : (rt.parseDate entry.storedAt).isSome = true)
    (hwrites : entry.writes rt opts s.file s.store = true)
    (hrotates : rotates opts s.file = false) :
    Consistent rt opts (s.append rt opts entry) := by
  obtain ⟨store', happly, hacked⟩ := Entry.apply_of_writes hwrites
  have hbefore : contentBefore opts s.file = s.file.getD [] := by
    rw [contentBefore, hrotates, if_neg Bool.false_ne_true]
  rw [hbefore] at happly
  rw [append_eq happly]
  refine ⟨?_, ?_, ?_⟩
  · rw [Option.getD_some, ← List.append_assoc]
    exact Text.openPart_append_separator '\n' _
  · intro payload hpayload
    rw [if_pos rfl, List.mem_append] at hpayload
    rcases hpayload with hold | hnew
    · exact h.fits payload hold
    · cases entry with
      | ofPayload storedAt payload' =>
          obtain rfl := List.mem_singleton.mp hnew
          simp only [Entry.writes, Entry.isOversized, Bool.and_eq_true, Bool.not_eq_true',
            decide_eq_false_iff_not, Nat.not_lt] at hwrites
          exact hwrites.1.1
      | ofMarker storedAt code => exact absurd hnew List.not_mem_nil
  · intro store hsub
    rw [hacked] at hsub
    dsimp only
    rw [linesOf_added h.closed, drainEntries_append, List.map_append, h.listed store hsub,
      drainEntries_entry chain hclock, if_pos rfl, List.filter_append]

theorem Consistent.append_unwritten (h : Consistent rt opts s)
    (hwrites : entry.writes rt opts s.file s.store = false) :
    Consistent rt opts (s.append rt opts entry) := by
  obtain ⟨store', happly, hacked⟩ := Entry.apply_of_not_writes hwrites
  rw [append_eq happly]
  cases hwas : entry.wasAcked rt opts s.store with
  | false =>
      refine ⟨h.closed, h.fits, ?_⟩
      intro store hsub
      rw [hacked] at hsub
      exact h.listed store hsub
  | true =>
      cases entry with
      | ofMarker storedAt code => contradiction
      | ofPayload storedAt payload =>
          obtain ⟨hfits, hmem⟩ := Bool.and_eq_true_iff.mp hwas
          refine ⟨h.closed, ?_, ?_⟩
          · intro payload' hpayload
            rcases List.mem_append.mp hpayload with hold | hnew
            · exact h.fits payload' hold
            · obtain rfl := List.mem_singleton.mp hnew
              exact of_decide_eq_true hfits
          · intro store hsub
            rw [hacked] at hsub
            have hid : computePayloadId rt payload ∈ store.ackedPayloadIds :=
              hsub (of_decide_eq_true hmem)
            dsimp only
            rw [h.listed store hsub, if_pos rfl, List.filter_append]
            simp [Entry.payloads, hid]

theorem subset_markAcked (store : Store) (id : Text) :
    store.ackedPayloadIds ⊆ (DeadLetterStore.markAcked store id).ackedPayloadIds := by
  rw [DeadLetterStore.markAcked]
  split
  · exact List.Subset.refl _
  · exact List.subset_cons_self _ _

theorem Consistent.step (h : Consistent rt opts s)
    (chain : IsChain crt opts.verifier primary keys) {call : Call} (hclock : Clocked rt call)
    (hrotation : WithoutRotation rt opts s call) (hstep : s.step rt opts call = some t) :
    Consistent rt opts t := by
  cases call with
  | append entry =>
      obtain rfl := Option.some.inj hstep
      cases hwrites : entry.writes rt opts s.file s.store with
      | true => exact h.append_written chain hclock hwrites (hrotation hwrites)
      | false => exact h.append_unwritten hwrites
  | markAcked id =>
      obtain rfl := Option.some.inj hstep
      refine ⟨h.closed, h.fits, ?_⟩
      intro store hsub
      exact h.listed store (List.Subset.trans (subset_markAcked s.store id) hsub)

theorem consistent_preserved (chain : IsChain crt opts.verifier primary keys) :
    (calls rt opts).Preserved (fun s call => WithoutRotation rt opts s call ∧ Clocked rt call)
      (Consistent rt opts) where
  init s hs := by
    obtain rfl : s = opened := hs
    exact opened_consistent
  step _ _ _ h hguard hstep := h.step chain hguard.2 hguard.1 hstep

theorem passesReader_eq {payload : Text}
    (hfits : Text.byteLength payload ≤ opts.maxPayloadBytes) :
    passesReader rt opts payload = isDrainable rt opts payload := by
  have hempty : Text.byteLength payload ≠ 0 ↔ payload ≠ [] := by
    cases payload with
    | nil => simp
    | cons c rest =>
        have hsize := c.utf8Size_pos
        rw [Text.byteLength_cons]
        simp only [ne_eq, List.cons_ne_nil, not_false_eq_true, iff_true]
        omega
  rw [passesReader, isDrainable, decide_eq_true hfits, Bool.and_true, decide_eq_decide.mpr hempty]

theorem drain_large (file : StoreFile) (store : Store) :
    drain rt opts file store true =
      { entries := drainEntries rt opts store 1 (linesOf file)
        lineCount := (linesOf file).length } := rfl

theorem Consistent.payloads_eq (h : Consistent rt opts s) :
    (drain rt opts s.file s.store true).entries.map (·.payload) =
      (s.outstanding rt).filter (isDrainable rt opts) := by
  rw [drain_large, outstanding, List.filter_filter]
  refine (h.listed s.store (List.Subset.refl _)).trans (List.filter_congr ?_)
  intro payload hpayload
  rw [Bool.and_comm, passesReader_eq (h.fits payload hpayload)]

theorem Consistent.drains (h : Consistent rt opts s) :
    Drains rt opts s ((s.outstanding rt).filter (isDrainable rt opts)) where
  payloads := h.payloads_eq
  increasing := pairwise_drainEntries 1 _
  bounded := by
    intro e he
    obtain ⟨i, line, hline, hnumber, -⟩ := exists_line_of_mem_drainEntries e he
    obtain ⟨hlt, -⟩ := List.getElem?_eq_some_iff.mp hline
    rw [drain_large, hnumber]
    dsimp only
    omega

/-- After every sequence of appends and acknowledgements a drain lists exactly the payloads that
were stored, are not acknowledged and pass the reader's own checks. Whatever a file holds, a drain
lists only payloads whose line carries a MAC of the chain. -/
theorem drains_outstanding (rt : Runtime) (crt : CryptoRuntime) (opts : DeadLetterStoreOptions)
    (primary : Bytes) (keys : List Bytes) (chain : IsChain crt opts.verifier primary keys) :
    (∀ run s, (calls rt opts).exec opened run = some s → (∀ call ∈ run, Clocked rt call) →
      (calls rt opts).Guarded (WithoutRotation rt opts) opened run →
        Drains rt opts s ((s.outstanding rt).filter (isDrainable rt opts))) ∧
    ∀ file store allowLargeFile, ∀ e ∈ (drain rt opts file store allowLargeFile).entries,
      ∃ i line, (linesOf file)[i]? = some line ∧ e.lineNumber = i + 1 ∧
        CarriesMac rt crt keys line e.payload := by
  constructor
  · intro run s hrun hclocks hguard
    exact ((consistent_preserved chain).exec rfl (hguard.and_mem hclocks) hrun).drains
  · intro file store allowLargeFile e he
    rw [drain] at he
    split at he
    · exact absurd he List.not_mem_nil
    · obtain ⟨i, line, hline, hnumber, hread, -⟩ := exists_line_of_mem_drainEntries e he
      refine ⟨i, line, hline, ?_, carriesMac_of_parsePayload chain hread⟩
      omega

/-! ### Two stores -/

/-- The signatures of two payloads and a marker under the first of two keys. -/
def chainCalls : RecordedCalls :=
  { signatureCalls with
    hmac :=
      [((Bytes.ofText "Bearer t0ken",
          Bytes.ofText (payloadEnvelope exampleRuntime exampleTime "p").stringify),
        Bytes.bigEndian 32 0xf6f76c447177d310c902e790a07c212065177f32a61abb40726f10a84f8309c3),
      ((Bytes.ofText "Bearer t0ken",
          Bytes.ofText (payloadEnvelope exampleRuntime exampleTime "q").stringify),
        Bytes.bigEndian 32 0xcf623e48d7f29ddfabfd7733833362f8581293b23f291e21b8746441966da8de),
      ((Bytes.ofText "Bearer t0ken", Bytes.ofText markerEntry.stringify),
        Bytes.bigEndian 32 0xab3136538f4812205a719ed25affef104aea668f1790c79be257a9af4a100ffb)] }

/-- A store with a rotated key. -/
def chainStore (requireEncryptedPayload : Bool) : DeadLetterStoreOptions where
  verifier := createHmacVerifier chainCalls.runtime "Bearer t0ken" ["Bearer 0ld"]
  requireEncryptedPayload

theorem chainStore_isChain (requireEncryptedPayload : Bool) :
    IsChain chainCalls.runtime (chainStore requireEncryptedPayload).verifier
      (Bytes.ofText "Bearer t0ken") [Bytes.ofText "Bearer t0ken", Bytes.ofText "Bearer 0ld"] :=
  createHmacVerifier_isChain "Bearer t0ken" ["Bearer 0ld"]

/-- Two payloads and a marker, of which the first payload is delivered. -/
def ackedRun : List Call :=
  [.append (.ofPayload exampleTime "p"), .append (.ofMarker exampleTime "EC_CAPTURE_FAILED"),
    .append (.ofPayload exampleTime "q"),
    .markAcked (computePayloadId exampleRuntime "p")]

theorem ackedRun_drains :
    ∃ s, (calls exampleRuntime (chainStore false)).exec opened ackedRun = some s ∧
      Drains exampleRuntime (chainStore false) s [("q" : Text)] := by
  have hclocks : ∀ call ∈ ackedRun, Clocked exampleRuntime call := by decide +kernel
  have hguard : (calls exampleRuntime (chainStore false)).Guarded
      (WithoutRotation exampleRuntime (chainStore false)) opened ackedRun := by decide +kernel
  have hexpected : ((calls exampleRuntime (chainStore false)).exec opened ackedRun).map
      (fun s => (s.outstanding exampleRuntime).filter
        (isDrainable exampleRuntime (chainStore false))) = some [("q" : Text)] := by
    decide +kernel
  obtain ⟨s, hrun, hlisted⟩ := Option.map_eq_some_iff.mp hexpected
  have hdrains := (drains_outstanding exampleRuntime chainCalls.runtime (chainStore false) _ _
    (chainStore_isChain false)).1 ackedRun s hrun hclocks hguard
  rw [hlisted] at hdrains
  exact ⟨s, hrun, hdrains⟩

/-- A payload that is not encrypted, in a store that requires it to be. -/
def plainRun : List Call := [.append (.ofPayload exampleTime "p")]

theorem plainRun_not_drained :
    ∃ s, (calls exampleRuntime (chainStore true)).exec opened plainRun = some s ∧
      (∀ call ∈ plainRun, Clocked exampleRuntime call) ∧
      (calls exampleRuntime (chainStore true)).Guarded
        (WithoutRotation exampleRuntime (chainStore true)) opened plainRun ∧
      s.stored = [("p" : Text)] ∧
      ¬ Drains exampleRuntime (chainStore true) s (s.outstanding exampleRuntime) := by
  have hclocks : ∀ call ∈ plainRun, Clocked exampleRuntime call := by decide +kernel
  have hguard : (calls exampleRuntime (chainStore true)).Guarded
      (WithoutRotation exampleRuntime (chainStore true)) opened plainRun := by decide +kernel
  have hfound : ((calls exampleRuntime (chainStore true)).exec opened plainRun).map
      (fun s => (s.stored, s.outstanding exampleRuntime,
        (drain exampleRuntime (chainStore true) s.file s.store true).entries.map (·.payload))) =
        some ([("p" : Text)], [("p" : Text)], []) := by
    decide +kernel
  obtain ⟨s, hrun, heq⟩ := Option.map_eq_some_iff.mp hfound
  obtain ⟨hstored, hrest⟩ := Prod.mk.inj heq
  obtain ⟨houtstanding, hlisted⟩ := Prod.mk.inj hrest
  refine ⟨s, hrun, hclocks, hguard, hstored, ?_⟩
  intro hdrains
  have hpayloads := hdrains.payloads
  rw [hlisted, houtstanding] at hpayloads
  exact absurd hpayloads (List.cons_ne_nil _ _).symm

end Session

end ErrorCore.DeadLetterStore
