import ErrorCore.Capture.ErrorCapturer

/-!
# Conservation of deliveries

What a run counts is a ledger: the counters, what the reads have returned of
them, and the fates of the payloads. A step settles some payloads in the ledger
or reads it. A payload that is sent or dropped moves the counter of its fate. One
that is stored in the dead-letter store moves none, so that the counters lose it.
-/

namespace ErrorCore.ErrorCapturer

def CaptureDeliveryDiagnostics.total (d : CaptureDeliveryDiagnostics) : Nat :=
  d.sent + d.deadLettered + d.dropped

/-- The counter of a fate. -/
def CaptureDeliveryDiagnostics.bucket (d : CaptureDeliveryDiagnostics) : Fate → Nat
  | .sent => d.sent
  | .deadLettered => d.deadLettered
  | .dropped => d.dropped

/-- What the counters have counted so far, over all reads. -/
def State.counted (s : State) : CaptureDeliveryDiagnostics :=
  s.reported.add s.deliveryDiagnostics

/-- Each settled dispatch is counted once, under its fate. -/
structure Conserved (s : State) : Prop where
  settled : s.counted.total = s.fates.length
  buckets : ∀ fate, s.counted.bucket fate = s.fates.count fate

/-- A step in which a payload is stored after its send has failed. -/
def Action.deadLetters (deadLetterStore : Bool) : Action → Bool
  | packageSettled _ outcome _ | blobSettled _ _ outcome _ =>
      outcome.fate deadLetterStore = .deadLettered
  | _ => false

/-! ## The ledger -/

structure Ledger where
  reported : CaptureDeliveryDiagnostics
  counters : CaptureDeliveryDiagnostics
  fates : List Fate

namespace Ledger

/-- What is written down for a payload. -/
def settle (l : Ledger) (fate : Fate) : Ledger :=
  { l with
    counters :=
      match fate with
      | .sent => { l.counters with sent := l.counters.sent + 1 }
      | .deadLettered => l.counters
      | .dropped => { l.counters with dropped := l.counters.dropped + 1 }
    fates := l.fates ++ [fate] }

def settleAll (l : Ledger) (fates : List Fate) : Ledger := fates.foldl settle l

def read (l : Ledger) : Ledger :=
  { l with reported := l.reported.add l.counters, counters := .zero }

/-- The counters agree with the fates, but for the payloads that are dead-lettered. -/
structure Balanced (l : Ledger) : Prop where
  sent : l.reported.sent + l.counters.sent = l.fates.count .sent
  deadLettered : l.reported.deadLettered + l.counters.deadLettered = 0
  dropped : l.reported.dropped + l.counters.dropped = l.fates.count .dropped

variable {l : Ledger} {fate : Fate} {fates : List Fate}

theorem settleAll_nil (l : Ledger) : l.settleAll [] = l := rfl

theorem settleAll_append (l : Ledger) (fates more : List Fate) :
    l.settleAll (fates ++ more) = (l.settleAll fates).settleAll more :=
  List.foldl_append

theorem fates_settleAll (l : Ledger) (fates : List Fate) :
    (l.settleAll fates).fates = l.fates ++ fates := by
  induction fates generalizing l with
  | nil => exact (List.append_nil l.fates).symm
  | cons fate fates ih => exact (ih (l.settle fate)).trans (List.append_assoc _ _ _)

theorem Balanced.settle (h : l.Balanced) (fate : Fate) : (l.settle fate).Balanced := by
  obtain ⟨hsent, hdeadLettered, hdropped⟩ := h
  cases fate with
  | sent =>
      refine ⟨?_, hdeadLettered, ?_⟩
      · rw [Ledger.settle, List.count_append, ← hsent]
        rfl
      · rw [Ledger.settle, List.count_append, ← hdropped]
        rfl
  | deadLettered =>
      refine ⟨?_, hdeadLettered, ?_⟩
      · rw [Ledger.settle, List.count_append, ← hsent]
        rfl
      · rw [Ledger.settle, List.count_append, ← hdropped]
        rfl
  | dropped =>
      refine ⟨?_, hdeadLettered, ?_⟩
      · rw [Ledger.settle, List.count_append, ← hsent]
        rfl
      · rw [Ledger.settle, List.count_append, ← hdropped]
        rfl

theorem Balanced.settleAll (h : l.Balanced) (fates : List Fate) :
    (l.settleAll fates).Balanced := by
  induction fates generalizing l with
  | nil => exact h
  | cons fate fates ih => exact ih (h.settle fate)

/-- A read moves the counts from the counters to what was reported. -/
theorem Balanced.read (h : l.Balanced) : l.read.Balanced := by
  obtain ⟨hsent, hdeadLettered, hdropped⟩ := h
  exact ⟨hsent, hdeadLettered, hdropped⟩

end Ledger

theorem length_eq_counts (fates : List Fate) :
    fates.length = fates.count .sent + fates.count .deadLettered + fates.count .dropped := by
  induction fates with
  | nil => rfl
  | cons fate fates ih =>
      cases fate with
      | sent => simp; omega
      | deadLettered => simp; omega
      | dropped => simp; omega

/-! ## Steps in the ledger -/

namespace State

variable {cfg : CapturerConfig} {s t : State}

def ledger (s : State) : Ledger where
  reported := s.reported
  counters := s.deliveryDiagnostics
  fates := s.fates

theorem ledger_dispatchTransport (s : State) (dispatch : Dispatch) (serializedBytes : Nat) :
    (s.dispatchTransport cfg dispatch serializedBytes).ledger =
      s.ledger.settleAll (if cfg.hardCapBytes < serializedBytes then [.dropped] else []) := by
  rw [dispatchTransport]
  split
  · rfl
  · rfl

theorem ledger_scheduleDeadLetterRecoveryDrain (s : State) (hasPending : Bool) :
    (s.scheduleDeadLetterRecoveryDrain cfg hasPending).ledger = s.ledger := by
  rw [scheduleDeadLetterRecoveryDrain]
  split
  · rfl
  · rfl

/-- A payload whose send has ended is settled under its fate. -/
theorem ledger_afterSend (s : State) (hasPending : Bool) (outcome : SendOutcome) :
    (s.afterSend cfg hasPending outcome).ledger =
      s.ledger.settle (outcome.fate cfg.deadLetterStore) := by
  cases outcome with
  | sent =>
      rw [afterSend]
      split
      · exact ledger_scheduleDeadLetterRecoveryDrain _ hasPending
      · rfl
  | failed append =>
      rw [afterSend.eq_def]
      dsimp only
      cases hstore : cfg.deadLetterStore with
      | false => cases append <;> rfl
      | true =>
          cases append with
          | stored => exact ledger_scheduleDeadLetterRecoveryDrain _ hasPending
          | declined => rfl
          | threw => rfl

theorem ledger_dispatchPackage (cfg : CapturerConfig) (s : State) (c : CaptureId)
    (serializedBytes : Nat) :
    ∃ fates, .deadLettered ∉ fates ∧
      (s.dispatchPackage cfg c serializedBytes).ledger = s.ledger.settleAll fates := by
  refine ⟨if cfg.hardCapBytes < serializedBytes then [.dropped] else [], ?_, ?_⟩
  · split <;> decide
  · rw [← ledger_dispatchTransport s (.package c), dispatchPackage, dispatchPayloadBlobsAfter]
    split
    · split
      · rfl
      · rfl
    · split
      · rfl
      · rfl

theorem ledger_captureInline (s : State) (c : CaptureId) (serializedBytes : Nat)
    (deferredDelivery : Bool) :
    ∃ fates, .deadLettered ∉ fates ∧
      (s.captureInline cfg c serializedBytes deferredDelivery).ledger =
        s.ledger.settleAll fates := by
  rw [captureInline]
  split
  · exact ⟨[], List.not_mem_nil, rfl⟩
  · exact ledger_dispatchPackage cfg s c serializedBytes

theorem ledger_capture (s : State) (call : CaptureCall) :
    ∃ fates, .deadLettered ∉ fates ∧
      (s.capture cfg call).ledger = s.ledger.settleAll fates := by
  rw [capture]
  split
  · exact ⟨[], List.not_mem_nil, rfl⟩
  · split
    · exact ⟨[], List.not_mem_nil, rfl⟩
    · exact ledger_captureInline { s with captured := s.captured + 1 } s.captured _ _

theorem ledger_assembled (s : State) (c : CaptureId) (reply : AssemblyReply) :
    ∃ fates, .deadLettered ∉ fates ∧
      (s.assembled cfg c reply).ledger = s.ledger.settleAll fates := by
  cases reply with
  | result serializedBytes => exact ledger_dispatchPackage cfg (s.settle _) c serializedBytes
  | error fallback deferredDelivery =>
      cases fallback with
      | none => exact ⟨[], List.not_mem_nil, rfl⟩
      | some serializedBytes =>
          exact ledger_captureInline (s.settle _) c serializedBytes deferredDelivery

/-- The loop over the blobs settles those that are over the cap. -/
theorem ledger_dispatchBlobs (cfg : CapturerConfig) (c : CaptureId) (s : State) (index : Nat)
    (blobs : List BlobAssembly) :
    ∃ fates, .deadLettered ∉ fates ∧
      (dispatchBlobs cfg c s index blobs).1.ledger = s.ledger.settleAll fates := by
  induction blobs generalizing s index with
  | nil => exact ⟨[], List.not_mem_nil, rfl⟩
  | cons blob blobs ih =>
      cases blob with
      | unresolved => exact ih s (index + 1)
      | failed => exact ⟨[], List.not_mem_nil, rfl⟩
      | envelope serializedBytes =>
          obtain ⟨fates, hfates, hledger⟩ :=
            ih (s.dispatchTransport cfg (.payloadBlob c index) serializedBytes) (index + 1)
          rw [ledger_dispatchTransport, ← Ledger.settleAll_append] at hledger
          refine ⟨_, fun hmem => ?_, hledger⟩
          rcases List.mem_append.mp hmem with hfirst | hrest
          · split at hfirst
            · exact absurd hfirst (by decide)
            · exact absurd hfirst List.not_mem_nil
          · exact hfates hrest

theorem ledger_dispatchPayloadBlobs (s : State) (c : CaptureId) (blobs : List BlobAssembly) :
    ∃ fates, .deadLettered ∉ fates ∧
      (s.dispatchPayloadBlobs cfg c blobs).ledger = s.ledger.settleAll fates := by
  obtain ⟨fates, hfates, hledger⟩ := ledger_dispatchBlobs cfg c s 0 blobs
  refine ⟨fates, hfates, hledger ▸ ?_⟩
  rw [dispatchPayloadBlobs]
  dsimp only
  split
  · rfl
  · rfl

theorem ledger_dispatchBuffered (s : State) (pending : List (CaptureId × Nat)) :
    ∃ fates, .deadLettered ∉ fates ∧
      (dispatchBuffered cfg s pending).ledger = s.ledger.settleAll fates := by
  induction pending generalizing s with
  | nil => exact ⟨[], List.not_mem_nil, rfl⟩
  | cons delivery pending ih =>
      obtain ⟨c, serializedBytes⟩ := delivery
      obtain ⟨first, hfirst, hone⟩ := ledger_dispatchPackage cfg s c serializedBytes
      obtain ⟨rest, hrest, hall⟩ := ih (s.dispatchPackage cfg c serializedBytes)
      rw [hone, ← Ledger.settleAll_append] at hall
      exact ⟨first ++ rest, fun hmem => (List.mem_append.mp hmem).elim hfirst hrest, hall⟩

theorem ledger_takeBuffered (s : State) :
    ∃ fates, .deadLettered ∉ fates ∧
      (s.takeBuffered cfg).1.ledger = s.ledger.settleAll fates := by
  rw [takeBuffered]
  split
  · exact ⟨[], List.not_mem_nil, rfl⟩
  · exact ledger_dispatchBuffered { s with pendingBufferedTransportPayloads := [] } _

theorem ledger_flush (s : State) :
    ∃ fates, .deadLettered ∉ fates ∧ (s.flush cfg).ledger = s.ledger.settleAll fates := by
  rw [flush]
  split
  · exact ledger_takeBuffered s
  · exact ⟨[], List.not_mem_nil, rfl⟩

/-- What a step can do to the ledger: it reads it, or it settles payloads, with the fate that no
counter has in the steps that dead-letter. -/
theorem step_ledger {a : Action} (hstep : s.step cfg a = some t) :
    t.ledger = s.ledger.read ∧ a.deadLetters cfg.deadLetterStore = false ∨
      ∃ fates, t.ledger = s.ledger.settleAll fates ∧
        (.deadLettered ∈ fates ↔ a.deadLetters cfg.deadLetterStore = true) := by
  have hplain {u : State} (hspec : ∃ fates, .deadLettered ∉ fates ∧
      u.ledger = s.ledger.settleAll fates) (hnot : a.deadLetters cfg.deadLetterStore = false) :
      ∃ fates, u.ledger = s.ledger.settleAll fates ∧
        (.deadLettered ∈ fates ↔ a.deadLetters cfg.deadLetterStore = true) := by
    obtain ⟨fates, hfates, hledger⟩ := hspec
    refine ⟨fates, hledger, fun hmem => absurd hmem hfates, fun hdead => ?_⟩
    rw [hnot] at hdead
    contradiction
  have hkept {u : State} (hsame : u.ledger = s.ledger)
      (hnot : a.deadLetters cfg.deadLetterStore = false) :
      ∃ fates, u.ledger = s.ledger.settleAll fates ∧
        (.deadLettered ∈ fates ↔ a.deadLetters cfg.deadLetterStore = true) :=
    hplain ⟨[], List.not_mem_nil, hsame⟩ hnot
  have hone {u : State} {outcome : SendOutcome}
      (hsettled : u.ledger = s.ledger.settle (outcome.fate cfg.deadLetterStore))
      (hdead : a.deadLetters cfg.deadLetterStore =
        decide (outcome.fate cfg.deadLetterStore = .deadLettered)) :
      ∃ fates, u.ledger = s.ledger.settleAll fates ∧
        (.deadLettered ∈ fates ↔ a.deadLetters cfg.deadLetterStore = true) := by
    refine ⟨[outcome.fate cfg.deadLetterStore], hsettled, ?_⟩
    rw [hdead, decide_eq_true_iff, List.mem_singleton, eq_comm]
  cases a with
  | capture call =>
      obtain rfl := Option.some.inj hstep
      exact .inr (hplain (ledger_capture s call) rfl)
  | assembled c reply =>
      rw [step] at hstep
      split at hstep
      · obtain rfl := Option.some.inj hstep
        exact .inr (hplain (ledger_assembled s c reply) rfl)
      · contradiction
  | packageSettled c outcome hasPending =>
      rw [step] at hstep
      split at hstep
      · obtain rfl := Option.some.inj hstep
        exact .inr (hone (ledger_afterSend (s.settle (.package c)) hasPending outcome) rfl)
      · contradiction
  | dispatchPayloadBlobs c blobs =>
      rw [step] at hstep
      split at hstep
      · split at hstep
        · contradiction
        · obtain rfl := Option.some.inj hstep
          exact .inr (hkept rfl rfl)
        · obtain rfl := Option.some.inj hstep
          exact .inr (hplain (ledger_dispatchPayloadBlobs s c blobs) rfl)
      · contradiction
  | blobSettled c index outcome hasPending =>
      rw [step] at hstep
      split at hstep
      · obtain rfl := Option.some.inj hstep
        exact .inr
          (hone (ledger_afterSend (s.settle (.payloadBlob c index)) hasPending outcome) rfl)
      · contradiction
  | payloadBlobsSettled c =>
      rw [step] at hstep
      split at hstep
      · obtain rfl := Option.some.inj hstep
        exact .inr (hkept rfl rfl)
      · contradiction
  | recoverySettled drain recovered =>
      rw [step] at hstep
      split at hstep
      · obtain rfl := Option.some.inj hstep
        exact .inr (hkept rfl rfl)
      · contradiction
  | flush =>
      obtain rfl := Option.some.inj hstep
      exact .inr (hplain (ledger_flush s) rfl)
  | snapshotSettled flush =>
      rw [step] at hstep
      split at hstep
      · split at hstep
        · obtain rfl := Option.some.inj hstep
          exact .inr (hplain (ledger_takeBuffered s) rfl)
        · contradiction
      · contradiction
  | bufferedSettled flush =>
      rw [step] at hstep
      split at hstep
      · split at hstep
        · obtain rfl := Option.some.inj hstep
          exact .inr (hkept rfl rfl)
        · contradiction
      · contradiction
  | getDiagnostics =>
      obtain rfl := Option.some.inj hstep
      exact .inl ⟨rfl, rfl⟩

end State

/-! ## Runs -/

variable {cfg : CapturerConfig} {s t : State}

theorem initial_balanced : initial.ledger.Balanced := ⟨rfl, rfl, rfl⟩

/-- The step lemma. It needs no guard: what a dead-lettered payload misses is its own counter. -/
theorem balanced_step {a : Action} (h : s.ledger.Balanced) (hstep : s.step cfg a = some t) :
    t.ledger.Balanced := by
  rcases State.step_ledger hstep with ⟨hread, -⟩ | ⟨fates, hledger, -⟩
  · rw [hread]
    exact h.read
  · rw [hledger]
    exact h.settleAll fates

/-- The counters conserve the deliveries as long as none was dead-lettered. -/
theorem conserved_iff (h : s.ledger.Balanced) : Conserved s ↔ .deadLettered ∉ s.fates := by
  obtain ⟨hsent, hdeadLettered, hdropped⟩ := h
  constructor
  · intro hconserved
    rw [← List.count_eq_zero, ← hconserved.buckets .deadLettered]
    exact hdeadLettered
  · intro hnone
    have hcount : s.fates.count .deadLettered = 0 := List.count_eq_zero.mpr hnone
    have hbuckets : ∀ fate, s.counted.bucket fate = s.fates.count fate := by
      intro fate
      cases fate with
      | sent => exact hsent
      | deadLettered => exact hdeadLettered.trans hcount.symm
      | dropped => exact hdropped
    refine ⟨?_, hbuckets⟩
    rw [length_eq_counts, ← hbuckets .sent, ← hbuckets .deadLettered, ← hbuckets .dropped]
    rfl

/-- A step keeps it that no payload was dead-lettered, unless it dead-letters one. -/
theorem fates_step {a : Action} (hstep : s.step cfg a = some t)
    (h : .deadLettered ∉ s.fates) :
    .deadLettered ∉ t.fates ↔ a.deadLetters cfg.deadLetterStore = false := by
  rcases State.step_ledger hstep with ⟨hread, hnot⟩ | ⟨fates, hledger, hdead⟩
  · have hsame : t.fates = s.fates := congrArg Ledger.fates hread
    rw [hsame]
    exact ⟨fun _ => hnot, fun _ => h⟩
  · have hfates : t.fates = s.fates ++ fates :=
      (congrArg Ledger.fates hledger).trans (Ledger.fates_settleAll _ _)
    rw [hfates, List.mem_append, not_or, hdead, Bool.not_eq_true]
    exact ⟨fun hnot => hnot.2, fun hnot => ⟨h, hnot⟩⟩

/-- The steps that store no payload after its send has failed. -/
def NotDeadLettered (cfg : CapturerConfig) (_ : State) (a : Action) : Prop :=
  a.deadLetters cfg.deadLetterStore = false

theorem balanced_preserved (cfg : CapturerConfig) :
    (system cfg).Preserved (NotDeadLettered cfg) fun s =>
      s.ledger.Balanced ∧ .deadLettered ∉ s.fates where
  init s hs := by
    obtain rfl := hs
    exact ⟨initial_balanced, List.not_mem_nil⟩
  step s a t hs hguard hstep :=
    ⟨balanced_step hs.1 hstep, (fates_step hstep hs.2).mpr hguard⟩

/-- Over any run, reads included, each dispatch that has settled is counted in the bucket of its
fate if and only if no payload is dead-lettered. -/
theorem always_conserved_iff (cfg : CapturerConfig) (as : List Action) :
    (system cfg).Always Conserved initial as ↔
      (system cfg).Guarded (NotDeadLettered cfg) initial as :=
  Transition.System.always_iff_guarded (balanced_preserved cfg)
    (fun _ hs => (conserved_iff hs.1).mpr hs.2)
    (fun _ _ _ hs hstep ht =>
      (fates_step hstep hs.2).mp ((conserved_iff (balanced_step hs.1 hstep)).mp ht))
    ⟨initial_balanced, List.not_mem_nil⟩

/-- A capturer with a dead-letter store. -/
def withDeadLetters : CapturerConfig where
  hardCapBytes := 100
  piiScrubber := false
  payloadSpool := false
  deadLetterStore := true

/-- A capture that is assembled inline. -/
def inlineCapture : CaptureCall where
  workerAvailable := false
  useWorkerAssembly := false
  deferredDelivery := false
  isUncaught := false
  inlineAssembly := some 10

/-- A package that is stored in the dead-letter store is not counted. -/
theorem deadLettered_uncounted :
    ¬(system withDeadLetters).Always Conserved initial
      [.capture inlineCapture, .packageSettled 0 (.failed .stored) true] := by
  intro h
  have hend : Conserved _ := h.2.2
  exact absurd (hend.buckets .deadLettered) (by decide)

end ErrorCore.ErrorCapturer
