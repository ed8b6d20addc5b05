import ErrorCore.Transport.DeadLetterStore.ClearSent
import ErrorCore.Transport.DeadLetterStore.ReSign

/-!
# The pending count

The store keeps a count of its pending payloads. It is scanned from the file
when it is first needed, and the methods then add to it, take from it, set it or
forget it. A drain counts otherwise: it reads the lines of the file and leaves
out the payloads that are acknowledged, which a scan does not.
-/

namespace ErrorCore.DeadLetterStore.PendingCount

open ClearSent.State (isListed)

inductive Action
  | append (entry : Entry)
  | markAcked (id : Text)
  | clearSent (sentLineCount : Nat)
  | clear
  | reSignAll
  | getPendingCount
  deriving DecidableEq, Repr

structure State where
  file : StoreFile
  store : Store
  deriving DecidableEq, Repr

namespace State

section Steps

variable (rt : Runtime) (opts : DeadLetterStoreOptions) (s : State)

def step (s : State) : Action → Option State
  | .append entry =>
      let applied := entry.apply rt opts s.file s.store
      some { file := applied.2.1, store := applied.2.2 }
  | .markAcked id => some { s with store := DeadLetterStore.markAcked s.store id }
  | .clearSent sentLineCount =>
      let cleared := DeadLetterStore.clearSent s.file s.store sentLineCount
      some { file := cleared.1, store := cleared.2 }
  | .clear =>
      let cleared := DeadLetterStore.clear s.store
      some { file := cleared.1, store := cleared.2 }
  | .reSignAll =>
      let resigned := (DeadLetterStore.reSignAll rt opts s.file s.store).2
      some { file := resigned.1, store := resigned.2 }
  | .getPendingCount =>
      some { s with store := (DeadLetterStore.getPendingCount rt opts s.file s.store).2 }

/-- A new store over a file of any content. -/
def system : Transition.System State Action where
  init s := s.store = Store.fresh
  step := step rt opts

/-- The count is the number of entries that a drain would list. -/
def Agrees : Prop :=
  (getPendingCount rt opts s.file s.store).1 =
    (drain rt opts s.file s.store true).entries.length

def lines : List Text := linesOf s.file

/-- A scan counts the line. -/
def isRead (line : Text) : Bool := (parsePayload rt opts line).isSome

/-- The line holds a payload under this id. -/
def holds (id line : Text) : Bool :=
  match parsePayload rt opts line with
  | none => false
  | some (found, _) => found = id

/-- `reSignAll` counts the line. -/
def resigns (line : Text) : Bool :=
  (reSignLine rt opts line).isSome && !isMarkerLine rt line

/-- The part of a line that the next entry is written behind. -/
def openLine : Text := Text.openPart '\n' (contentBefore opts s.file)

/-- The line that the entry makes of it. -/
def lineWith (entry : Entry) : Text := s.openLine opts ++ entry.line rt opts

/-- The entry is written as a line of its own kind: behind it, a drain lists one payload more or
as many as before. A count that is not known yet is scanned later, and must be the same then. -/
def WritesOwnLine (entry : Entry) : Prop :=
  match entry with
  | .ofPayload _ _ =>
      isListed rt opts s.store (s.lineWith rt opts entry) = true ∧
        isListed rt opts s.store (s.openLine opts) = false
  | .ofMarker _ _ =>
      if s.store.pendingPayloadCount = none ∧ rotates opts s.file = false then
        isRead rt opts (s.lineWith rt opts entry) = true →
          isListed rt opts s.store (s.lineWith rt opts entry) = true
      else
        isListed rt opts s.store (s.lineWith rt opts entry) =
          isListed rt opts s.store (s.openLine opts)

/-- The step changes the count as it changes what a drain lists. -/
def CountsLines : Action → Prop
  | .append entry => entry.writes rt opts s.file s.store = true → s.WritesOwnLine rt opts entry
  | .markAcked id =>
      id ≠ [] → id ∉ s.store.ackedPayloadIds →
        if s.store.pendingPayloadCount = none then s.lines.countP (holds rt opts id) = 0
        else s.lines.countP (holds rt opts id) = 1 ∨
          ∀ line ∈ s.lines, isListed rt opts s.store line = false
  | .clearSent sentLineCount =>
      ∀ line ∈ s.lines.drop sentLineCount, isRead rt opts line = true →
        isListed rt opts s.store line = true
  | .reSignAll =>
      ∀ line ∈ s.lines, resigns rt opts line = true → isListed rt opts s.store line = true
  | .clear | .getPendingCount => True

instance (entry : Entry) : Decidable (s.WritesOwnLine rt opts entry) :=
  match entry with
  | .ofPayload storedAt payload =>
      inferInstanceAs (Decidable
        (isListed rt opts s.store (s.lineWith rt opts (.ofPayload storedAt payload)) = true ∧
          isListed rt opts s.store (s.openLine opts) = false))
  | .ofMarker storedAt code =>
      inferInstanceAs (Decidable
        (if s.store.pendingPayloadCount = none ∧ rotates opts s.file = false then
          isRead rt opts (s.lineWith rt opts (.ofMarker storedAt code)) = true →
            isListed rt opts s.store (s.lineWith rt opts (.ofMarker storedAt code)) = true
        else
          isListed rt opts s.store (s.lineWith rt opts (.ofMarker storedAt code)) =
            isListed rt opts s.store (s.openLine opts)))

instance (a : Action) : Decidable (s.CountsLines rt opts a) :=
  match a with
  | .append _ => inferInstanceAs (Decidable (_ → _))
  | .markAcked id =>
      inferInstanceAs (Decidable (id ≠ [] → id ∉ s.store.ackedPayloadIds →
        if s.store.pendingPayloadCount = none then s.lines.countP (holds rt opts id) = 0
        else s.lines.countP (holds rt opts id) = 1 ∨
          ∀ line ∈ s.lines, isListed rt opts s.store line = false))
  | .clearSent _ => inferInstanceAs (Decidable (∀ line ∈ _, _ → _))
  | .reSignAll => inferInstanceAs (Decidable (∀ line ∈ _, _ → _))
  | .clear | .getPendingCount => .isTrue trivial

end Steps

end State

/-! ## Counting lines -/

section Counting

variable {rt : Runtime} {opts : DeadLetterStoreOptions} {file : StoreFile} {store : Store}
variable {line content id : Text} {lines : List Text}

/-- Two counts, one of which takes less, are equal when it takes no less on the list. -/
theorem countP_eq_iff_of_imp {α : Type} {p q : α → Bool} {l : List α}
    (h : ∀ a ∈ l, p a = true → q a = true) :
    l.countP p = l.countP q ↔ ∀ a ∈ l, q a = true → p a = true := by
  induction l with
  | nil => simp
  | cons a l ih =>
      obtain ⟨hfirst, hrest⟩ := List.forall_mem_cons.mp h
      have hle : l.countP p ≤ l.countP q := List.countP_mono_left hrest
      rw [List.forall_mem_cons, ← ih hrest, List.countP_cons, List.countP_cons]
      cases hp : p a with
      | true => simp [hfirst hp]
      | false =>
          cases hq : q a with
          | true =>
              simp
              omega
          | false => simp

theorem isRead_of_isListed (h : isListed rt opts store line = true) :
    State.isRead rt opts line = true := by
  unfold isListed at h
  unfold State.isRead
  split at h
  · contradiction
  · next hread => rw [hread]; rfl

/-- A new store lists what it reads. -/
theorem isListed_fresh : isListed rt opts Store.fresh = State.isRead rt opts := by
  funext line
  unfold isListed State.isRead
  cases parsePayload rt opts line with
  | none => rfl
  | some found => rfl

theorem isListed_nil : isListed rt opts store [] = false := rfl

theorem isRead_nil : State.isRead rt opts [] = false := rfl

/-- A drain lists the lines that are listed. -/
theorem length_entries (file : StoreFile) (store : Store) :
    (drain rt opts file store true).entries.length =
      (linesOf file).countP (isListed rt opts store) := by
  have hlength : (drainEntries rt opts store 1 (linesOf file)).length =
      ((linesOf file).filterMap (parsePayload rt opts)).countP fun found =>
        decide (found.1 ∉ store.ackedPayloadIds) := by
    rw [List.countP_eq_length_filter, ← drainEntries_payloads 1, List.length_map]
  rw [Session.drain_large, hlength, List.countP_filterMap]
  refine List.countP_congr fun line _ => ?_
  rw [isListed]
  cases parsePayload rt opts line with
  | none => rfl
  | some found => rfl

theorem getPendingCount_eq (file : StoreFile) (store : Store) :
    (getPendingCount rt opts file store).1 =
      store.pendingPayloadCount.getD ((linesOf file).countP (State.isRead rt opts)) := by
  rw [getPendingCount, ensurePendingCountInitialized]
  cases hpending : store.pendingPayloadCount with
  | none => rfl
  | some n => exact congrArg (Option.getD · 0) hpending

/-- The lines of the file up to the part that the next entry continues. -/
theorem countP_splitLines {p : Text → Bool} (hnil : p [] = false) (content : Text) :
    (splitLines content).countP p =
      (closedLines content).countP p + (p (Text.openPart '\n' content)).toNat := by
  rw [splitLines_eq, List.countP_append, Nat.add_left_cancel_iff]
  by_cases hopen : Text.openPart '\n' content = []
  · simp [hopen, hnil]
  · cases hp : p (Text.openPart '\n' content) with
    | true => simp [hopen, hp]
    | false => simp [hopen, hp]

theorem countP_splitLines_append {p : Text → Bool} {entry : Entry} :
    (splitLines (content ++ (entry.line rt opts ++ ['\n']))).countP p =
      (closedLines content).countP p +
        (p (Text.openPart '\n' content ++ entry.line rt opts)).toNat := by
  rw [splitLines_append Entry.line_ne_nil Entry.newline_not_mem_line, List.countP_append,
    Nat.add_left_cancel_iff]
  cases hp : p (Text.openPart '\n' content ++ entry.line rt opts) with
  | true => simp [hp]
  | false => simp [hp]

theorem linesOf_eq_of_stays (h : rotates opts file = false) :
    linesOf file = splitLines (contentBefore opts file) := by
  rw [contentBefore, h, if_neg Bool.false_ne_true]
  cases file with
  | none => rfl
  | some content => rfl

/-- The payloads that an acknowledged id takes from what is listed. -/
theorem countP_isListed_cons {store' : Store} (hnew : id ∉ store.ackedPayloadIds)
    (hacked : store'.ackedPayloadIds = id :: store.ackedPayloadIds) (lines : List Text) :
    lines.countP (isListed rt opts store') + lines.countP (State.holds rt opts id) =
      lines.countP (isListed rt opts store) := by
  induction lines with
  | nil => rfl
  | cons line lines ih =>
      rw [List.countP_cons, List.countP_cons, List.countP_cons, ← ih]
      unfold isListed State.holds
      cases parsePayload rt opts line with
      | none => simp
      | some found =>
          by_cases hid : found.1 = id
          · simp [hid, hnew, hacked]
            omega
          · simp [hid, hacked]
            omega

end Counting

/-! ## What the methods do to the count -/

section Methods

variable {rt : Runtime} {opts : DeadLetterStoreOptions} {file : StoreFile} {store : Store}
variable {entry : Entry}

theorem ensurePendingCountInitialized_pending (file : StoreFile) (store : Store) :
    (ensurePendingCountInitialized rt opts file store).pendingPayloadCount =
      some (getPendingCount rt opts file store).1 := by
  rw [getPendingCount_eq, ensurePendingCountInitialized]
  cases hpending : store.pendingPayloadCount with
  | none => rfl
  | some n => exact hpending

theorem writes_eq_true_iff :
    entry.writes rt opts file store = true ↔ entry.isOversized opts = false ∧
      entry.wasAcked rt opts store = false ∧
        (exceedsMaxSize opts file && decide (opts.maxBackups ≤ 0)) = false := by
  rw [Entry.writes, Bool.and_eq_true, Bool.and_eq_true, Bool.not_eq_true', Bool.not_eq_true',
    Bool.not_eq_true', and_assoc]

/-- The count that an entry leaves that is written. -/
def pendingAfter (rt : Runtime) (opts : DeadLetterStoreOptions) (file : StoreFile)
    (store : Store) : Entry → Option Nat
  | .ofPayload _ _ =>
      some ((if rotates opts file then 0 else (getPendingCount rt opts file store).1) + 1)
  | .ofMarker _ _ => if rotates opts file then some 0 else store.pendingPayloadCount

theorem pending_apply_of_writes (h : entry.writes rt opts file store = true) :
    (entry.apply rt opts file store).2.2.pendingPayloadCount =
      pendingAfter rt opts file store entry := by
  obtain ⟨hsize, hacked, htaken⟩ := writes_eq_true_iff.mp h
  cases entry with
  | ofPayload storedAt payload =>
      have hfits : ¬ opts.maxPayloadBytes < Text.byteLength payload := of_decide_eq_false hsize
      have hnew : computePayloadId rt payload ∉ store.ackedPayloadIds := by
        rw [Entry.wasAcked, decide_eq_true (Nat.not_lt.mp hfits), Bool.true_and] at hacked
        exact of_decide_eq_false hacked
      simp only [Entry.apply, appendPayloadSync, if_neg hfits,
        ensurePendingCountInitialized_acked, if_neg hnew, appendEnvelopeSync,
        rotateIfNeededSync_eq htaken, pendingAfter]
      cases rotates opts file with
      | true => rfl
      | false => simp [ensurePendingCountInitialized_pending]
  | ofMarker storedAt code =>
      simp only [Entry.apply, appendFailureMarkerSync, appendEnvelopeSync,
        rotateIfNeededSync_eq htaken, pendingAfter]
      cases rotates opts file with
      | true => rfl
      | false => rfl

/-- An entry that is not written leaves the count. -/
theorem getPendingCount_of_not_writes (h : entry.writes rt opts file store = false) :
    (getPendingCount rt opts file (entry.apply rt opts file store).2.2).1 =
      (getPendingCount rt opts file store).1 := by
  have hagain : (getPendingCount rt opts file (ensurePendingCountInitialized rt opts file
      store)).1 = (getPendingCount rt opts file store).1 := by
    rw [getPendingCount_eq, ensurePendingCountInitialized_pending]
    rfl
  cases entry with
  | ofPayload storedAt payload =>
      rw [Entry.apply, appendPayloadSync]
      split
      · rfl
      · next hfits =>
        simp only [ensurePendingCountInitialized_acked]
        split
        · exact hagain
        · next hnew =>
          have hrefused : (exceedsMaxSize opts file && decide (opts.maxBackups ≤ 0)) = true := by
            simpa [Entry.writes, Entry.wasAcked, Entry.isOversized, hfits, hnew] using h
          rw [appendEnvelopeSync_of_refused hrefused]
          exact hagain
  | ofMarker storedAt code =>
      have hrefused : (exceedsMaxSize opts file && decide (opts.maxBackups ≤ 0)) = true := by
        simpa [Entry.writes, Entry.wasAcked, Entry.isOversized] using h
      rw [Entry.apply, appendFailureMarkerSync, appendEnvelopeSync_of_refused hrefused]

end Methods

/-! ## Steps -/

namespace State

variable {rt : Runtime} {opts : DeadLetterStoreOptions} {s t : State} {entry : Entry}
variable {store store' : Store} {id : Text} {sentLineCount : Nat}

theorem agrees_iff :
    s.Agrees rt opts ↔
      s.store.pendingPayloadCount.getD (s.lines.countP (isRead rt opts)) =
        s.lines.countP (isListed rt opts s.store) := by
  rw [Agrees, getPendingCount_eq, length_entries, lines]

theorem agrees_mk_iff :
    State.Agrees rt opts { s with store := store } ↔
      store.pendingPayloadCount.getD (s.lines.countP (isRead rt opts)) =
        s.lines.countP (isListed rt opts store) := agrees_iff

theorem isListed_congr (h : store'.ackedPayloadIds = store.ackedPayloadIds) :
    isListed rt opts store' = isListed rt opts store := by
  funext line
  unfold isListed
  rw [h]

/-- The lines that a drain lists of what is left before the next entry. -/
theorem countP_before (h : s.Agrees rt opts) :
    (if rotates opts s.file then 0 else (getPendingCount rt opts s.file s.store).1) =
      (closedLines (contentBefore opts s.file)).countP (isListed rt opts s.store) +
        (isListed rt opts s.store (s.openLine opts)).toNat := by
  rw [openLine, ← countP_splitLines isListed_nil]
  cases hrotates : rotates opts s.file with
  | true =>
      rw [if_pos rfl, contentBefore, hrotates, if_pos rfl]
      rfl
  | false =>
      rw [if_neg Bool.false_ne_true, ← linesOf_eq_of_stays hrotates, ← length_entries]
      exact h

/-- The same for a scan, of a count that is not known. -/
theorem countP_isRead_before (h : s.Agrees rt opts) (hrotates : rotates opts s.file = false)
    (hpending : s.store.pendingPayloadCount = none) :
    (closedLines (contentBefore opts s.file)).countP (isRead rt opts) =
      (closedLines (contentBefore opts s.file)).countP (isListed rt opts s.store) := by
  rw [agrees_iff, hpending, Option.getD_none, lines, linesOf_eq_of_stays hrotates,
    countP_splitLines isRead_nil, countP_splitLines isListed_nil] at h
  have hle : (closedLines (contentBefore opts s.file)).countP (isListed rt opts s.store) ≤
      (closedLines (contentBefore opts s.file)).countP (isRead rt opts) :=
    List.countP_mono_left fun _ _ => isRead_of_isListed
  have hopen : (isListed rt opts s.store (Text.openPart '\n' (contentBefore opts s.file))).toNat ≤
      (isRead rt opts (Text.openPart '\n' (contentBefore opts s.file))).toNat :=
    Bool.toNat_le_toNat isRead_of_isListed
  omega

/-- One more is counted, and one more listed, when the new line is listed and what it continues
was not. -/
theorem succ_count_iff {n : Nat} {before after : Bool} :
    n + before.toNat + 1 = n + after.toNat ↔ after = true ∧ before = false := by
  cases before with
  | true =>
      cases after with
      | true => simp
      | false =>
          simp
          omega
  | false =>
      cases after with
      | true => simp
      | false => simp

theorem same_count_iff {n : Nat} {before after : Bool} :
    n + before.toNat = n + after.toNat ↔ after = before := by
  rw [Nat.add_left_cancel_iff]
  cases before with
  | true =>
      cases after with
      | true => simp
      | false => simp
  | false =>
      cases after with
      | true => simp
      | false => simp

theorem agrees_written_iff (h : s.Agrees rt opts) {store' : Store}
    (hpending : store'.pendingPayloadCount = pendingAfter rt opts s.file s.store entry)
    (hsame : store'.ackedPayloadIds = s.store.ackedPayloadIds) :
    State.Agrees rt opts
        { file := some (contentBefore opts s.file ++ (entry.line rt opts ++ ['\n'])),
          store := store' } ↔ s.WritesOwnLine rt opts entry := by
  have hbefore := countP_before h
  rw [agrees_iff, isListed_congr hsame, lines, linesOf, countP_splitLines_append,
    countP_splitLines_append, hpending]
  cases entry with
  | ofPayload storedAt payload =>
      rw [WritesOwnLine, pendingAfter, Option.getD_some, hbefore, lineWith]
      exact succ_count_iff
  | ofMarker storedAt code =>
      rw [WritesOwnLine, pendingAfter]
      cases hrotates : rotates opts s.file with
      | true =>
          rw [hrotates, if_pos rfl] at hbefore
          have hset : ¬ (s.store.pendingPayloadCount = none ∧ true = false) :=
            fun hscan => absurd hscan.2 (by decide)
          rw [if_pos rfl, if_neg hset, Option.getD_some, hbefore, lineWith]
          exact same_count_iff
      | false =>
          rw [hrotates, if_neg Bool.false_ne_true] at hbefore
          rw [if_neg Bool.false_ne_true]
          cases hcount : s.store.pendingPayloadCount with
          | some n =>
              have hknown : (getPendingCount rt opts s.file s.store).1 = n := by
                rw [getPendingCount_eq, hcount]
                rfl
              have hset : ¬ (some n = none ∧ false = false) :=
                fun hscan => absurd hscan.1 (Option.some_ne_none n)
              rw [if_neg hset, Option.getD_some, ← hknown, hbefore, lineWith]
              exact same_count_iff
          | none =>
              have hmono : isListed rt opts s.store (s.lineWith rt opts (.ofMarker storedAt code)) =
                  true → isRead rt opts (s.lineWith rt opts (.ofMarker storedAt code)) = true :=
                isRead_of_isListed
              rw [if_pos ⟨rfl, rfl⟩, Option.getD_none, countP_isRead_before h hrotates hcount]
              exact same_count_iff.trans ⟨fun heq hread => heq.trans hread,
                fun himp => Bool.eq_iff_iff.mpr ⟨hmono, himp⟩⟩

theorem agrees_append_iff (h : s.Agrees rt opts) (hstep : s.step rt opts (.append entry) = some t) :
    t.Agrees rt opts ↔ s.CountsLines rt opts (.append entry) := by
  obtain rfl := Option.some.inj hstep
  rw [CountsLines]
  cases hwrites : entry.writes rt opts s.file s.store with
  | true =>
      obtain ⟨store', happly, hsame⟩ := Entry.apply_of_writes hwrites
      have hpending := pending_apply_of_writes hwrites
      rw [happly] at hpending ⊢
      rw [forall_prop_of_true rfl]
      exact agrees_written_iff h hpending hsame
  | false =>
      obtain ⟨store', happly, hsame⟩ := Entry.apply_of_not_writes hwrites
      have hcount := getPendingCount_of_not_writes hwrites
      rw [happly] at hcount ⊢
      refine iff_of_true ?_ nofun
      rw [Agrees, length_entries, isListed_congr hsame, ← length_entries, hcount]
      exact h

theorem agrees_markAcked_iff (h : s.Agrees rt opts)
    (hstep : s.step rt opts (.markAcked id) = some t) :
    t.Agrees rt opts ↔ s.CountsLines rt opts (.markAcked id) := by
  obtain rfl := Option.some.inj hstep
  rw [CountsLines, markAcked]
  by_cases hdone : id = [] ∨ id ∈ s.store.ackedPayloadIds
  · rw [if_pos hdone]
    refine iff_of_true h fun hne hnew => ?_
    exact absurd hdone (not_or.mpr ⟨hne, hnew⟩)
  · obtain ⟨hne, hnew⟩ := not_or.mp hdone
    rw [if_neg hdone, forall_prop_of_true hne, forall_prop_of_true hnew]
    have hlisted (pending : Option Nat) :
        s.lines.countP (isListed rt opts ⟨pending, id :: s.store.ackedPayloadIds⟩) +
          s.lines.countP (holds rt opts id) = s.lines.countP (isListed rt opts s.store) :=
      countP_isListed_cons hnew rfl s.lines
    have hzero : s.lines.countP (isListed rt opts s.store) = 0 ↔
        ∀ line ∈ s.lines, isListed rt opts s.store line = false := by
      rw [List.countP_eq_zero]
      simp
    rw [agrees_iff] at h
    refine agrees_mk_iff.trans ?_
    cases hpending : s.store.pendingPayloadCount with
    | none =>
        rw [hpending, Option.getD_none] at h
        rw [if_pos rfl, Option.map_none, Option.getD_none, h, ← hlisted none]
        omega
    | some n =>
        rw [hpending, Option.getD_some] at h
        have hleft := hlisted (some (n - 1))
        rw [if_neg (Option.some_ne_none n), ← hzero, Option.map_some, Option.getD_some]
        omega

theorem agrees_clearSent_iff (hstep : s.step rt opts (.clearSent sentLineCount) = some t) :
    t.Agrees rt opts ↔ s.CountsLines rt opts (.clearSent sentLineCount) := by
  obtain rfl := Option.some.inj hstep
  rw [CountsLines, agrees_iff, lines, lines]
  cases hfile : s.file with
  | none =>
      refine iff_of_true rfl ?_
      simp [linesOf]
  | some content =>
      have hleft : linesOf (clearSent (some content) s.store sentLineCount).1 =
          (splitLines content).drop sentLineCount := by
        rw [clearSent]
        dsimp only
        split
        · next hlt =>
          have hne : (splitLines content).drop sentLineCount ≠ [] := by
            rw [ne_eq, List.drop_eq_nil_iff, Nat.not_le]
            exact hlt
          obtain ⟨line, hline⟩ := List.exists_mem_of_ne_nil _ hne
          exact ClearSent.linesOf_remaining hline
        · next hge => exact (List.drop_eq_nil_of_le (Nat.not_lt.mp hge)).symm
      have hunknown : (clearSent (some content) s.store sentLineCount).2 =
          { s.store with pendingPayloadCount := none } := rfl
      rw [hleft, hunknown, Option.getD_none, eq_comm]
      exact countP_eq_iff_of_imp fun _ _ => isRead_of_isListed

/-- What a drain lists is kept by `reSignAll`, and counted by it. -/
theorem resigns_of_isListed {line : Text} (h : isListed rt opts store line = true) :
    resigns rt opts line = true := by
  have hread := isRead_of_isListed h
  rw [isRead, parsePayload] at hread
  rw [resigns]
  cases henvelope : parseEnvelope rt opts line with
  | none =>
      rw [henvelope] at hread
      contradiction
  | some envelope =>
      obtain ⟨hraw, hmac⟩ := parseRawEnvelope_of_parseEnvelope rt opts henvelope
      rw [reSignLine_eq_some_iff.mpr ⟨envelope, hraw, hmac, rfl⟩, isMarkerLine, hraw]
      obtain ⟨⟨storedAt, content⟩, mac⟩ := envelope
      cases content with
      | payload id payload => rfl
      | marker code =>
          rw [henvelope] at hread
          contradiction

theorem agrees_reSignAll_iff (first : PrimaryFirst opts.verifier) (h : s.Agrees rt opts)
    (hstep : s.step rt opts .reSignAll = some t) :
    t.Agrees rt opts ↔ s.CountsLines rt opts .reSignAll := by
  obtain rfl := Option.some.inj hstep
  rw [CountsLines, Agrees]
  have hdrained : drained rt opts (reSignAll rt opts s.file s.store).2.1
      (reSignAll rt opts s.file s.store).2.2 = drained rt opts s.file s.store := by
    apply drained_reSignAll
    · intro payload
      rw [first]
      rfl
    · exact fun _ => rfl
  have hlength := congrArg List.length hdrained
  rw [drained, drained, List.length_map, List.length_map, length_entries s.file] at hlength
  rw [hlength, getPendingCount_eq, lines]
  cases hfile : s.file with
  | none =>
      rw [agrees_iff, lines, hfile] at h
      refine iff_of_true h ?_
      simp [linesOf]
  | some content =>
      rw [reSignAll_some, Option.getD_some, resignedCount, List.countP_filter, eq_comm]
      have hcount : (splitLines content).countP (fun line =>
          (!isMarkerLine rt line) && (reSignLine rt opts line).isSome) =
            (splitLines content).countP (resigns rt opts) := by
        refine List.countP_congr fun line _ => ?_
        rw [resigns, Bool.and_comm]
      rw [hcount]
      exact countP_eq_iff_of_imp fun _ _ => resigns_of_isListed

theorem agrees_step_iff (first : PrimaryFirst opts.verifier) {a : Action} (h : s.Agrees rt opts)
    (hstep : s.step rt opts a = some t) : t.Agrees rt opts ↔ s.CountsLines rt opts a := by
  cases a with
  | append entry => exact agrees_append_iff h hstep
  | markAcked id => exact agrees_markAcked_iff h hstep
  | clearSent sentLineCount => exact agrees_clearSent_iff hstep
  | clear =>
      obtain rfl := Option.some.inj hstep
      exact iff_of_true rfl trivial
  | reSignAll => exact agrees_reSignAll_iff first h hstep
  | getPendingCount =>
      obtain rfl := Option.some.inj hstep
      refine iff_of_true ?_ trivial
      have hcount : (getPendingCount rt opts s.file (getPendingCount rt opts s.file s.store).2).1 =
          (getPendingCount rt opts s.file s.store).1 := by
        rw [getPendingCount_eq]
        exact congrArg (Option.getD · _) (ensurePendingCountInitialized_pending s.file s.store)
      have hsame : isListed rt opts (ensurePendingCountInitialized rt opts s.file s.store) =
          isListed rt opts s.store :=
        isListed_congr (ensurePendingCountInitialized_acked rt opts s.file s.store)
      rw [Agrees, hcount, length_entries, getPendingCount, hsame, ← length_entries]
      exact h

theorem agrees_of_init (h : (system rt opts).init s) : s.Agrees rt opts := by
  have hfresh : s.store = Store.fresh := h
  rw [agrees_iff, hfresh, isListed_fresh]
  rfl

theorem agrees_preserved (first : PrimaryFirst opts.verifier) :
    (system rt opts).Preserved (CountsLines rt opts) (Agrees rt opts) where
  init _ hs := agrees_of_init hs
  step _ _ _ h hcounts hstep := (agrees_step_iff first h hstep).mpr hcounts

/-- The count is that of a drain throughout a run exactly when each step changes both alike. -/
theorem always_agrees_iff (rt : Runtime) (opts : DeadLetterStoreOptions)
    (first : PrimaryFirst opts.verifier) (s₀ : State) (run : List Action)
    (init : (system rt opts).init s₀) :
    (system rt opts).Always (Agrees rt opts) s₀ run ↔
      (system rt opts).Guarded (CountsLines rt opts) s₀ run := by
  apply Transition.System.always_iff_guarded (agrees_preserved first)
  · exact fun _ h => h
  · exact fun s a t h hstep hagrees => (agrees_step_iff first h hstep).mp hagrees
  · exact agrees_of_init init

/-- A new store, without a file. -/
def opened : State := { file := none, store := Store.fresh }

def payloadEntry (payload : Text) : Entry := .ofPayload exampleTime payload

def payloadId (payload : Text) : Text := computePayloadId exampleRuntime payload

/-- Both payloads are stored and one of them delivered; then the file is re-signed and cleared. -/
def deliveredRun : List Action :=
  [.append (payloadEntry "p"), .append (payloadEntry "q"), .reSignAll, .getPendingCount,
    .markAcked (payloadId "p"), .append (.ofMarker exampleTime "EC_CAPTURE_FAILED"),
    .clearSent 1, .append (payloadEntry "p"), .getPendingCount, .clear]

theorem deliveredRun_agrees :
    (system exampleRuntime (Session.chainStore false)).Always
      (Agrees exampleRuntime (Session.chainStore false)) opened deliveredRun :=
  (always_agrees_iff exampleRuntime (Session.chainStore false)
    (createHmacVerifier_primaryFirst _ "Bearer t0ken" ["Bearer 0ld"]) opened deliveredRun
    rfl).mpr (by decide +kernel)

/-- A payload is stored twice and then delivered. -/
def storedTwiceRun : List Action :=
  [.append (payloadEntry "p"), .append (payloadEntry "p"), .markAcked (payloadId "p")]

/-- A payload is pending by the count and none by a drain. -/
theorem storedTwiceRun_disagrees :
    ∃ s, (system exampleRuntime (Session.chainStore false)).exec opened storedTwiceRun = some s ∧
      (getPendingCount exampleRuntime (Session.chainStore false) s.file s.store).1 = 1 ∧
      (drain exampleRuntime (Session.chainStore false) s.file s.store true).entries = [] := by
  have hfound : ((system exampleRuntime (Session.chainStore false)).exec opened
      storedTwiceRun).map (fun s =>
        ((getPendingCount exampleRuntime (Session.chainStore false) s.file s.store).1,
          (drain exampleRuntime (Session.chainStore false) s.file s.store true).entries)) =
        some (1, []) := by
    decide +kernel
  obtain ⟨s, hrun, heq⟩ := Option.map_eq_some_iff.mp hfound
  obtain ⟨hcount, hentries⟩ := Prod.mk.inj heq
  exact ⟨s, hrun, hcount, hentries⟩

end State

end ErrorCore.DeadLetterStore.PendingCount
