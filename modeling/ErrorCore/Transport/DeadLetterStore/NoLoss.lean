import ErrorCore.Transport.DeadLetterStore.Appends
import ErrorCore.Transport.DeadLetterStore.Drainers

/-!
# No dead-lettered payload is lost

A drainer knows what it has delivered by the lines of its snapshot, but it cuts
by counting lines of the file it finds later. The invariant follows one drainer
from its snapshot to its cut: every payload line of the snapshot is settled or
belongs to an entry the loop has not settled yet, so what the cut would remove
from the snapshot is settled. In a run whose clearing steps cut appended lines
that they would also cut out of their own snapshot, nothing is lost.
-/

namespace ErrorCore.DeadLetterStore

/-! ## The invariant -/

section Invariant

variable (cfg : Deployment)

/-- If the line holds a payload, that payload has been delivered, or one of the
same id has. -/
def Settled (delivered : List Text) (acked : List DeadLetterDrainEntry) (d : Drainer)
    (line : Text) : Prop :=
  ∀ id payload, parsePayload cfg.rt (cfg.options d) line = some (id, payload) →
    payload ∈ delivered ∨ ∃ e ∈ acked, e.id = id

/-- The loop of a drainer, with the entries beyond its batch. -/
structure LoopOk (delivered : List Text) (acked : List DeadLetterDrainEntry) (d : Drainer)
    (loop : Sending) (beyond : List DeadLetterDrainEntry) : Prop where
  listed : ∀ i line id payload, loop.snapshot[i]? = some line →
    parsePayload cfg.rt (cfg.options d) line = some (id, payload) →
    (payload ∈ delivered ∨ ∃ e ∈ acked, e.id = id) ∨
      { lineNumber := i + 1, id, payload } ∈ loop.entries
  sorted : loop.entries.Pairwise (·.lineNumber < ·.lineNumber)
  entries : loop.entries = loop.done ++ loop.rest ++ beyond
  wholeBatch : d = .cli → beyond = []
  done : ∀ e ∈ loop.done,
    e.payload ∈ delivered ∨ d = .cli ∧ e.lineNumber - 1 ∈ loop.failedLineIndices
  pending : d ≠ .cli → ∀ e ∈ loop.rest ++ beyond, loop.processedLineCount < e.lineNumber

def PhaseOk (delivered : List Text) (acked : List DeadLetterDrainEntry) (d : Drainer) :
    Phase → Prop
  | .sending loop => ∃ beyond, LoopOk cfg delivered acked d loop beyond
  | .clearing snapshot cut => ∀ line ∈ cut.cutLines snapshot, Settled cfg delivered acked d line
  | _ => True

structure Invariant (s : State) : Prop where
  written : ∀ a ∈ s.accepted, a.Written cfg
  ackedIds : ∀ id ∈ s.store.ackedPayloadIds, ∃ e ∈ s.acked, e.id = id
  ackedSent : ∀ e ∈ s.acked, e.payload ∈ s.sent
  phases : ∀ d, PhaseOk cfg s.sent s.acked d (s.drainers d)
  nothingLost : NothingLost s

variable {cfg} {d : Drainer} {delivered delivered' : List Text}
variable {acked acked' : List DeadLetterDrainEntry}

theorem Settled.mono (hsent : delivered ⊆ delivered') (hacked : acked ⊆ acked') {line : Text}
    (h : Settled cfg delivered acked d line) : Settled cfg delivered' acked' d line := by
  intro id payload hparse
  rcases h id payload hparse with hs | ⟨e, he, hid⟩
  · exact .inl (hsent hs)
  · exact .inr ⟨e, hacked he, hid⟩

theorem LoopOk.mono (hsent : delivered ⊆ delivered') (hacked : acked ⊆ acked') {loop : Sending}
    {beyond : List DeadLetterDrainEntry} (h : LoopOk cfg delivered acked d loop beyond) :
    LoopOk cfg delivered' acked' d loop beyond where
  listed i line id payload hline hparse := by
    rcases h.listed i line id payload hline hparse with (hs | ⟨e, he, hid⟩) | hentry
    · exact .inl (.inl (hsent hs))
    · exact .inl (.inr ⟨e, hacked he, hid⟩)
    · exact .inr hentry
  sorted := h.sorted
  entries := h.entries
  wholeBatch := h.wholeBatch
  done e he := (h.done e he).imp_left (fun hs => hsent hs)
  pending := h.pending

theorem PhaseOk.mono (hsent : delivered ⊆ delivered') (hacked : acked ⊆ acked') {phase : Phase}
    (h : PhaseOk cfg delivered acked d phase) : PhaseOk cfg delivered' acked' d phase := by
  cases phase with
  | sending loop =>
      obtain ⟨beyond, hloop⟩ := h
      exact ⟨beyond, hloop.mono hsent hacked⟩
  | clearing snapshot cut => exact fun line hline => (h line hline).mono hsent hacked
  | idle | draining | finished => trivial

theorem PhaseOk.after (d : Drainer) : PhaseOk cfg delivered acked d d.after := by
  cases d <;> trivial

/-! ## One drainer from its snapshot to its cut -/

theorem LoopOk.pending_eq_nil {loop : Sending} {beyond : List DeadLetterDrainEntry}
    (h : LoopOk cfg delivered acked d loop beyond) (hd : d ≠ .cli)
    (everything : loop.drainedEverything = true) : loop.rest ++ beyond = [] := by
  simp only [Sending.drainedEverything, Bool.and_eq_true, decide_eq_true_eq] at everything
  obtain ⟨hlast, hlength⟩ := everything
  rw [Sending.batch] at hlast hlength
  have hrest : loop.rest = [] := by
    by_contra hne
    obtain ⟨last, hget⟩ := List.getLast?_isSome.mpr hne |> Option.isSome_iff_exists.mp
    rw [List.getLast?_append, hget] at hlast
    have behind := h.pending hd last (List.mem_append_left _ (List.mem_of_getLast? hget))
    simp only [Option.some_or, Option.map_some, Option.some.injEq] at hlast
    omega
  rw [hrest, List.nil_append]
  rw [h.entries, hrest, List.append_nil, List.length_append] at hlength
  exact List.eq_nil_of_length_eq_zero (by omega)

/-- The entries still pending lie behind the cut, and if the cut takes the whole
snapshot there are none. -/
theorem LoopOk.stop {loop : Sending} {beyond : List DeadLetterDrainEntry}
    (h : LoopOk cfg delivered acked d loop beyond) (hd : d ≠ .cli) {after : Phase}
    (hafter : PhaseOk cfg delivered acked d after) :
    PhaseOk cfg delivered acked d (loop.stop after) := by
  rw [Sending.stop]
  split
  case isTrue => exact hafter
  case isFalse =>
    intro line hline id payload hparse
    rw [Clearing.cutLines] at hline
    obtain ⟨i, hi, hget⟩ := List.mem_iff_getElem.mp hline
    rw [List.getElem_take] at hget
    rw [List.length_take] at hi
    have hline' : loop.snapshot[i]? = some line := by
      rw [← hget, List.getElem?_eq_getElem]
    rcases h.listed i line id payload hline' hparse with settled | hentry
    · exact settled
    · rw [h.entries, List.append_assoc, List.mem_append] at hentry
      rcases hentry with hdone | hpending
      · rcases h.done _ hdone with hs | ⟨hcli, _⟩
        · exact .inl hs
        · exact absurd hcli hd
      · have behind := h.pending hd _ hpending
        simp only at behind
        split at hi
        case isFalse => omega
        case isTrue everything =>
          rw [h.pending_eq_nil hd everything] at hpending
          exact absurd hpending List.not_mem_nil

/-- A delivered entry moves from the pending ones to the ones that are done. -/
theorem LoopOk.settleInSdk {loop : Sending} {beyond rest : List DeadLetterDrainEntry}
    {entry : DeadLetterDrainEntry} {sent : Bool} (h : LoopOk cfg delivered acked d loop beyond)
    (hd : d ≠ .cli) (hrest : loop.rest = entry :: rest)
    (hsent : sent = true → entry.payload ∈ delivered)
    {after : Phase} (hafter : PhaseOk cfg delivered acked d after) :
    PhaseOk cfg delivered acked d (loop.settleInSdk entry rest sent after) := by
  rw [Sending.settleInSdk]
  split
  case isFalse => exact h.stop hd hafter
  case isTrue resolved =>
    have next : LoopOk cfg delivered acked d
        { loop with done := loop.done ++ [entry], rest, processedLineCount := entry.lineNumber }
        beyond := by
      have hentries : loop.entries = loop.done ++ [entry] ++ rest ++ beyond := by
        rw [h.entries, hrest]
        simp
      refine ⟨h.listed, h.sorted, hentries, h.wholeBatch, ?_, ?_⟩
      · intro e he
        rcases List.mem_append.mp he with he | he
        · exact h.done e he
        · obtain rfl := List.mem_singleton.mp he
          exact .inl (hsent resolved)
      · intro _ e he
        have sorted := h.sorted
        rw [hentries, List.append_assoc, List.append_assoc, List.pairwise_append] at sorted
        exact List.rel_of_pairwise_cons sorted.2.1 he
    simp only
    split
    · exact next.stop hd hafter
    · exact ⟨beyond, next⟩

/-- The cut of `cmdDrain` keeps the lines of the entries that failed. -/
theorem LoopOk.clearing {loop : Sending} (h : LoopOk cfg delivered acked .cli loop [])
    (hrest : loop.rest = []) :
    PhaseOk cfg delivered acked .cli
      (.clearing loop.snapshot (.cmdDrain loop.lineCount loop.failedLineIndices)) := by
  intro line hline id payload hparse
  simp only [Clearing.cutLines, Sending.lineCount, List.take_length, List.mem_map,
    List.mem_filter, decide_eq_true_eq] at hline
  obtain ⟨⟨line', i⟩, ⟨hmem, hfailed⟩, rfl⟩ := hline
  have hline' : loop.snapshot[i]? = some line' := List.mem_zipIdx_iff_getElem?.mp hmem
  rcases h.listed i line' id payload hline' hparse with settled | hentry
  · exact settled
  · rw [h.entries, hrest, List.append_nil, List.append_nil] at hentry
    rcases h.done _ hentry with hs | ⟨_, hindex⟩
    · exact .inl hs
    · exact absurd hindex hfailed

theorem LoopOk.settleInCli {loop : Sending} {beyond rest : List DeadLetterDrainEntry}
    {entry : DeadLetterDrainEntry} {sent : Bool} (h : LoopOk cfg delivered acked .cli loop beyond)
    (hrest : loop.rest = entry :: rest) (hsent : sent = true → entry.payload ∈ delivered) :
    PhaseOk cfg delivered acked .cli (loop.settleInCli entry rest sent) := by
  obtain rfl := h.wholeBatch rfl
  have next : LoopOk cfg delivered acked .cli
      { loop with
        done := loop.done ++ [entry]
        rest
        failedLineIndices :=
          if sent then loop.failedLineIndices
          else loop.failedLineIndices ++ [entry.lineNumber - 1] } [] := by
    refine ⟨h.listed, h.sorted, ?_, fun _ => rfl, ?_, fun hcli => absurd rfl hcli⟩
    · rw [h.entries, hrest]
      simp
    · intro e he
      rcases List.mem_append.mp he with he | he
      · refine (h.done e he).imp_right fun ⟨hcli, hindex⟩ => ⟨hcli, ?_⟩
        cases sent
        · exact List.mem_append_left _ hindex
        · exact hindex
      · obtain rfl := List.mem_singleton.mp he
        cases sent
        · exact .inr ⟨rfl, by simp⟩
        · exact .inl (hsent rfl)
  rw [Sending.settleInCli]
  simp only
  split
  case isTrue nothing => exact next.clearing nothing
  case isFalse => exact ⟨[], next⟩

/-! ## The snapshot -/

theorem LoopOk.start {store : Store} {lines : List Text}
    {batch beyond : List DeadLetterDrainEntry}
    (hacked : ∀ id ∈ store.ackedPayloadIds, ∃ e ∈ acked, e.id = id)
    (hsplit : drainEntries cfg.rt (cfg.options d) store 1 lines = batch ++ beyond)
    (hcli : d = .cli → beyond = []) :
    LoopOk cfg delivered acked d
      { snapshot := lines, entries := drainEntries cfg.rt (cfg.options d) store 1 lines,
        done := [], rest := batch, processedLineCount := 0, failedLineIndices := [] } beyond where
  listed i line id payload hline hparse := by
    rcases mem_drainEntries store 1 hline hparse with acked | listed
    · exact .inl (.inr (hacked id acked))
    · rw [Nat.add_comm] at listed
      exact .inr listed
  sorted := pairwise_drainEntries 1 lines
  entries := hsplit
  wholeBatch := hcli
  done e he := absurd he List.not_mem_nil
  pending _ e he := by
    rw [← hsplit] at he
    exact le_lineNumber_of_mem_drainEntries e he

/-- Clearing a snapshot without entries removes nothing that is not settled. -/
theorem settled_of_no_entries {store : Store} {lines : List Text}
    (hacked : ∀ id ∈ store.ackedPayloadIds, ∃ e ∈ acked, e.id = id)
    (hnone : drainEntries cfg.rt (cfg.options d) store 1 lines = []) :
    ∀ line ∈ lines, Settled cfg delivered acked d line := by
  intro line hline id payload hparse
  obtain ⟨i, hget⟩ := List.mem_iff_getElem?.mp hline
  rcases mem_drainEntries store 1 hget hparse with acked | listed
  · exact .inr (hacked id acked)
  · rw [hnone] at listed
    exact absurd listed List.not_mem_nil

theorem drain_cases (rt : Runtime) (opts : DeadLetterStoreOptions) (file : StoreFile)
    (store : Store) (allowLargeFile : Bool) :
    drain rt opts file store allowLargeFile = { entries := [], lineCount := 0 } ∨
      drain rt opts file store allowLargeFile =
        { entries := drainEntries rt opts store 1 (linesOf file)
          lineCount := (linesOf file).length } := by
  rw [drain]
  split
  · exact .inl rfl
  · exact .inr rfl

theorem phaseOk_afterDrainInSdk {file : StoreFile} {store : Store} {allowLargeFile : Bool}
    {batch beyond : List DeadLetterDrainEntry} {after : Phase} (hd : d ≠ .cli)
    (hacked : ∀ id ∈ store.ackedPayloadIds, ∃ e ∈ acked, e.id = id)
    (hsplit : (drain cfg.rt (cfg.options d) file store allowLargeFile).entries = batch ++ beyond)
    (hafter : PhaseOk cfg delivered acked d after) :
    PhaseOk cfg delivered acked d (afterDrainInSdk (linesOf file)
      (drain cfg.rt (cfg.options d) file store allowLargeFile) batch after) := by
  rcases drain_cases cfg.rt (cfg.options d) file store allowLargeFile with hdrain | hdrain
  · simp only [afterDrainInSdk, hdrain, Nat.lt_irrefl, ↓reduceIte]
    exact hafter
  · rw [hdrain] at hsplit ⊢
    rw [afterDrainInSdk]
    split
    case isTrue hnone =>
      split
      case isTrue =>
        intro line hline
        rw [Clearing.cutLines, List.take_length] at hline
        exact settled_of_no_entries hacked hnone line hline
      case isFalse => exact hafter
    case isFalse =>
      rw [startLoop]
      split
      · exact hafter
      · exact ⟨beyond, LoopOk.start hacked hsplit (fun hcli => absurd hcli hd)⟩

theorem phaseOk_cmdDrain {file : StoreFile} {store : Store} {allowLargeFile : Bool}
    (hacked : ∀ id ∈ store.ackedPayloadIds, ∃ e ∈ acked, e.id = id) :
    PhaseOk cfg delivered acked .cli (cmdDrain (linesOf file)
      (drain cfg.rt (cfg.options .cli) file store allowLargeFile)) := by
  rcases drain_cases cfg.rt (cfg.options .cli) file store allowLargeFile with hdrain | hdrain
  · simp only [cmdDrain, hdrain, startLoop, ↓reduceIte]
    trivial
  · rw [cmdDrain, hdrain, startLoop]
    split
    · trivial
    · exact ⟨[], LoopOk.start hacked (List.append_nil _).symm (fun _ => rfl)⟩

/-! ## Steps -/

variable {s t : State}

theorem Invariant.setDrainer (h : Invariant cfg s) {phase : Phase}
    (hphase : PhaseOk cfg s.sent s.acked d phase) :
    Invariant cfg (s.setDrainer d phase) := by
  refine ⟨h.written, h.ackedIds, h.ackedSent, fun e => ?_, h.nothingLost⟩
  by_cases he : e = d
  · subst e
    rw [State.setDrainer_same]
    exact hphase
  · rw [State.setDrainer_of_ne _ _ he]
    exact h.phases e

theorem clearSent_acked (file : StoreFile) (store : Store) (sentLineCount : Nat) :
    (clearSent file store sentLineCount).2.ackedPayloadIds = store.ackedPayloadIds := by
  cases file <;> rfl

theorem markAcked_acked (store : Store) (id : Text) :
    ∀ id' ∈ (markAcked store id).ackedPayloadIds, id' = id ∨ id' ∈ store.ackedPayloadIds := by
  intro id' h
  rw [markAcked] at h
  split at h
  · exact .inr h
  · exact List.mem_cons.mp h

/-- What a step that only changes the file and the counters keeps. -/
theorem Invariant.withFile (h : Invariant cfg s) {file : StoreFile} {store : Store}
    (hstore : store.ackedPayloadIds = s.store.ackedPayloadIds) :
    Invariant cfg { s with file, store } where
  written := h.written
  ackedIds id hid := h.ackedIds id (by rwa [hstore] at hid)
  ackedSent := h.ackedSent
  phases := h.phases
  nothingLost := h.nothingLost

theorem Invariant.accept (h : Invariant cfg s) {a : Accepted} (ha : a.Written cfg) :
    Invariant cfg { s with accepted := a :: s.accepted } where
  written b hb := by
    rcases List.mem_cons.mp hb with rfl | hb
    · exact ha
    · exact h.written b hb
  ackedIds := h.ackedIds
  ackedSent := h.ackedSent
  phases := h.phases
  nothingLost := h.nothingLost

/-- The only step that can lose something: a cut that meets the guard takes no
appended line whose payload is undelivered. -/
theorem Invariant.unsent_eq_nil (h : Invariant cfg s) {snapshot : List Text} {cut : Clearing}
    (hphase : s.drainers d = .clearing snapshot cut) (guard : s.ClearsOwnSnapshot cfg d) :
    (s.accepted.filter fun a => a.line ∈ cut.cutLines (linesOf s.file) ∧ a.payload ∉ s.sent) =
      [] := by
  rw [List.filter_eq_nil_iff]
  intro a ha hlost
  obtain ⟨hremoved, hunsent⟩ := of_decide_eq_true hlost
  simp only [State.ClearsOwnSnapshot, hphase] at guard
  obtain ⟨hsnapshot, hread, hsame⟩ := guard a ha hremoved
  obtain ⟨storedAt, hline⟩ := h.written a ha
  have settled : Settled cfg s.sent s.acked d a.line := by
    have phase := h.phases d
    rw [hphase] at phase
    exact phase a.line hsnapshot
  have hparse : parsePayload cfg.rt (cfg.options d) a.line =
      some (computePayloadId cfg.rt a.payload, a.payload) := by
    rw [hline] at hread ⊢
    exact parsePayload_signedLine cfg.rt (cfg.options d) cfg.sdk hread
  rcases settled _ _ hparse with hs | ⟨e, he, hid⟩
  · exact hunsent hs
  · exact hunsent (hsame e he hid ▸ h.ackedSent e he)

theorem Invariant.section_ (h : Invariant cfg s) (guard : s.ClearsOwnSnapshot cfg d)
    (hstep : s.section cfg d = some t) : Invariant cfg t := by
  cases hphase : s.drainers d with
  | idle =>
      simp only [State.section, hphase, Option.some.injEq] at hstep
      subst hstep
      split
      · exact h.setDrainer trivial
      · exact h.setDrainer (PhaseOk.after d)
  | draining =>
      simp only [State.section, hphase] at hstep
      cases d with
      | startUp =>
          obtain rfl := Option.some.inj hstep
          exact h.setDrainer (phaseOk_afterDrainInSdk (by decide) h.ackedIds
            (List.take_append_drop _ _).symm trivial)
      | recovery =>
          obtain rfl := Option.some.inj hstep
          exact h.setDrainer (phaseOk_afterDrainInSdk (by decide) h.ackedIds
            (List.append_nil _).symm trivial)
      | cli =>
          obtain rfl := Option.some.inj hstep
          exact h.setDrainer (phaseOk_cmdDrain (by simp [Store.fresh]))
  | clearing snapshot cut =>
      have nothing := h.unsent_eq_nil hphase guard
      simp only [State.section, hphase, nothing, List.map_nil, List.append_nil] at hstep
      cases cut with
      | clearSent sentLineCount =>
          obtain rfl := Option.some.inj hstep
          exact (h.withFile (clearSent_acked ..)).setDrainer (PhaseOk.after d)
      | cmdDrain snapshotLineCount failedLineIndices =>
          obtain rfl := Option.some.inj hstep
          exact (h.withFile rfl).setDrainer (PhaseOk.after d)
  | sending | finished =>
      simp only [State.section, hphase] at hstep
      exact nomatch hstep

theorem Invariant.recordSent (h : Invariant cfg s) (entry : DeadLetterDrainEntry) (sent : Bool) :
    Invariant cfg (s.recordSent entry sent) := by
  cases sent with
  | false => exact h
  | true =>
      refine ⟨h.written, h.ackedIds, fun e he => List.mem_cons_of_mem _ (h.ackedSent e he),
        fun e => ?_, h.nothingLost⟩
      exact (h.phases e).mono (List.subset_cons_self _ _) (List.Subset.refl _)

theorem Invariant.markAcked (h : Invariant cfg s) {entry : DeadLetterDrainEntry} {sent : Bool}
    (hsent : sent = true → entry.payload ∈ s.sent) : Invariant cfg (s.markAcked d entry sent) := by
  unfold State.markAcked
  split
  case h_2 => exact h
  case h_1 =>
    refine ⟨h.written, fun id hid => ?_, fun e he => ?_, fun e => ?_, h.nothingLost⟩
    · rcases markAcked_acked s.store entry.id id hid with rfl | hid
      · exact ⟨entry, List.mem_cons_self, rfl⟩
      · obtain ⟨e, he, hsame⟩ := h.ackedIds id hid
        exact ⟨e, List.mem_cons_of_mem _ he, hsame⟩
    · rcases List.mem_cons.mp he with rfl | he
      · exact hsent rfl
      · exact h.ackedSent e he
    · exact (h.phases e).mono (List.Subset.refl _) (List.subset_cons_self _ _)

theorem recordSent_mem {entry : DeadLetterDrainEntry} {sent : Bool} (h : sent = true) :
    entry.payload ∈ (s.recordSent entry sent).sent := by
  subst h
  exact List.mem_cons_self

theorem subset_recordSent (s : State) (entry : DeadLetterDrainEntry) (sent : Bool) :
    s.sent ⊆ (s.recordSent entry sent).sent := by
  cases sent
  · exact List.Subset.refl _
  · exact List.subset_cons_self _ _

theorem markAcked_sent (s : State) (d : Drainer) (entry : DeadLetterDrainEntry) (sent : Bool) :
    (s.markAcked d entry sent).sent = s.sent := by
  unfold State.markAcked
  split <;> rfl

theorem subset_markAcked (s : State) (d : Drainer) (entry : DeadLetterDrainEntry) (sent : Bool) :
    s.acked ⊆ ((s.recordSent entry sent).markAcked d entry sent).acked := by
  have same : (s.recordSent entry sent).acked = s.acked := by cases sent <;> rfl
  unfold State.markAcked
  split
  · rw [← same]
    exact List.subset_cons_self _ _
  · rw [same]
    exact List.Subset.refl _

theorem Invariant.settle (h : Invariant cfg s) {sent : Bool} (hstep : s.settle d sent = some t) :
    Invariant cfg t := by
  cases hphase : s.drainers d with
  | sending loop =>
      cases hrest : loop.rest with
      | nil =>
          simp only [State.settle, hphase, hrest] at hstep
          exact nomatch hstep
      | cons entry rest =>
          simp only [State.settle, hphase, hrest, Option.some.injEq] at hstep
          subst hstep
          have settled : Invariant cfg ((s.recordSent entry sent).markAcked d entry sent) :=
            (h.recordSent entry sent).markAcked recordSent_mem
          have before : PhaseOk cfg s.sent s.acked d (.sending loop) := hphase ▸ h.phases d
          have loopOk : PhaseOk cfg ((s.recordSent entry sent).markAcked d entry sent).sent
              ((s.recordSent entry sent).markAcked d entry sent).acked d (.sending loop) := by
            refine before.mono ?_ (subset_markAcked s d entry sent)
            rw [markAcked_sent]
            exact subset_recordSent s entry sent
          obtain ⟨beyond, hloop⟩ := loopOk
          have hsent : sent = true →
              entry.payload ∈ ((s.recordSent entry sent).markAcked d entry sent).sent := by
            rw [markAcked_sent]
            exact recordSent_mem
          apply settled.setDrainer
          cases d with
          | startUp | recovery =>
              exact hloop.settleInSdk (by decide) hrest hsent trivial
          | cli => exact hloop.settleInCli hrest hsent
  | idle | draining | clearing | finished =>
      simp only [State.settle, hphase] at hstep
      exact nomatch hstep

theorem Invariant.abort (h : Invariant cfg s) (hstep : s.abort d = some t) :
    Invariant cfg t := by
  unfold State.abort at hstep
  split at hstep
  case h_1 | h_2 | h_4 => exact nomatch hstep
  case h_3 =>
    obtain rfl := Option.some.inj hstep
    exact h.setDrainer trivial
  case h_5 =>
    obtain rfl := Option.some.inj hstep
    exact h.setDrainer (PhaseOk.after _)

theorem Invariant.step {a : Action} (h : Invariant cfg s) (guard : ClearsOwnSnapshot cfg s a)
    (hstep : s.step cfg a = some t) : Invariant cfg t := by
  cases a with
  | appendPayloadSync storedAt payload =>
      simp only [State.step] at hstep
      split at hstep
      case isFalse => exact nomatch hstep
      case isTrue =>
        obtain rfl := Option.some.inj hstep
        have stored := appendPayloadSync_acked cfg.rt cfg.sdk s.file s.store storedAt payload
        cases (appendPayloadSync cfg.rt cfg.sdk s.file s.store storedAt payload).1 with
        | false => exact h.withFile stored
        | true => exact (h.withFile stored).accept ⟨storedAt, rfl⟩
  | appendFailureMarkerSync storedAt code =>
      simp only [State.step] at hstep
      split at hstep
      case isFalse => exact nomatch hstep
      case isTrue =>
        obtain rfl := Option.some.inj hstep
        exact h.withFile (appendEnvelopeSync_acked ..)
  | run d =>
      simp only [State.step] at hstep
      split at hstep
      · exact h.section_ guard hstep
      · exact nomatch hstep
  | settle d sent =>
      simp only [State.step] at hstep
      split at hstep
      · exact h.settle hstep
      · exact nomatch hstep
  | abort d =>
      simp only [State.step] at hstep
      split at hstep
      · exact h.abort hstep
      · exact nomatch hstep

theorem invariant_initial (h : Initial cfg s) : Invariant cfg s := by
  obtain ⟨hidle, hwritten, hstore, hacked, hlost⟩ := h
  refine ⟨hwritten, ?_, ?_, fun d => ?_, hlost⟩
  · rw [hstore]
    exact fun _ hid => absurd hid List.not_mem_nil
  · rw [hacked]
    exact fun _ he => absurd he List.not_mem_nil
  · rw [hidle d]
    trivial

theorem invariant_preserved (cfg : Deployment) :
    (system cfg).Preserved (ClearsOwnSnapshot cfg) (Invariant cfg) where
  init _ := invariant_initial
  step _ _ _ h guard hstep := h.step guard hstep

end Invariant

/-- In a run in which every clearing step cuts, of the lines that appends have
reported as stored, only such as it would also cut out of its own snapshot and
can itself read, a payload leaves the file through a clearing step only after it
was delivered. -/
theorem nothingLost_of_clearsOwnSnapshot (cfg : Deployment) (s₀ s : State) (run : List Action)
    (init : Initial cfg s₀) (guarded : (system cfg).Guarded (ClearsOwnSnapshot cfg) s₀ run)
    (reached : (system cfg).exec s₀ run = some s) : NothingLost s :=
  ((invariant_preserved cfg).exec init guarded reached).nothingLost

/-! ## Two runs -/

/-- HMAC-SHA256 under the key `key` on the two envelopes of the runs below. -/
def exampleSign (input : Text) : Text :=
  if input = (payloadEnvelope exampleRuntime exampleTime ['p']).stringify then
    (["HUTbagxI", "BNtNobf8", "wYyx+FUq", "I1WIv3po", "qaQ+8rqZ", "tcI="] : List Text).flatten
  else if input = (payloadEnvelope exampleRuntime exampleTime ['q']).stringify then
    (["Md9zzCPL", "Caii9yfF", "att6E5hz", "XtvpAu6y", "Jd/iGT9E", "rms="] : List Text).flatten
  else
    []

def exampleStore : DeadLetterStoreOptions where
  verifier :=
    { sign := exampleSign
      verifyKeyIndex := fun input mac => if exampleSign input = mac then some 0 else none }

def exampleDeployment : Deployment where
  rt := exampleRuntime
  sdk := exampleStore
  cli := exampleStore
  maxDrainOnStartup := 100

def emptyState : State where
  file := none
  store := Store.fresh
  drainers := fun _ => .idle
  accepted := []
  acked := []
  sent := []
  lost := []

theorem emptyState_initial : Initial exampleDeployment emptyState :=
  ⟨fun _ => rfl, by simp [emptyState], rfl, rfl, rfl⟩

/-- One payload is stored, found on recovery, delivered and cut. -/
def recoveryRun : List Action :=
  [.appendPayloadSync exampleTime ['p'], .run .recovery, .run .recovery, .settle .recovery true,
    .run .recovery]

theorem recoveryRun_isSome : ((system exampleDeployment).exec emptyState recoveryRun).isSome := by
  decide +kernel

theorem recovery_nothingLost :
    ∃ s, (system exampleDeployment).exec emptyState recoveryRun = some s ∧ s.file = none ∧
      NothingLost s :=
  ⟨_, (Option.some_get recoveryRun_isSome).symm, by decide +kernel,
    nothingLost_of_clearsOwnSnapshot exampleDeployment emptyState _ recoveryRun emptyState_initial
      (by decide +kernel) (Option.some_get recoveryRun_isSome).symm⟩

/-- Both drainers of the SDK read the file with `p` in it. The start-up drainer
delivers `p` and removes its line, `q` is stored, and the recovery drainer, which
has delivered `p` as well, cuts the first line of what is now another file. -/
def overlapRun : List Action :=
  [.appendPayloadSync exampleTime ['p'], .run .startUp, .run .startUp, .run .recovery,
    .run .recovery, .settle .startUp true, .run .startUp, .appendPayloadSync exampleTime ['q'],
    .settle .recovery true, .run .recovery]

theorem overlapRun_lost :
    ((system exampleDeployment).exec emptyState overlapRun).map State.lost = some [['q']] := by
  decide +kernel

theorem overlap_not_nothingLost :
    ¬ ∀ cfg s₀ s run, Initial cfg s₀ → (system cfg).exec s₀ run = some s → NothingLost s := by
  intro claim
  obtain ⟨s, reached, lost⟩ := Option.map_eq_some_iff.mp overlapRun_lost
  have nothing := claim exampleDeployment emptyState s overlapRun emptyState_initial reached
  rw [NothingLost, lost] at nothing
  exact List.cons_ne_nil _ _ nothing

end ErrorCore.DeadLetterStore
