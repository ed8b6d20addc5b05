import ErrorCore.Transport.DeadLetterStore.Agreement

/-!
# Clearing, step by step

`clearSent` moves the file aside, writes the lines that are left into a new one
and unlinks the old one. A step can fail, which the call answers by moving the
old file back if there is no new one, or the process can die in it. The lines
that the call was not to clear are owed by the file from then on.
-/

namespace ErrorCore.DeadLetterStore.ClearSent

/-- The file-system steps. A write that does not succeed has written some characters. -/
inductive FileStep
  | rename
  | read
  | openForAppend
  | write (written : Nat)
  | fsync
  | unlink
  deriving DecidableEq, Repr

/-- What becomes of the attempt to move the file back. -/
inductive Restore
  | done
  | fails
  | dies
  deriving DecidableEq, Repr

inductive Fault
  | throws (restore : Restore)
  | dies
  deriving DecidableEq, Repr

/-- How a call goes. `writeSync` returns how much it has written, which is not looked at. -/
inductive Outcome
  | completes
  | cutShort (written : Nat)
  | stops (step : FileStep) (fault : Fault)
  deriving DecidableEq, Repr

/-- The store's file and the one beside it that a call has moved away. -/
structure Disk where
  file : StoreFile
  clearing : Option Text
  deriving DecidableEq, Repr

/-- The `catch` of `clearSent`. -/
def Disk.restore (disk : Disk) : Restore → Disk
  | .done =>
      match disk.file, disk.clearing with
      | none, some content => { file := some content, clearing := none }
      | _, _ => disk
  | .fails | .dies => disk

/-- The disk and the store after a step that does not succeed; a new process has a new store. -/
def Fault.leaves (fault : Fault) (disk : Disk) (store : Store) : Disk × Store :=
  match fault with
  | .throws .dies | .dies => (disk, Store.fresh)
  | .throws restore => (disk.restore restore, store)

/-- The last steps: the counter is reset and the old file unlinked. -/
def finish (outcome : Outcome) (disk : Disk) (store : Store) : Disk × Store :=
  match outcome with
  | .stops .unlink .dies => (disk, Store.fresh)
  | .stops .unlink (.throws _) => (disk, { store with pendingPayloadCount := none })
  | _ => ({ disk with clearing := none }, { store with pendingPayloadCount := none })

/-- Writing the lines that are left into a new file. -/
def writeBack (outcome : Outcome) (moved : Disk) (remaining : Text) (store : Store) :
    Disk × Store :=
  match outcome with
  | .stops .openForAppend fault => fault.leaves moved store
  | .stops (.write written) fault =>
      fault.leaves { moved with file := some (remaining.take written) } store
  | .stops .fsync fault => fault.leaves { moved with file := some remaining } store
  | .cutShort written => finish outcome { moved with file := some (remaining.take written) } store
  | _ => finish outcome { moved with file := some remaining } store

/-- `clearSent`, step by step. -/
def clearSentSteps (disk : Disk) (store : Store) (sentLineCount : Nat) (outcome : Outcome) :
    Disk × Store :=
  match outcome, disk.file with
  | .stops .rename fault, _ => fault.leaves disk store
  | _, none => (disk, { store with pendingPayloadCount := some 0 })
  | .stops .read fault, some content =>
      fault.leaves { file := none, clearing := some content } store
  | outcome, some content =>
      let moved : Disk := { file := none, clearing := some content }
      let lines := splitLines content
      if sentLineCount < lines.length then
        writeBack outcome moved (joinLines (lines.drop sentLineCount)) store
      else finish outcome moved store

/-- A call that nothing interrupts is the one of the drainers. -/
theorem clearSentSteps_completes (disk : Disk) (store : Store) (sentLineCount : Nat) :
    (clearSentSteps disk store sentLineCount .completes).1.file =
        (clearSent disk.file store sentLineCount).1 ∧
      (clearSentSteps disk store sentLineCount .completes).2 =
        (clearSent disk.file store sentLineCount).2 := by
  obtain ⟨file, clearing⟩ := disk
  cases file with
  | none => exact ⟨rfl, rfl⟩
  | some content =>
      simp only [clearSentSteps, clearSent]
      split
      · exact ⟨rfl, rfl⟩
      · exact ⟨rfl, rfl⟩

/-- The call keeps a line that is left: it is not stopped between moving the file away and writing
the new one, unless the file is moved back, and its write is not cut off before the line ends. -/
def Outcome.Keeps (outcome : Outcome) (left : List Text) (line : Text) : Prop :=
  match outcome with
  | .completes | .stops .rename _ | .stops .fsync _ | .stops .unlink _ => True
  | .stops .read fault | .stops .openForAppend fault => fault = .throws .done
  | .stops (.write written) _ | .cutShort written =>
      line ∈ splitLines ((joinLines left).take written)

instance (outcome : Outcome) (left : List Text) (line : Text) :
    Decidable (outcome.Keeps left line) :=
  match outcome with
  | .completes | .stops .rename _ | .stops .fsync _ | .stops .unlink _ => .isTrue trivial
  | .stops .read fault | .stops .openForAppend fault =>
      inferInstanceAs (Decidable (fault = .throws .done))
  | .stops (.write written) _ | .cutShort written =>
      inferInstanceAs (Decidable (line ∈ splitLines ((joinLines left).take written)))

inductive Action
  | append (entry : Entry)
  | clearSent (sentLineCount : Nat) (outcome : Outcome)
  deriving DecidableEq, Repr

/-- The disk, the store of the process that runs, and the lines that the file owes. -/
structure State where
  disk : Disk
  store : Store
  owed : List Text
  deriving DecidableEq, Repr

namespace State

section Steps

variable (rt : Runtime) (opts : DeadLetterStoreOptions) (s : State)

def lines : List Text := linesOf s.disk.file

/-- A drain lists the payload of the line. -/
def isListed (store : Store) (line : Text) : Bool :=
  match parsePayload rt opts line with
  | none => false
  | some (id, _) => id ∉ store.ackedPayloadIds

/-- The lines beyond the cleared ones that a drain lists. -/
def unsent (sentLineCount : Nat) : List Text :=
  (s.lines.drop sentLineCount).filter (isListed rt opts s.store)

def append (entry : Entry) : State :=
  let applied := entry.apply rt opts s.disk.file s.store
  { s with disk := { s.disk with file := applied.2.1 }, store := applied.2.2 }

def clear (sentLineCount : Nat) (outcome : Outcome) : State :=
  let cleared := clearSentSteps s.disk s.store sentLineCount outcome
  { disk := cleared.1, store := cleared.2, owed := s.unsent rt opts sentLineCount }

def step : Action → Option State
  | .append entry => some (s.append rt opts entry)
  | .clearSent sentLineCount outcome => some (s.clear rt opts sentLineCount outcome)

/-- Nothing is owed before the first call. The files are arbitrary. -/
def system : Transition.System State Action where
  init s := s.owed = []
  step := step rt opts

/-- `drain` lists the line. -/
def Drains (line : Text) : Prop :=
  ∃ e ∈ (drain rt opts s.disk.file s.store true).entries,
    s.lines[e.lineNumber - 1]? = some line

/-- Every line that is owed is drained from the file. -/
def PaysOwed : Prop := ∀ line ∈ s.owed, s.Drains rt opts line

/-- The step leaves what is owed in the file. An append that is written leaves it behind a newline,
unless it writes the same line again. -/
def LeavesOwed : Action → Prop
  | .append entry =>
      entry.writes rt opts s.disk.file s.store = true → ∀ line ∈ s.owed,
        line ∈ closedLines (contentBefore opts s.disk.file) ∨
          Text.openPart '\n' (contentBefore opts s.disk.file) = [] ∧ line = entry.line rt opts
  | .clearSent sentLineCount outcome =>
      ∀ line ∈ s.unsent rt opts sentLineCount, outcome.Keeps (s.lines.drop sentLineCount) line

instance (a : Action) : Decidable (s.LeavesOwed rt opts a) :=
  match a with
  | .append entry =>
      inferInstanceAs (Decidable (entry.writes rt opts s.disk.file s.store = true →
        ∀ line ∈ s.owed, line ∈ closedLines (contentBefore opts s.disk.file) ∨
          Text.openPart '\n' (contentBefore opts s.disk.file) = [] ∧ line = entry.line rt opts))
  | .clearSent sentLineCount outcome =>
      inferInstanceAs (Decidable (∀ line ∈ s.unsent rt opts sentLineCount,
        outcome.Keeps (s.lines.drop sentLineCount) line))

end Steps

end State

section Disks

variable {disk : Disk} {store : Store} {fault : Fault} {outcome : Outcome}
variable {content line : Text} {clearing : Option Text} {sentLineCount : Nat}

/-- With a new file nothing is moved back. -/
theorem leaves_file_of_some :
    (fault.leaves { file := some content, clearing } store).1.file = some content := by
  cases fault with
  | dies => rfl
  | throws restore =>
      cases restore with
      | done => rfl
      | fails => rfl
      | dies => rfl

theorem leaves_file_of_none :
    (fault.leaves { file := none, clearing := some content } store).1.file =
      if fault = .throws .done then some content else none := by
  cases fault with
  | dies => rfl
  | throws restore =>
      cases restore with
      | done => rfl
      | fails => rfl
      | dies => rfl

theorem leaves_acked :
    (fault.leaves disk store).2.ackedPayloadIds ⊆ store.ackedPayloadIds := by
  cases fault with
  | dies => exact List.nil_subset _
  | throws restore =>
      cases restore with
      | done => exact List.Subset.refl _
      | fails => exact List.Subset.refl _
      | dies => exact List.nil_subset _

theorem finish_file : (finish outcome disk store).1.file = disk.file := by
  unfold finish
  split
  · rfl
  · rfl
  · rfl

theorem finish_acked : (finish outcome disk store).2.ackedPayloadIds ⊆ store.ackedPayloadIds := by
  unfold finish
  split
  · exact List.nil_subset _
  · exact List.Subset.refl _
  · exact List.Subset.refl _

theorem writeBack_acked {remaining : Text} :
    (writeBack outcome disk remaining store).2.ackedPayloadIds ⊆ store.ackedPayloadIds := by
  unfold writeBack
  split
  · exact leaves_acked
  · exact leaves_acked
  · exact leaves_acked
  · exact finish_acked
  · exact finish_acked

theorem clearSentSteps_acked :
    (clearSentSteps disk store sentLineCount outcome).2.ackedPayloadIds ⊆
      store.ackedPayloadIds := by
  unfold clearSentSteps
  split
  · exact leaves_acked
  · exact List.Subset.refl _
  · exact leaves_acked
  · simp only
    split
    · exact writeBack_acked
    · exact finish_acked

/-- The lines that are left are read again from the new file. -/
theorem linesOf_remaining (h : line ∈ (splitLines content).drop sentLineCount) :
    linesOf (some (joinLines ((splitLines content).drop sentLineCount))) =
      (splitLines content).drop sentLineCount := by
  apply splitLines_joinLines (List.ne_nil_of_mem h)
  intro left hleft
  have hmem : left ∈ splitLines content := List.mem_of_mem_drop hleft
  exact ⟨ne_nil_of_mem_splitLines hmem, notMem_of_mem_splitLines hmem⟩

theorem lt_length_of_mem_drop {lines : List Text} (h : line ∈ lines.drop sentLineCount) :
    sentLineCount < lines.length := by
  have hpos := List.length_pos_of_mem h
  rw [List.length_drop] at hpos
  omega

/-- Where a line that is left is after the call. -/
theorem mem_clearSentSteps_iff (hfile : disk.file = some content)
    (h : line ∈ (splitLines content).drop sentLineCount) :
    line ∈ linesOf (clearSentSteps disk store sentLineCount outcome).1.file ↔
      outcome.Keeps ((splitLines content).drop sentLineCount) line := by
  obtain ⟨file, clearing⟩ := disk
  obtain rfl : file = some content := hfile
  have hold : line ∈ linesOf (some content) := List.mem_of_mem_drop h
  have hnew : line ∈ linesOf (some (joinLines ((splitLines content).drop sentLineCount))) := by
    rw [linesOf_remaining h]
    exact h
  have hback : ∀ {fault : Fault},
      line ∈ linesOf
          (fault.leaves { file := none, clearing := some content } store).1.file ↔
        fault = .throws .done := by
    intro fault
    rw [leaves_file_of_none]
    by_cases hdone : fault = .throws .done
    · rw [if_pos hdone]
      exact iff_of_true hold hdone
    · rw [if_neg hdone]
      exact iff_of_false List.not_mem_nil hdone
  have hlt := lt_length_of_mem_drop h
  cases outcome with
  | completes =>
      simp only [clearSentSteps, if_pos hlt, writeBack, finish_file]
      exact iff_of_true hnew trivial
  | cutShort written =>
      simp only [clearSentSteps, if_pos hlt, writeBack, finish_file]
      exact Iff.rfl
  | stops step fault =>
      cases step with
      | rename =>
          simp only [clearSentSteps, leaves_file_of_some]
          exact iff_of_true hold trivial
      | read =>
          simp only [clearSentSteps]
          exact hback
      | openForAppend =>
          simp only [clearSentSteps, if_pos hlt, writeBack]
          exact hback
      | write written =>
          simp only [clearSentSteps, if_pos hlt, writeBack, leaves_file_of_some]
          exact Iff.rfl
      | fsync =>
          simp only [clearSentSteps, if_pos hlt, writeBack, leaves_file_of_some]
          exact iff_of_true hnew trivial
      | unlink =>
          simp only [clearSentSteps, if_pos hlt, writeBack, finish_file]
          exact iff_of_true hnew trivial

end Disks

namespace State

variable {rt : Runtime} {opts : DeadLetterStoreOptions} {s t : State} {line : Text}
variable {store store' : Store} {entry : Entry} {sentLineCount : Nat} {outcome : Outcome}

theorem isListed_mono (hsub : store'.ackedPayloadIds ⊆ store.ackedPayloadIds)
    (h : isListed rt opts store line = true) : isListed rt opts store' line = true := by
  unfold isListed at h ⊢
  split at h
  · contradiction
  · exact decide_eq_true fun hacked => of_decide_eq_true h (hsub hacked)

/-- A drain lists the lines of the file that its store reads and has not acknowledged. -/
theorem drains_iff :
    s.Drains rt opts line ↔ line ∈ s.lines ∧ isListed rt opts s.store line = true := by
  unfold Drains isListed
  rw [Session.drain_large]
  dsimp only
  constructor
  · rintro ⟨e, he, hindex⟩
    obtain ⟨i, other, hother, hnumber, hread, hnew⟩ := exists_line_of_mem_drainEntries e he
    have hi : e.lineNumber - 1 = i := by omega
    obtain rfl : other = line := by
      rw [hi] at hindex
      exact Option.some.inj (hother.symm.trans hindex)
    rw [hread]
    exact ⟨List.mem_of_getElem? hother, decide_eq_true hnew⟩
  · rintro ⟨hline, hlisted⟩
    split at hlisted
    · contradiction
    · next id payload hread =>
      obtain ⟨i, hi⟩ := List.mem_iff_getElem?.mp hline
      rcases mem_drainEntries s.store 1 hi hread with hacked | hmem
      · exact absurd hacked (of_decide_eq_true hlisted)
      · refine ⟨_, hmem, ?_⟩
        rw [Nat.add_sub_cancel_left]
        exact hi

theorem mem_unsent_iff :
    line ∈ s.unsent rt opts sentLineCount ↔
      line ∈ s.lines.drop sentLineCount ∧ isListed rt opts s.store line = true :=
  List.mem_filter

/-- What a call of `clearSent` owes is paid exactly when its outcome keeps it. -/
theorem paysOwed_clear_iff :
    (s.clear rt opts sentLineCount outcome).PaysOwed rt opts ↔
      s.LeavesOwed rt opts (.clearSent sentLineCount outcome) := by
  refine forall₂_congr fun line hline => ?_
  obtain ⟨hleft, hlisted⟩ := mem_unsent_iff.mp hline
  have hstill : isListed rt opts (s.clear rt opts sentLineCount outcome).store line = true :=
    isListed_mono clearSentSteps_acked hlisted
  rw [drains_iff, and_iff_left hstill]
  cases hfile : s.disk.file with
  | none =>
      rw [lines, hfile] at hleft
      exact absurd hleft (by simp [linesOf])
  | some content =>
      have hlines : s.lines = splitLines content := by rw [lines, hfile, linesOf]
      rw [hlines] at hleft ⊢
      exact mem_clearSentSteps_iff hfile hleft

/-- A line of the file is the line of a new entry that continues the file only where there is
nothing to continue. -/
theorem openPart_eq_nil (hline : Text.openPart '\n' (contentBefore opts s.disk.file) ++
      entry.line rt opts ∈ s.lines)
    (hopened : Text.openPart '\n' (contentBefore opts s.disk.file) ++ entry.line rt opts ∉
      closedLines (contentBefore opts s.disk.file)) :
    Text.openPart '\n' (contentBefore opts s.disk.file) = [] := by
  cases hrotates : rotates opts s.disk.file with
  | true =>
      rw [contentBefore, hrotates, if_pos rfl]
      rfl
  | false =>
      have hbefore : contentBefore opts s.disk.file = s.disk.file.getD [] := by
        rw [contentBefore, hrotates, if_neg Bool.false_ne_true]
      rw [hbefore] at hline hopened ⊢
      cases hfile : s.disk.file with
      | none => rfl
      | some content =>
          rw [lines, hfile, linesOf, Option.getD_some, splitLines_eq, List.mem_append] at hline
          rw [hfile, Option.getD_some] at hopened
          have hlast := List.mem_singleton.mp (List.mem_filter.mp (hline.resolve_left hopened)).1
          exact absurd (List.append_right_eq_self.mp hlast) Entry.line_ne_nil

/-- The lines of the file behind a new entry. -/
theorem mem_lines_append_iff (hline : line ∈ s.lines) :
    line ∈ linesOf (some (contentBefore opts s.disk.file ++ (entry.line rt opts ++ ['\n']))) ↔
      line ∈ closedLines (contentBefore opts s.disk.file) ∨
        Text.openPart '\n' (contentBefore opts s.disk.file) = [] ∧ line = entry.line rt opts := by
  rw [linesOf, splitLines_append Entry.line_ne_nil Entry.newline_not_mem_line, List.mem_append,
    List.mem_singleton]
  refine or_congr_right' fun hopened => ?_
  constructor
  · rintro rfl
    have hopen := openPart_eq_nil hline hopened
    rw [hopen]
    exact ⟨rfl, List.nil_append _⟩
  · rintro ⟨hopen, rfl⟩
    rw [hopen, List.nil_append]

/-- An append pays what is owed exactly when it leaves it in the file. -/
theorem paysOwed_append_iff (h : s.PaysOwed rt opts) :
    (s.append rt opts entry).PaysOwed rt opts ↔ s.LeavesOwed rt opts (.append entry) := by
  have hkept : ∀ {store' : Store}, store'.ackedPayloadIds = s.store.ackedPayloadIds →
      ∀ line ∈ s.owed, isListed rt opts store' line = true := by
    intro store' hsame line hline
    refine isListed_mono ?_ (drains_iff.mp (h line hline)).2
    rw [hsame]
    exact List.Subset.refl _
  cases hwrites : entry.writes rt opts s.disk.file s.store with
  | true =>
      obtain ⟨store', happly, hsame⟩ := Entry.apply_of_writes hwrites
      have hleaves : s.LeavesOwed rt opts (.append entry) ↔ ∀ line ∈ s.owed,
          line ∈ closedLines (contentBefore opts s.disk.file) ∨
            Text.openPart '\n' (contentBefore opts s.disk.file) = [] ∧
              line = entry.line rt opts := by
        rw [LeavesOwed]
        exact forall_prop_of_true hwrites
      rw [hleaves]
      refine forall₂_congr fun line hline => ?_
      rw [drains_iff, append, happly, and_iff_left (hkept hsame line hline)]
      exact mem_lines_append_iff (drains_iff.mp (h line hline)).1
  | false =>
      obtain ⟨store', happly, hsame⟩ := Entry.apply_of_not_writes hwrites
      refine iff_of_true ?_ ?_
      · intro line hline
        rw [drains_iff, append, happly]
        exact ⟨(drains_iff.mp (h line hline)).1, hkept hsame line hline⟩
      · intro hwritten
        rw [hwrites] at hwritten
        contradiction

theorem paysOwed_step_iff {a : Action} (h : s.PaysOwed rt opts)
    (hstep : s.step rt opts a = some t) : t.PaysOwed rt opts ↔ s.LeavesOwed rt opts a := by
  cases a with
  | append entry =>
      obtain rfl := Option.some.inj hstep
      exact paysOwed_append_iff h
  | clearSent sentLineCount outcome =>
      obtain rfl := Option.some.inj hstep
      exact paysOwed_clear_iff

theorem paysOwed_preserved :
    (system rt opts).Preserved (LeavesOwed rt opts) (PaysOwed rt opts) where
  init s hs := by
    have howed : s.owed = [] := hs
    intro line hline
    rw [howed] at hline
    contradiction
  step _ _ _ h hleaves hstep := (paysOwed_step_iff h hstep).mpr hleaves

/-- Throughout a run of appends and clearings, interrupted anywhere, a drain lists every line that
no clearing was to remove exactly when each step leaves what is owed. -/
theorem always_paysOwed_iff (rt : Runtime) (opts : DeadLetterStoreOptions) (s₀ : State)
    (run : List Action) (init : (system rt opts).init s₀) :
    (system rt opts).Always (PaysOwed rt opts) s₀ run ↔
      (system rt opts).Guarded (LeavesOwed rt opts) s₀ run := by
  apply Transition.System.always_iff_guarded paysOwed_preserved
  · exact fun _ h => h
  · exact fun s a t h hstep hpays => (paysOwed_step_iff h hstep).mp hpays
  · exact paysOwed_preserved.init s₀ init

/-- A new store, without a file. -/
def opened : State where
  disk := { file := none, clearing := none }
  store := Store.fresh
  owed := []

def payloadEntry (payload : Text) : Entry := .ofPayload exampleTime payload

/-- The first of two lines is cleared at the second attempt; at the first the file cannot be read
and is moved back. -/
def movedBackRun : List Action :=
  [.append (payloadEntry "p"), .append (payloadEntry "q"),
    .clearSent 1 (.stops .read (.throws .done)), .clearSent 1 .completes,
    .append (.ofMarker exampleTime "EC_CAPTURE_FAILED")]

theorem movedBackRun_paysOwed :
    (system exampleRuntime (Session.chainStore false)).Always
      (PaysOwed exampleRuntime (Session.chainStore false)) opened movedBackRun :=
  (always_paysOwed_iff exampleRuntime (Session.chainStore false) opened movedBackRun rfl).mpr
    (by decide +kernel)

/-- The first of two lines is to be cleared, and the disk is full when the second one is to be
written back. -/
def diskFullRun : List Action :=
  [.append (payloadEntry "p"), .append (payloadEntry "q"),
    .clearSent 1 (.stops (.write 0) (.throws .done))]

/-- What happens to the store afterwards. -/
def nextRun : List Action := [.append (payloadEntry "p"), .clearSent 1 .completes]

def lineOf (payload : Text) : Text :=
  (payloadEntry payload).line exampleRuntime (Session.chainStore false)

/-- The second line is not drained after the call, and after the next one no file holds it. -/
theorem diskFullRun_not_paid :
    ∃ s t, (system exampleRuntime (Session.chainStore false)).exec opened diskFullRun = some s ∧
      (system exampleRuntime (Session.chainStore false)).exec s nextRun = some t ∧
      lineOf "q" ∈ s.owed ∧ ¬ s.Drains exampleRuntime (Session.chainStore false) (lineOf "q") ∧
      lineOf "q" ∉ linesOf t.disk.file ∧ t.disk.clearing = none := by
  have hfirst : ((system exampleRuntime (Session.chainStore false)).exec opened diskFullRun).map
      (fun s => (decide (lineOf "q" ∈ s.owed), decide (lineOf "q" ∈ s.lines))) =
        some (true, false) := by
    decide +kernel
  have hrest : ((system exampleRuntime (Session.chainStore false)).exec opened
      (diskFullRun ++ nextRun)).map
      (fun t => (decide (lineOf "q" ∈ linesOf t.disk.file), t.disk.clearing)) =
        some (false, none) := by
    decide +kernel
  obtain ⟨s, hs, hsecond⟩ := Option.map_eq_some_iff.mp hfirst
  obtain ⟨howed, hgone⟩ := Prod.mk.inj hsecond
  obtain ⟨t, ht, hlost⟩ := Option.map_eq_some_iff.mp hrest
  obtain ⟨hfile, hclearing⟩ := Prod.mk.inj hlost
  rw [Transition.System.exec_append hs] at ht
  refine ⟨s, t, hs, ht, of_decide_eq_true howed, ?_, of_decide_eq_false hfile, hclearing⟩
  intro hdrains
  exact of_decide_eq_false hgone (drains_iff.mp hdrains).1

end State

end ErrorCore.DeadLetterStore.ClearSent
