import ErrorCore.Capture.PackageBuilder.Shedding
import Mathlib.Tactic.NormNum

/-!
# What the hard cap leaves

`enforceHardCap` goes through its fields in a fixed order, so that the names it
reports can be read off the packages before and after. A later field is not
touched by an earlier drop, except that the bodies are those of the events
which are left.
-/

namespace ErrorCore

namespace PackageBuilder

/-! ## What a package has lost -/

namespace Drop

/-- The earlier package had something of a field, and the later one has nothing of it. Of bodies
this is asked for the events that are left. -/
def gone (before after : ErrorPackage) : Drop → Bool
  | olderEvents => after.ioTimeline.length < before.ioTimeline.length
  | bodies =>
      (before.ioTimeline.drop (before.ioTimeline.length - after.ioTimeline.length)).any
        IOEvent.hasBody && !after.ioTimeline.any IOEvent.hasBody
  | stateReads => 0 < before.stateReads.length && after.stateReads.isEmpty
  | concurrentRequests => 0 < before.concurrentRequests.length && after.concurrentRequests.isEmpty
  | ambientContext => before.ambientContext.isSome && after.ambientContext.isNone
  | evictionLog => 0 < before.evictionLog.length && after.evictionLog.isEmpty
  | stateWrites => 0 < before.stateWrites.length && after.stateWrites.isEmpty
  | localVariables => before.localVariables.isSome && after.localVariables.isNone

def lost (before after : ErrorPackage) (drop : Drop) : Option Text :=
  if drop.gone before after then some (drop.label before) else none

/-- A field is what it was; of bodies this is said for the events that are left. -/
def Same (before after : ErrorPackage) : Drop → Prop
  | olderEvents => after.ioTimeline.length = before.ioTimeline.length
  | bodies =>
      after.ioTimeline =
        before.ioTimeline.drop (before.ioTimeline.length - after.ioTimeline.length)
  | stateReads => after.stateReads = before.stateReads
  | concurrentRequests => after.concurrentRequests = before.concurrentRequests
  | ambientContext => after.ambientContext = before.ambientContext
  | evictionLog => after.evictionLog = before.evictionLog
  | stateWrites => after.stateWrites = before.stateWrites
  | localVariables => after.localVariables = before.localVariables

/-- The bodies come after the older events, whose number they do not change. -/
structure Precedes (earlier later : Drop) : Prop where
  ne : earlier ≠ later
  order : ¬(earlier = .bodies ∧ later = .olderEvents)

instance (earlier later : Drop) : Decidable (Precedes earlier later) :=
  decidable_of_iff (earlier ≠ later ∧ ¬(earlier = .bodies ∧ later = .olderEvents))
    ⟨fun h => ⟨h.1, h.2⟩, fun h => ⟨h.ne, h.order⟩⟩

variable {before pkg : ErrorPackage} {drop earlier later : Drop}

theorem same_refl (pkg : ErrorPackage) (drop : Drop) : drop.Same pkg pkg := by
  cases drop with
  | bodies => simp only [Same, Nat.sub_self, List.drop_zero]
  | _ => rfl

theorem gone_of_same (h : drop.Same before pkg) : drop.gone before pkg = false := by
  cases drop with
  | olderEvents => simp only [gone, show _ = _ from h, lt_self_iff_false, decide_false]
  | bodies => simp only [gone, ← show _ = _ from h, Bool.and_not_self]
  | ambientContext =>
      simp only [gone, show _ = _ from h]
      cases before.ambientContext <;> rfl
  | localVariables =>
      simp only [gone, show _ = _ from h]
      cases before.localVariables <;> rfl
  | stateReads =>
      simp only [gone, show _ = _ from h]
      cases before.stateReads <;> rfl
  | concurrentRequests =>
      simp only [gone, show _ = _ from h]
      cases before.concurrentRequests <;> rfl
  | evictionLog =>
      simp only [gone, show _ = _ from h]
      cases before.evictionLog <;> rfl
  | stateWrites =>
      simp only [gone, show _ = _ from h]
      cases before.stateWrites <;> rfl

theorem label_of_same (h : drop.Same before pkg) : drop.label before = drop.label pkg := by
  cases drop with
  | localVariables =>
      unfold label
      rw [show pkg.localVariables = before.localVariables from h]
  | _ => rfl

theorem hasBody_strip (event : IOEvent) : event.strip.hasBody = false := rfl

theorem any_hasBody_map_strip (events : List IOEvent) :
    (events.map IOEvent.strip).any IOEvent.hasBody = false := by
  rw [List.any_map]
  exact List.any_eq_false.mpr fun event _ => Bool.not_eq_true _ |>.mpr (hasBody_strip event)

/-- Where there is something to drop, dropping it leaves nothing of it. -/
theorem gone_reduce (h : drop.Same before pkg) (hpresent : drop.present pkg = true) :
    drop.gone before (drop.reduce pkg) = true := by
  cases drop with
  | olderEvents =>
      have hlength : pkg.ioTimeline.length = before.ioTimeline.length := h
      have hmany : 50 < pkg.ioTimeline.length := of_decide_eq_true hpresent
      simp only [gone, reduce, List.length_drop, decide_eq_true_eq]
      omega
  | bodies =>
      have hevents : pkg.ioTimeline = before.ioTimeline.drop _ := h
      have hany : pkg.ioTimeline.any IOEvent.hasBody = true := hpresent
      simp only [gone, reduce, List.length_map, ← hevents, hany, any_hasBody_map_strip]
      rfl
  | ambientContext =>
      have hfield : pkg.ambientContext = before.ambientContext := h
      have hsome : pkg.ambientContext.isSome = true := hpresent
      simp only [gone, reduce, ← hfield, hsome]
      rfl
  | localVariables =>
      have hfield : pkg.localVariables = before.localVariables := h
      have hsome : pkg.localVariables.isSome = true := hpresent
      simp only [gone, reduce, ← hfield, hsome]
      rfl
  | stateReads =>
      have hfield : pkg.stateReads = before.stateReads := h
      have hsome : decide (0 < pkg.stateReads.length) = true := hpresent
      simp only [gone, reduce, ← hfield, hsome]
      rfl
  | concurrentRequests =>
      have hfield : pkg.concurrentRequests = before.concurrentRequests := h
      have hsome : decide (0 < pkg.concurrentRequests.length) = true := hpresent
      simp only [gone, reduce, ← hfield, hsome]
      rfl
  | evictionLog =>
      have hfield : pkg.evictionLog = before.evictionLog := h
      have hsome : decide (0 < pkg.evictionLog.length) = true := hpresent
      simp only [gone, reduce, ← hfield, hsome]
      rfl
  | stateWrites =>
      have hfield : pkg.stateWrites = before.stateWrites := h
      have hsome : decide (0 < pkg.stateWrites.length) = true := hpresent
      simp only [gone, reduce, ← hfield, hsome]
      rfl

theorem present_reduce (pkg : ErrorPackage) (drop : Drop) :
    drop.present (drop.reduce pkg) = false := by
  cases drop with
  | olderEvents =>
      simp only [present, reduce, List.length_drop, decide_eq_false_iff_not]
      omega
  | bodies => exact any_hasBody_map_strip pkg.ioTimeline
  | _ => rfl

theorem present_reduce_of_precedes (h : Precedes earlier later) :
    earlier.present (later.reduce pkg) = earlier.present pkg := by
  cases later with
  | olderEvents =>
      cases earlier with
      | olderEvents => exact absurd rfl h.ne
      | bodies => exact absurd ⟨rfl, rfl⟩ h.order
      | _ => rfl
  | bodies =>
      cases earlier with
      | olderEvents => simp only [present, reduce, List.length_map]
      | bodies => exact absurd rfl h.ne
      | _ => rfl
  | _ =>
      cases earlier with
      | _ => first | rfl | exact absurd rfl h.ne

theorem gone_reduce_of_precedes (h : Precedes earlier later) :
    earlier.gone before (later.reduce pkg) = earlier.gone before pkg := by
  cases later with
  | olderEvents =>
      cases earlier with
      | olderEvents => exact absurd rfl h.ne
      | bodies => exact absurd ⟨rfl, rfl⟩ h.order
      | _ => rfl
  | bodies =>
      cases earlier with
      | olderEvents => simp only [gone, reduce, List.length_map]
      | bodies => exact absurd rfl h.ne
      | _ => rfl
  | _ =>
      cases earlier with
      | _ => first | rfl | exact absurd rfl h.ne

theorem same_reduce_of_precedes (h : Precedes earlier later) (hlater : later.Same before pkg)
    (hearlier : earlier.Same before pkg) : later.Same before (earlier.reduce pkg) := by
  cases earlier with
  | olderEvents =>
      cases later with
      | olderEvents => exact absurd rfl h.ne
      | bodies =>
          have hlength : pkg.ioTimeline.length = before.ioTimeline.length := hearlier
          have hevents : pkg.ioTimeline = before.ioTimeline := by
            have heq : pkg.ioTimeline = before.ioTimeline.drop _ := hlater
            rwa [hlength, Nat.sub_self, List.drop_zero] at heq
          simp only [Same, reduce, hevents, List.length_drop]
          congr 1
          omega
      | _ => exact hlater
  | bodies =>
      cases later with
      | olderEvents => exact absurd ⟨rfl, rfl⟩ h.order
      | bodies => exact absurd rfl h.ne
      | _ => exact hlater
  | _ =>
      cases later with
      | _ => first | exact hlater | exact absurd rfl h.ne

/-- A later drop leaves what an earlier one would have dropped. -/
theorem same_later_reduce (h : Precedes earlier later) (hearlier : earlier.Same before pkg) :
    earlier.Same before (later.reduce pkg) := by
  cases later with
  | olderEvents =>
      cases earlier with
      | olderEvents => exact absurd rfl h.ne
      | bodies => exact absurd ⟨rfl, rfl⟩ h.order
      | _ => exact hearlier
  | bodies =>
      cases earlier with
      | olderEvents => exact (List.length_map IOEvent.strip).trans hearlier
      | bodies => exact absurd rfl h.ne
      | _ => exact hearlier
  | _ =>
      cases earlier with
      | _ => first | exact hearlier | exact absurd rfl h.ne

theorem gone_markTruncated {config : BuilderConfig} {parts : ErrorPackageParts}
    {frameAlignment : Option Text} {dropped : List Text} :
    drop.gone before (markTruncated config parts frameAlignment pkg dropped) =
      drop.gone before pkg := by
  cases drop <;> rfl

theorem present_markTruncated {config : BuilderConfig} {parts : ErrorPackageParts}
    {frameAlignment : Option Text} {dropped : List Text} :
    drop.present (markTruncated config parts frameAlignment pkg dropped) = drop.present pkg := by
  cases drop <;> rfl

theorem same_markTruncated {config : BuilderConfig} {parts : ErrorPackageParts}
    {frameAlignment : Option Text} {dropped : List Text} (h : drop.Same before pkg) :
    drop.Same before (markTruncated config parts frameAlignment pkg dropped) := by
  cases drop with
  | _ => exact h

theorem lost_of_same (h : drop.Same before pkg) : drop.lost before pkg = none := by
  rw [lost, gone_of_same h]
  rfl

theorem lost_eq_of_gone {after : ErrorPackage} (h : drop.gone before after = drop.gone before pkg) :
    drop.lost before after = drop.lost before pkg := by
  rw [lost, lost, h]

/-- What every drop leaves as it is. -/
structure Framed (before after : ErrorPackage) : Prop where
  request : after.request = before.request
  others : after.others = before.others
  encrypted : after.completeness.encrypted = before.completeness.encrypted

theorem framed_reduce (pkg : ErrorPackage) (drop : Drop) : Framed pkg (drop.reduce pkg) := by
  cases drop with
  | _ => exact ⟨rfl, rfl, rfl⟩

end Drop

/-! ## The run -/

theorem mem_drops (drop : Drop) : drop ∈ drops := by
  cases drop <;> decide

theorem drops_order : drops.Pairwise Drop.Precedes := by decide

section Run

variable {config : BuilderConfig} {parts : ErrorPackageParts} {frameAlignment : Option Text}
variable {before pkg after : ErrorPackage} {drop : Drop} {done rest : List Drop}
variable {dropped : List Text}

/-- The receiver is told of every drop, or there was none. -/
def Reported (config : BuilderConfig) (parts : ErrorPackageParts) (frameAlignment : Option Text)
    (before after : ErrorPackage) (dropped : List Text) : Prop :=
  dropped = [] ∧ after = before ∨
    dropped ≠ [] ∧ after.truncated = some ⟨"hard_cap_1mb", dropped⟩ ∧
      IsComplete config parts frameAlignment after

/-- Some fields were gone through and the rest were not touched. -/
structure Progress (config : BuilderConfig) (parts : ErrorPackageParts)
    (frameAlignment : Option Text) (before pkg : ErrorPackage) (done rest : List Drop)
    (dropped : List Text) : Prop where
  names : dropped = done.filterMap (Drop.lost before pkg)
  absent : ∀ drop ∈ done, drop.present pkg = false
  kept : ∀ drop ∈ done, drop.gone before pkg = false → drop.Same before pkg
  same : ∀ drop ∈ rest, drop.Same before pkg
  framed : Drop.Framed before pkg
  reported : Reported config parts frameAlignment before pkg dropped

theorem Progress.initial (config : BuilderConfig) (parts : ErrorPackageParts)
    (frameAlignment : Option Text) (pkg : ErrorPackage) (rest : List Drop) :
    Progress config parts frameAlignment pkg pkg [] rest [] where
  names := rfl
  absent := fun _ h => absurd h List.not_mem_nil
  kept := fun _ h => absurd h List.not_mem_nil
  same := fun drop _ => Drop.same_refl pkg drop
  framed := ⟨rfl, rfl, rfl⟩
  reported := .inl ⟨rfl, rfl⟩

theorem Progress.skip
    (h : Progress config parts frameAlignment before pkg done (drop :: rest) dropped)
    (hpresent : drop.present pkg = false) :
    Progress config parts frameAlignment before pkg (done ++ [drop]) rest dropped where
  names := by
    rw [List.filterMap_append, ← h.names, List.filterMap_cons_none
      (Drop.lost_of_same (h.same drop List.mem_cons_self)), List.filterMap_nil, List.append_nil]
  absent := by
    intro other hmem
    rcases List.mem_append.mp hmem with hmem | hmem
    · exact h.absent other hmem
    · rwa [List.mem_singleton.mp hmem]
  kept := by
    intro other hmem hgone
    rcases List.mem_append.mp hmem with hmem | hmem
    · exact h.kept other hmem hgone
    · rw [List.mem_singleton.mp hmem]
      exact h.same drop List.mem_cons_self
  same := fun other hmem => h.same other (List.mem_cons_of_mem drop hmem)
  framed := h.framed
  reported := h.reported

theorem Progress.dropOne
    (h : Progress config parts frameAlignment before pkg done (drop :: rest) dropped)
    (order : (done ++ drop :: rest).Pairwise Drop.Precedes) (hpresent : drop.present pkg = true) :
    Progress config parts frameAlignment before
      (markTruncated config parts frameAlignment (drop.reduce pkg) (dropped ++ [drop.label pkg]))
      (done ++ [drop]) rest (dropped ++ [drop.label pkg]) := by
  obtain ⟨-, hrest, hdone⟩ := List.pairwise_append.mp order
  have hsame := h.same drop List.mem_cons_self
  have hearlier : ∀ other ∈ done, other.Precedes drop := fun other hmem =>
    hdone other hmem drop List.mem_cons_self
  have hgone := Drop.gone_reduce hsame hpresent
  refine ⟨?_, ?_, ?_, ?_, ?_, .inr ⟨?_, rfl, rfl⟩⟩
  · rw [List.filterMap_append]
    congr 1
    · rw [h.names]
      refine List.filterMap_congr fun other hmem => ?_
      exact (Drop.lost_eq_of_gone (Drop.gone_markTruncated.trans
        (Drop.gone_reduce_of_precedes (hearlier other hmem)))).symm
    · have hlost : drop.lost before (markTruncated config parts frameAlignment (drop.reduce pkg)
          (dropped ++ [drop.label pkg])) = some (drop.label pkg) := by
        rw [Drop.lost, Drop.gone_markTruncated, hgone, if_pos rfl, Drop.label_of_same hsame]
      rw [List.filterMap_cons_some hlost, List.filterMap_nil]
  · intro other hmem
    rw [Drop.present_markTruncated]
    rcases List.mem_append.mp hmem with hmem | hmem
    · rw [Drop.present_reduce_of_precedes (hearlier other hmem)]
      exact h.absent other hmem
    · rw [List.mem_singleton.mp hmem]
      exact Drop.present_reduce pkg drop
  · intro other hmem hkept
    rw [Drop.gone_markTruncated] at hkept
    rcases List.mem_append.mp hmem with hmem | hmem
    · rw [Drop.gone_reduce_of_precedes (hearlier other hmem)] at hkept
      exact Drop.same_markTruncated
        (Drop.same_later_reduce (hearlier other hmem) (h.kept other hmem hkept))
    · rw [List.mem_singleton.mp hmem, hgone] at hkept
      cases hkept
  · intro other hmem
    exact Drop.same_markTruncated (Drop.same_reduce_of_precedes
      ((List.pairwise_cons.mp hrest).1 other hmem)
      (h.same other (List.mem_cons_of_mem drop hmem)) hsame)
  · obtain ⟨hrequest, hothers, hencrypted⟩ := Drop.framed_reduce pkg drop
    exact ⟨hrequest.trans h.framed.request, hothers.trans h.framed.others,
      hencrypted.trans h.framed.encrypted⟩
  · exact List.append_ne_nil_of_right_ne_nil _ (List.cons_ne_nil _ _)

/-- The run stops at a package that fits, or when nothing is left to drop. -/
theorem dropUntilFits_spec
    (h : Progress config parts frameAlignment before pkg done rest dropped)
    (order : (done ++ rest).Pairwise Drop.Precedes) :
    ∃ done' rest' dropped',
      Progress config parts frameAlignment before
          (dropUntilFits config parts frameAlignment rest dropped pkg) done' rest' dropped' ∧
        done' ++ rest' = done ++ rest ∧
        (rest' = [] ∨
          estimateSize (dropUntilFits config parts frameAlignment rest dropped pkg) ≤
            config.hardCapBytes) := by
  induction rest generalizing done dropped pkg with
  | nil => exact ⟨done, [], dropped, h, rfl, .inl rfl⟩
  | cons drop rest ih =>
      have hsplit : done ++ drop :: rest = (done ++ [drop]) ++ rest := by
        rw [List.append_assoc, List.singleton_append]
      rw [dropUntilFits]
      split
      · next hpresent =>
          have hprogress := h.dropOne order hpresent
          dsimp only
          split
          · next hfits => exact ⟨done ++ [drop], rest, _, hprogress, hsplit.symm, .inr hfits⟩
          · rw [hsplit] at order ⊢
            exact ih hprogress order
      · next habsent =>
          rw [hsplit] at order ⊢
          exact ih (h.skip (Bool.not_eq_true _ |>.mp habsent)) order

/-- What `enforceHardCap` leaves. -/
structure Capped (config : BuilderConfig) (parts : ErrorPackageParts)
    (frameAlignment : Option Text) (before after : ErrorPackage) : Prop where
  bounded : estimateSize after ≤ config.hardCapBytes ∨ ∀ drop ∈ drops, drop.present after = false
  kept : ∀ drop : Drop, drop.gone before after = false → drop.Same before after
  framed : Drop.Framed before after
  reported : Reported config parts frameAlignment before after
    (drops.filterMap (Drop.lost before after))

theorem enforceHardCap_spec (config : BuilderConfig) (parts : ErrorPackageParts)
    (frameAlignment : Option Text) (pkg : ErrorPackage) :
    Capped config parts frameAlignment pkg
      (enforceHardCap config parts frameAlignment pkg) := by
  unfold enforceHardCap
  split
  · next hfits =>
      have hnone : drops.filterMap (Drop.lost pkg pkg) = [] :=
        List.filterMap_eq_nil_iff.mpr fun drop _ => Drop.lost_of_same (Drop.same_refl pkg drop)
      exact ⟨.inl hfits, fun drop _ => Drop.same_refl pkg drop, ⟨rfl, rfl, rfl⟩,
        .inl ⟨hnone, rfl⟩⟩
  · obtain ⟨done, rest, dropped, hprogress, hsplit, hstop⟩ := dropUntilFits_spec
      (Progress.initial config parts frameAlignment pkg drops) drops_order
    rw [List.nil_append] at hsplit
    generalize hafter : dropUntilFits config parts frameAlignment drops [] pkg = after at *
    have hnames : drops.filterMap (Drop.lost pkg after) = dropped := by
      have hrest : rest.filterMap (Drop.lost pkg after) = [] :=
        List.filterMap_eq_nil_iff.mpr fun drop hmem => Drop.lost_of_same (hprogress.same drop hmem)
      rw [← hsplit, List.filterMap_append, hrest, List.append_nil, ← hprogress.names]
    refine ⟨?_, ?_, hprogress.framed, hnames ▸ hprogress.reported⟩
    · rcases hstop with rfl | hfits
      · rw [List.append_nil] at hsplit
        exact .inr fun drop hmem => hprogress.absent drop (hsplit ▸ hmem)
      · exact .inl hfits
    · intro drop hgone
      have hmem : drop ∈ done ++ rest := hsplit ▸ mem_drops drop
      rcases List.mem_append.mp hmem with hmem | hmem
      · exact hprogress.kept drop hmem hgone
      · exact hprogress.same drop hmem

theorem Capped.isComplete (h : Capped config parts frameAlignment before after)
    (hbefore : IsComplete config parts frameAlignment before) :
    IsComplete config parts frameAlignment after := by
  rcases h.reported with ⟨-, rfl⟩ | ⟨-, -, hafter⟩
  · exact hbefore
  · exact hafter

/-- A package with nothing left to drop. -/
structure Emptied (pkg : ErrorPackage) : Prop where
  events : pkg.ioTimeline.length ≤ 50
  bodies : ∀ event ∈ pkg.ioTimeline, event.requestBody = .null ∧ event.responseBody = .null
  stateReads : pkg.stateReads = []
  concurrentRequests : pkg.concurrentRequests = []
  ambientContext : pkg.ambientContext = none
  evictionLog : pkg.evictionLog = []
  stateWrites : pkg.stateWrites = []
  localVariables : pkg.localVariables = none

theorem eq_null_of_isNull {body : Body} (h : body.isNull = true) : body = .null := by
  cases body with
  | null => rfl
  | _ => cases h

theorem emptied_of_absent (h : ∀ drop ∈ drops, drop.present pkg = false) : Emptied pkg := by
  have hlist : ∀ {α : Type} {values : List α}, decide (0 < values.length) = false → values = [] :=
    fun hempty => List.length_eq_zero_iff.mp (Nat.eq_zero_of_not_pos (of_decide_eq_false hempty))
  refine ⟨Nat.not_lt.mp (of_decide_eq_false (h .olderEvents (mem_drops _))), ?_,
    hlist (h .stateReads (mem_drops _)), hlist (h .concurrentRequests (mem_drops _)),
    Option.not_isSome_iff_eq_none.mp (Bool.eq_false_iff.mp (h .ambientContext (mem_drops _))),
    hlist (h .evictionLog (mem_drops _)), hlist (h .stateWrites (mem_drops _)),
    Option.not_isSome_iff_eq_none.mp (Bool.eq_false_iff.mp (h .localVariables (mem_drops _)))⟩
  intro event hmem
  have hnone := List.any_eq_false.mp (h .bodies (mem_drops _)) event hmem
  rw [IOEvent.hasBody, Bool.or_eq_true, not_or, Bool.not_eq_true', Bool.not_eq_false,
    Bool.not_eq_true', Bool.not_eq_false] at hnone
  exact ⟨eq_null_of_isNull hnone.1, eq_null_of_isNull hnone.2⟩

end Run

/-! ## A package that stays too large -/

/-- An object of four keys, so that its estimate is 128. -/
def fourKeys : Body :=
  .keyed 4 (.object [("a", number 1), ("b", number 2), ("c", number 3), ("d", number 4)])

def fourKeysEvent : IOEvent := ⟨fourKeys, .null, false, false, []⟩

def twoBodies : ErrorPackage where
  request := none
  ioTimeline := [fourKeysEvent, fourKeysEvent]
  evictionLog := []
  ambientContext := none
  stateReads := []
  stateWrites := []
  concurrentRequests := []
  localVariables := none
  truncated := none
  completeness :=
    { modeAtCapture := "safe", requestCaptured := false, requestBodyTruncated := false,
      ioTimelineCaptured := true, usedAmbientEvents := false, ioEventsDropped := 0,
      ioPayloadsTruncated := 0, alsContextAvailable := true, localVariablesCaptured := false,
      localVariablesTruncated := false, stateTrackingEnabled := false, stateReadsCaptured := false,
      stateWritesDropped := none, concurrentRequestsCaptured := false, piiScrubbed := true,
      encrypted := false, captureFailures := [], rateLimiterDrops := none,
      localVariablesCaptureLayer := none, localVariablesDegradation := none,
      localVariablesFrameAlignment := none, localVariablesUnavailableReason := none,
      localVariablesCacheOperation := "unavailable", localVariablesCacheCapacity := 50,
      sourceMapResolution := none }
  others := []

def smallLimit : BuilderConfig where
  captureMode := "safe"
  maxLocalsFrames := 32
  maxCachedLocals := 50
  maxTotalPackageSize := 738
  hardCapBytes := 1048576

def noParts : ErrorPackageParts where
  modeAtCapture := none
  usedAmbientEvents := false
  ioEventsDropped := 0
  alsContextAvailable := true
  stateTrackingEnabled := false
  stateWritesDropped := none
  captureFailures := []
  rateLimiterDrops := none
  localVariablesCaptureLayer := none
  localVariablesDegradation := none
  localVariablesFrameAlignment := none
  localVariablesUnavailableReason := none
  localVariablesCacheOperation := none
  sourceMapResolution := none

theorem getPackageSize_twoBodies : getPackageSize twoBodies = 838 := by decide +kernel

theorem stripLargest_twoBodies :
    stripLargest 738 ⟨twoBodies.ioTimeline, getPackageSize twoBodies, false⟩ =
      ⟨[fourKeysEvent.strip, fourKeysEvent], 838 - 128, true⟩ := by
  have hlargest : findLargestBodyEvent [fourKeysEvent, fourKeysEvent] = some (0, 128) := by
    decide +kernel
  rw [getPackageSize_twoBodies, stripLargest_of_some (by norm_num) hlargest, stripLargest_of_le]
  · rfl
  · norm_num

end PackageBuilder

end ErrorCore
