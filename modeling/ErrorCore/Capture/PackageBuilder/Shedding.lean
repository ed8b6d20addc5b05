import ErrorCore.Capture.PackageBuilder
import Mathlib.Data.List.Forall2
import Mathlib.Tactic.Ring

/-!
# What shedding leaves

The loop of `shedIfNeeded` subtracts the estimates of the bodies it strips, so
that what is left is told by the sum of all estimates. The size itself is
measured once, after the loop, and that measurement decides about the timeline
and the state reads.
-/

namespace ErrorCore

namespace PackageBuilder

/-! ## Stripping -/

/-- What the estimates of all bodies add up to. -/
def estimates : List IOEvent → Rat
  | [] => 0
  | event :: rest => event.estimatedBytes + estimates rest

theorem estimates_append (before after : List IOEvent) :
    estimates (before ++ after) = estimates before + estimates after := by
  induction before with
  | nil => exact (zero_add _).symm
  | cons event before ih => rw [List.cons_append, estimates, estimates, ih, add_assoc]

/-- An event keeps both bodies or loses both. -/
def Stripped (events kept : List IOEvent) : Prop :=
  List.Forall₂ (fun event left => left = event ∨ left = event.strip) events kept

theorem Stripped.refl (events : List IOEvent) : Stripped events events :=
  List.forall₂_same.mpr fun _ _ => .inl rfl

theorem IOEvent.strip_strip (event : IOEvent) : event.strip.strip = event.strip := by
  unfold IOEvent.strip
  simp [Body.isNull]

theorem Stripped.trans {events kept left : List IOEvent} (first : Stripped events kept)
    (second : Stripped kept left) : Stripped events left := by
  induction first generalizing left with
  | nil =>
      cases second
      exact .nil
  | cons hevent _ ih =>
      cases second with
      | cons hleft hrest =>
          refine .cons ?_ (ih hrest)
          rcases hevent with rfl | rfl
          · exact hleft
          · rw [IOEvent.strip_strip, or_self] at hleft
            exact .inr hleft

theorem stripped_modify {events : List IOEvent} {best : Nat × Rat}
    (h : findLargestBodyEvent events = some best) :
    Stripped events (events.modify best.1 IOEvent.strip) ∧
      estimates (events.modify best.1 IOEvent.strip) = estimates events - best.2 := by
  obtain ⟨event, hget, hbytes, -⟩ := findLargestBodyEvent_eq_some h
  obtain ⟨before, after, rfl, hmodify⟩ := Indexed.exists_modify_eq hget
  rw [hmodify]
  constructor
  · exact List.rel_append (Stripped.refl before) (.cons (.inr rfl) (Stripped.refl after))
  · rw [estimates_append, estimates_append, estimates, estimates, IOEvent.estimatedBytes_strip,
      hbytes]
    ring

/-- What the loop leaves when it started with some events and their estimates. -/
structure StrippedUntil (maxPackageSize : Nat) (before after : Stripping) : Prop where
  events : Stripped before.ioTimeline after.ioTimeline
  estimate : after.currentPackageSize =
    before.currentPackageSize - (estimates before.ioTimeline - estimates after.ioTimeline)
  stopped : after.currentPackageSize ≤ maxPackageSize ∨
    ∀ event ∈ after.ioTimeline, event.estimatedBytes ≤ 0
  flagged : after = before ∨ after.strippedAnyBody = true

theorem stripLargest_of_le {maxPackageSize : Nat} {s : Stripping}
    (hsize : s.currentPackageSize ≤ maxPackageSize) : stripLargest maxPackageSize s = s := by
  rw [stripLargest, if_neg (not_lt.mpr hsize)]

theorem stripLargest_of_none {maxPackageSize : Nat} {s : Stripping}
    (hnone : findLargestBodyEvent s.ioTimeline = none) : stripLargest maxPackageSize s = s := by
  rw [stripLargest]
  split
  · split
    · rfl
    · next hsome => cases hnone.symm.trans hsome
  · rfl

/-- One round of the loop. -/
theorem stripLargest_of_some {maxPackageSize : Nat} {s : Stripping} {best : Nat × Rat}
    (hsize : maxPackageSize < s.currentPackageSize)
    (hsome : findLargestBodyEvent s.ioTimeline = some best) :
    stripLargest maxPackageSize s =
      stripLargest maxPackageSize
        ⟨s.ioTimeline.modify best.1 IOEvent.strip, s.currentPackageSize - best.2, true⟩ := by
  rw [stripLargest, if_pos hsize]
  split
  · next hnone => cases hnone.symm.trans hsome
  · next index bytes hfound =>
      obtain rfl := Option.some.inj (hfound.symm.trans hsome)
      rfl

/-- The loop ends, by induction on the rounds it takes. -/
theorem stripLargest_spec (maxPackageSize : Nat) (s : Stripping) :
    StrippedUntil maxPackageSize s (stripLargest maxPackageSize s) := by
  induction s using stripLargest.induct maxPackageSize with
  | case1 s hsize hnone =>
      rw [stripLargest_of_none hnone]
      exact ⟨Stripped.refl _, by ring, .inr (estimatedBytes_le_of_largestBodyFrom hnone), .inl rfl⟩
  | case2 s hsize index bytes hsome ih =>
      rw [stripLargest_of_some hsize hsome]
      obtain ⟨hstripped, hestimates⟩ := stripped_modify hsome
      refine ⟨hstripped.trans ih.events, ?_, ih.stopped, ?_⟩
      · rw [ih.estimate, hestimates]
        ring
      · rcases ih.flagged with heq | hflag
        · rw [heq]
          exact .inr rfl
        · exact .inr hflag
  | case3 s hsize =>
      rw [stripLargest_of_le (not_lt.mp hsize)]
      exact ⟨Stripped.refl _, by ring, .inl (not_lt.mp hsize), .inl rfl⟩

/-! ## The result -/

section Shed

variable {config : BuilderConfig} {parts : ErrorPackageParts} {frameAlignment : Option Text}
variable {pkg : ErrorPackage}

/-- The completeness record says what `computeCompleteness` says of the contents. -/
def IsComplete (config : BuilderConfig) (parts : ErrorPackageParts)
    (frameAlignment : Option Text) (pkg : ErrorPackage) : Prop :=
  pkg.completeness =
    computeCompleteness config parts pkg.completeness.encrypted pkg frameAlignment

/-- The contents are those of `kept`, and the completeness record is renewed. -/
def Renewed (config : BuilderConfig) (parts : ErrorPackageParts) (frameAlignment : Option Text)
    (kept after : ErrorPackage) : Prop :=
  after = { kept with
    completeness :=
      computeCompleteness config parts kept.completeness.encrypted kept frameAlignment }

theorem Renewed.isComplete {kept after : ErrorPackage}
    (h : Renewed config parts frameAlignment kept after) :
    IsComplete config parts frameAlignment after := by
  rw [Renewed] at h
  rw [h]
  rfl

/-- The result for a package that is too large. Bodies are stripped until the size less the
estimates is small enough or no body has an estimate, and what the size is then decides about the
timeline of an ambient capture and about the state reads. -/
structure ShedTo (config : BuilderConfig) (parts : ErrorPackageParts)
    (frameAlignment : Option Text) (pkg after : ErrorPackage) (events : List IOEvent) : Prop where
  stripped : Stripped pkg.ioTimeline events
  stopped :
    getPackageSize pkg - (estimates pkg.ioTimeline - estimates events) ≤
        config.maxTotalPackageSize ∨
      ∀ event ∈ events, event.estimatedBytes ≤ 0
  fits :
    getPackageSize { pkg with ioTimeline := events } ≤ config.maxTotalPackageSize →
      Renewed config parts frameAlignment { pkg with ioTimeline := events } after
  exceeds :
    config.maxTotalPackageSize < getPackageSize { pkg with ioTimeline := events } →
      Renewed config parts frameAlignment
        { pkg with
          ioTimeline := if parts.usedAmbientEvents then [] else events
          stateReads := [] }
        after

theorem shedIfNeeded_of_le (hsize : getPackageSize pkg ≤ config.maxTotalPackageSize) :
    shedIfNeeded config parts frameAlignment pkg = pkg :=
  if_pos hsize

theorem shedIfNeeded_of_lt (hsize : config.maxTotalPackageSize < getPackageSize pkg) :
    ShedTo config parts frameAlignment pkg (shedIfNeeded config parts frameAlignment pkg)
      (stripLargest config.maxTotalPackageSize
        ⟨pkg.ioTimeline, getPackageSize pkg, false⟩).ioTimeline := by
  have h := stripLargest_spec config.maxTotalPackageSize
    ⟨pkg.ioTimeline, getPackageSize pkg, false⟩
  generalize hresult : stripLargest config.maxTotalPackageSize
    ⟨pkg.ioTimeline, getPackageSize pkg, false⟩ = s at h
  have hmeasured : (if s.strippedAnyBody then
      (getPackageSize { pkg with ioTimeline := s.ioTimeline } : Rat) else s.currentPackageSize) =
        getPackageSize { pkg with ioTimeline := s.ioTimeline } := by
    rcases h.flagged with rfl | hflag
    · rfl
    · rw [if_pos hflag]
  refine ⟨h.events, ?_, ?_, ?_⟩
  · rcases h.stopped with hle | hnone
    · rw [h.estimate] at hle
      exact .inl hle
    · exact .inr hnone
  · intro hfits
    have hnot : ¬(config.maxTotalPackageSize : Rat) <
        getPackageSize { pkg with ioTimeline := s.ioTimeline } := by
      rw [Nat.cast_lt]
      exact Nat.not_lt.mpr hfits
    unfold Renewed shedIfNeeded
    rw [if_neg (Nat.not_le.mpr hsize), hresult]
    simp only [hmeasured, hnot, false_and, if_false]
  · intro hexceeds
    have hlt : (config.maxTotalPackageSize : Rat) <
        getPackageSize { pkg with ioTimeline := s.ioTimeline } := Nat.cast_lt.mpr hexceeds
    unfold Renewed shedIfNeeded
    rw [if_neg (Nat.not_le.mpr hsize), hresult]
    simp only [hmeasured, hlt, true_and, if_true]
    cases parts.usedAmbientEvents <;> rfl

theorem IsComplete.shed (h : IsComplete config parts frameAlignment pkg) :
    IsComplete config parts frameAlignment (shedIfNeeded config parts frameAlignment pkg) := by
  by_cases hsize : getPackageSize pkg ≤ config.maxTotalPackageSize
  · rwa [shedIfNeeded_of_le hsize]
  · have hshed : ShedTo config parts frameAlignment pkg
        (shedIfNeeded config parts frameAlignment pkg) _ :=
      shedIfNeeded_of_lt (Nat.not_le.mp hsize)
    rcases Nat.lt_or_ge config.maxTotalPackageSize (getPackageSize { pkg with ioTimeline :=
        (stripLargest config.maxTotalPackageSize
          ⟨pkg.ioTimeline, getPackageSize pkg, false⟩).ioTimeline }) with hexceeds | hfits
    · exact (hshed.exceeds hexceeds).isComplete
    · exact (hshed.fits hfits).isComplete

end Shed

end PackageBuilder

end ErrorCore
