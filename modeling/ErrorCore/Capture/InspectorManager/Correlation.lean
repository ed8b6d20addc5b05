import Mathlib.Data.List.Nodup
import Mathlib.Data.List.Perm.Subperm
import ErrorCore.Capture.InspectorManager

/-!
# Correlation keeps requests apart

The first step of a lookup that has matches decides it. What it hands out is one
of these matches, and the keys of the steps say whose it is. The steps after
the tag refuse to choose among matches that were captured at different places
unless the clock singles some of them out.

An array of frames leaves the buffer when it is returned, and no other entry has it.
-/

namespace ErrorCore.InspectorManager

/-! ## What is to hold -/

/-- The frames of two of the entries were captured at different places. -/
def Differ (entries : List LocalsRingBufferEntry) : Prop :=
  ∃ a ∈ entries, ∃ b ∈ entries, capturedFrameSignature a ≠ capturedFrameSignature b

/-- The step that decides is the first one with a match. -/
def decidingStep (steps : List Step) : Option Step :=
  steps.find? fun step => !step.candidates.isEmpty

section Lookup

variable (sha1 : Text → Text) (s : State) (ready : Readiness) (requestId : Option Text)
variable (error : LookedUpError) (clock : Nat → Int)

/-- The buffer in which a lookup searches. -/
def searched : LocalsRingBuffer := s.ringBuffer.pruneExpired (clock 0)

/-- Nothing keeps the lookup from its search. -/
def Searches : Prop := ready.captureLocalVariables = true ∧ ready.missReason = none

/-- What a lookup may return. -/
structure Correlated (result : LocalsWithDiagnostics) : Prop where
  /-- A match of the request is an entry of the request and of the same error. -/
  own : result.captureLayer = some .identity →
    result.degradation = some .exact ∨ result.degradation = some .dropped_hash ∨
      result.degradation = some .dropped_count →
    ∃ e ∈ (searched s clock).entries, result.frames = some e.frames ∧ e.requestId = requestId ∧
      e.errorName = (identityKey sha1 requestId error).errorName ∧
      e.errorMessage = (identityKey sha1 requestId error).errorMessage
  /-- The frames of another request are marked. -/
  others : ∀ e ∈ (searched s clock).entries, result.frames = some e.frames →
    e.requestId ≠ requestId → result.degradation = some .dropped_request
  /-- Outside of a request only an entry from outside is found, and as the only match. -/
  background : requestId = none → ∀ frames, result.frames = some frames →
    ∃ e ∈ (searched s clock).entries, e.frames = frames ∧ e.requestId = none ∧
      (result.captureLayer = some .identity →
        (searched s clock).findBackgroundMatches (identityKey sha1 requestId error) = [e])
  /-- Nothing is chosen among different matches. -/
  refused : Searches ready → taggedEntry (searched s clock) error = none →
    ∀ step, decidingStep (errorSteps sha1 (searched s clock) requestId error clock) = some step →
      Differ step.candidates →
        result = miss (some .ambiguous_correlation) ∨
          result = miss (some .ambiguous_context_less_match)

end Lookup

/-- No array of frames has been returned twice. -/
def ReturnedOnce (s : State) : Prop := s.returned.Nodup

/-- What a step owes. -/
def Correlates (sha1 : Text → Text) (s : State) : Action → Prop
  | .lookup ready requestId error clock =>
      Correlated sha1 s ready requestId error clock
        (s.lookup sha1 ready requestId error clock).1
  | .pause _ | .store _ _ _ | .resize _ => True

/-- The entries were captured at one place, and there are some. -/
def Equivalent (entries : List LocalsRingBufferEntry) : Prop :=
  entries ≠ [] ∧ ∀ a ∈ entries, ∀ b ∈ entries, capturedFrameSignature a = capturedFrameSignature b

/-- The clock singles out none of the candidates. -/
def Choice.Undecided (candidates : List LocalsRingBufferEntry) : Choice → Prop
  | newest => False
  | sameRequest equivalentAt newestAt =>
      ¬Equivalent (recentMatches candidates equivalentAt) ∧ recentMatches candidates newestAt = []
  | otherRequest singleAt equivalentAt =>
      (recentMatches candidates singleAt).length ≠ 1 ∧
        ¬Equivalent (recentMatches candidates equivalentAt)
  | recent equivalentAt => ¬Equivalent (recentMatches candidates equivalentAt)
  | background => True

/-- A tag leads to an entry of the request, and where the matches of the deciding step differ the
clock singles out none. -/
def TellsApart (sha1 : Text → Text) (s : State) : Action → Prop
  | .lookup ready requestId error clock =>
      Searches ready →
        (∀ e, taggedEntry (searched s clock) error = some e → e.requestId = requestId) ∧
        (taggedEntry (searched s clock) error = none →
          ∀ step,
            decidingStep (errorSteps sha1 (searched s clock) requestId error clock) = some step →
            Differ step.candidates → step.choice.Undecided step.candidates)
  | .pause _ | .store _ _ _ | .resize _ => True

/-! ## One step of a lookup -/

section Choices

variable {candidates : List LocalsRingBufferEntry} {now : Int} {e : LocalsRingBufferEntry}

theorem Differ.two (h : Differ candidates) : 1 < candidates.length := by
  obtain ⟨a, ha, b, hb, hne⟩ := h
  cases candidates with
  | nil => exact absurd ha List.not_mem_nil
  | cons first rest =>
      cases rest with
      | nil =>
          rw [List.mem_singleton.mp ha, List.mem_singleton.mp hb] at hne
          exact absurd rfl hne
      | cons second rest => simp

theorem selectNewestRecentEquivalentMatch_eq_none :
    selectNewestRecentEquivalentMatch candidates now = none ↔
      ¬Equivalent (recentMatches candidates now) := by
  rw [selectNewestRecentEquivalentMatch]
  split
  · next hnil => exact ⟨fun _ h => h.1 hnil, fun _ => rfl⟩
  · next first rest hcons =>
    rw [hcons]
    split
    · next hall =>
      refine ⟨fun hnone => absurd hnone (by simp), fun hnot => absurd ?_ hnot⟩
      refine ⟨List.cons_ne_nil _ _, fun a ha b hb => ?_⟩
      have hsame := fun x hx => of_decide_eq_true (List.all_eq_true.mp hall x hx)
      exact (hsame a ha).trans (hsame b hb).symm
    · next hall =>
      refine ⟨fun _ h => hall (List.all_eq_true.mpr fun x hx => ?_), fun _ => rfl⟩
      exact decide_eq_true (h.2 x hx first List.mem_cons_self)

theorem mem_of_selectNewestRecentEquivalentMatch
    (h : selectNewestRecentEquivalentMatch candidates now = some e) : e ∈ candidates := by
  rw [selectNewestRecentEquivalentMatch] at h
  split at h
  · contradiction
  · next first rest hcons =>
    split at h
    · have hmem := List.mem_of_getLast? h
      rw [← hcons] at hmem
      exact List.mem_of_mem_filter hmem
    · contradiction

theorem mem_of_selectNewestRecentMatch
    (h : selectNewestRecentMatch candidates now = some e) : e ∈ candidates :=
  List.mem_of_mem_filter (List.mem_of_getLast? h)

theorem mem_of_selectSingleRecentMatch
    (h : selectSingleRecentMatch candidates now = some e) : e ∈ candidates := by
  rw [selectSingleRecentMatch.eq_def] at h
  split at h
  · obtain rfl := Option.some.inj h
    exact List.mem_singleton_self _
  · split at h
    · next entry hrecent =>
      obtain rfl := Option.some.inj h
      exact List.mem_of_mem_filter (hrecent ▸ List.mem_singleton_self _)
    · contradiction

theorem refuse_eq_none {reason : MissReason} :
    refuse reason candidates = none ↔ candidates.length ≤ 1 := by
  rw [refuse]
  split
  · next h =>
    exact ⟨fun hsome => absurd hsome (Option.some_ne_none _), fun hle => absurd hle (by omega)⟩
  · next h => exact ⟨fun _ => by omega, fun _ => rfl⟩

theorem refuse_of_two {reason : MissReason} (h : 1 < candidates.length) :
    refuse reason candidates = some (.ambiguous reason) := if_pos h

/-- A step decides exactly when it has a match. -/
theorem Choice.decide_eq_none (choice : Choice) :
    choice.decide candidates = none ↔ candidates = [] := by
  cases candidates with
  | nil =>
      refine ⟨fun _ => rfl, fun _ => ?_⟩
      cases choice <;> rfl
  | cons first rest =>
      refine ⟨fun hnone => absurd hnone ?_, fun h => absurd h (List.cons_ne_nil _ _)⟩
      cases rest with
      | nil => cases choice <;> exact Option.some_ne_none _
      | cons second rest =>
          have htwo : 1 < (first :: second :: rest).length := by simp
          have hrefuse (reason : MissReason) :
              refuse reason (first :: second :: rest) ≠ none := by
            rw [refuse_of_two htwo]
            exact Option.some_ne_none _
          cases choice with
          | newest => simp [Choice.decide]
          | sameRequest equivalentAt newestAt =>
              rw [Choice.decide.eq_def]
              dsimp only
              split
              · exact Option.some_ne_none _
              · split
                · exact Option.some_ne_none _
                · exact hrefuse _
          | otherRequest singleAt equivalentAt =>
              rw [Choice.decide.eq_def]
              dsimp only
              split
              · exact Option.some_ne_none _
              · split
                · exact Option.some_ne_none _
                · exact hrefuse _
          | recent equivalentAt =>
              rw [Choice.decide.eq_def]
              dsimp only
              split
              · exact Option.some_ne_none _
              · exact hrefuse _
          | background => exact hrefuse _

/-- What a step hands out is a match. -/
theorem Choice.mem_of_decide {choice : Choice}
    (h : choice.decide candidates = some (.entry e)) : e ∈ candidates := by
  have hrefuse {reason : MissReason} (hentry : refuse reason candidates = some (.entry e)) :
      e ∈ candidates := by
    rw [refuse] at hentry
    split at hentry
    · exact absurd (Option.some.inj hentry) Decision.noConfusion
    · contradiction
  have hsingle {entry : LocalsRingBufferEntry}
      (hentry : some (Decision.entry entry) = some (.entry e)) : entry = e :=
    Decision.entry.inj (Option.some.inj hentry)
  cases choice with
  | newest =>
      obtain ⟨entry, hlast, hentry⟩ := Option.map_eq_some_iff.mp h
      rw [← Decision.entry.inj hentry]
      exact List.mem_of_getLast? hlast
  | sameRequest equivalentAt newestAt =>
      rw [Choice.decide.eq_def] at h
      dsimp only at h
      split at h
      · rw [hsingle h]
        exact List.mem_singleton_self e
      · split at h
        · next entry hselect =>
          rw [← hsingle h]
          exact mem_of_selectNewestRecentEquivalentMatch hselect
        · split at h
          · next entry hselect =>
            rw [← hsingle h]
            exact mem_of_selectNewestRecentMatch hselect
          · exact hrefuse h
  | otherRequest singleAt equivalentAt =>
      rw [Choice.decide.eq_def] at h
      dsimp only at h
      split at h
      · next entry hselect =>
        rw [← hsingle h]
        exact mem_of_selectSingleRecentMatch hselect
      · split at h
        · next entry hselect =>
          rw [← hsingle h]
          exact mem_of_selectNewestRecentEquivalentMatch hselect
        · exact hrefuse h
  | recent equivalentAt =>
      rw [Choice.decide.eq_def] at h
      dsimp only at h
      split at h
      · rw [hsingle h]
        exact List.mem_singleton_self e
      · split at h
        · next entry hselect =>
          rw [← hsingle h]
          exact mem_of_selectNewestRecentEquivalentMatch hselect
        · exact hrefuse h
  | background =>
      rw [Choice.decide.eq_def] at h
      dsimp only at h
      split at h
      · rw [hsingle h]
        exact List.mem_singleton_self e
      · exact hrefuse h

/-- Outside of a request the match is the only one. -/
theorem Choice.eq_of_decide_background
    (h : Choice.background.decide candidates = some (.entry e)) : candidates = [e] := by
  rw [Choice.decide.eq_def] at h
  dsimp only at h
  split at h
  · rw [Decision.entry.inj (Option.some.inj h)]
  · rw [refuse] at h
    split at h
    · exact absurd (Option.some.inj h) Decision.noConfusion
    · contradiction

theorem selectNewestRecentMatch_eq_none :
    selectNewestRecentMatch candidates now = none ↔ recentMatches candidates now = [] :=
  List.getLast?_eq_none_iff

theorem selectSingleRecentMatch_eq_none (htwo : 1 < candidates.length) :
    selectSingleRecentMatch candidates now = none ↔ (recentMatches candidates now).length ≠ 1 := by
  rw [selectSingleRecentMatch.eq_def]
  split
  · exact absurd htwo (by simp)
  · split
    · next entry hrecent =>
      rw [hrecent]
      exact ⟨fun hnone => absurd hnone (Option.some_ne_none _), fun hne => absurd rfl hne⟩
    · next hnot =>
      refine ⟨fun _ hone => ?_, fun _ => rfl⟩
      obtain ⟨entry, hentry⟩ := List.length_eq_one_iff.mp hone
      exact hnot entry hentry

/-- The decision is to refuse. -/
def Refused (decision : Option Decision) : Prop :=
  decision = some (.ambiguous .ambiguous_correlation) ∨
    decision = some (.ambiguous .ambiguous_context_less_match)

theorem not_refused_entry (entry : LocalsRingBufferEntry) :
    ¬Refused (some (.entry entry)) := by
  rintro (h | h)
  · exact Decision.noConfusion (Option.some.inj h)
  · exact Decision.noConfusion (Option.some.inj h)

theorem refused_correlation (htwo : 1 < candidates.length) :
    Refused (refuse .ambiguous_correlation candidates) := .inl (refuse_of_two htwo)

/-- Among matches that differ a step refuses to choose exactly when the clock singles out none. -/
theorem Choice.refused_iff {choice : Choice} (hdiffer : Differ candidates) :
    Refused (choice.decide candidates) ↔ choice.Undecided candidates := by
  have htwo := hdiffer.two
  have hnot (entry : LocalsRingBufferEntry) : candidates ≠ [entry] := by
    rintro rfl
    exact absurd htwo (by simp)
  cases choice with
  | newest =>
      rw [Choice.decide.eq_def]
      dsimp only
      cases hlast : candidates.getLast? with
      | none =>
          rw [List.getLast?_eq_none_iff.mp hlast] at htwo
          contradiction
      | some entry => exact ⟨fun h => not_refused_entry entry h, fun h => h.elim⟩
  | sameRequest equivalentAt newestAt =>
      rw [Choice.decide.eq_def, Choice.Undecided.eq_def]
      dsimp only
      rw [← selectNewestRecentEquivalentMatch_eq_none, ← selectNewestRecentMatch_eq_none]
      split
      · next entry => exact absurd rfl (hnot entry)
      · split
        · next entry hselect =>
          rw [hselect]
          exact ⟨fun h => absurd h (not_refused_entry entry), fun h => absurd h.1 (by simp)⟩
        · next hnone =>
          rw [hnone]
          split
          · next entry hselect =>
            rw [hselect]
            exact ⟨fun h => absurd h (not_refused_entry entry), fun h => absurd h.2 (by simp)⟩
          · next hnewest => exact ⟨fun _ => ⟨rfl, hnewest⟩, fun _ => refused_correlation htwo⟩
  | otherRequest singleAt equivalentAt =>
      rw [Choice.decide.eq_def, Choice.Undecided.eq_def]
      dsimp only
      rw [← selectNewestRecentEquivalentMatch_eq_none, ← selectSingleRecentMatch_eq_none htwo]
      split
      · next entry hselect =>
        rw [hselect]
        exact ⟨fun h => absurd h (not_refused_entry entry), fun h => absurd h.1 (by simp)⟩
      · next hsingle =>
        rw [hsingle]
        split
        · next entry hselect =>
          rw [hselect]
          exact ⟨fun h => absurd h (not_refused_entry entry), fun h => absurd h.2 (by simp)⟩
        · next hnone => exact ⟨fun _ => ⟨rfl, hnone⟩, fun _ => refused_correlation htwo⟩
  | recent equivalentAt =>
      rw [Choice.decide.eq_def, Choice.Undecided.eq_def]
      dsimp only
      rw [← selectNewestRecentEquivalentMatch_eq_none]
      split
      · next entry => exact absurd rfl (hnot entry)
      · split
        · next entry hselect =>
          rw [hselect]
          exact ⟨fun h => absurd h (not_refused_entry entry), fun h => absurd h (by simp)⟩
        · next hnone => exact ⟨fun _ => hnone, fun _ => refused_correlation htwo⟩
  | background =>
      rw [Choice.decide.eq_def, Choice.Undecided.eq_def]
      dsimp only
      split
      · next entry => exact absurd rfl (hnot entry)
      · exact ⟨fun _ => trivial, fun _ => .inr (refuse_of_two htwo)⟩

end Choices

/-! ## The first step with a match -/

theorem Step.run_eq_none {step : Step} : step.run = none ↔ step.candidates = [] := by
  rw [Step.run, Option.map_eq_none_iff]
  exact step.choice.decide_eq_none

theorem findSome?_run (steps : List Step) :
    steps.findSome? Step.run = (decidingStep steps).bind Step.run := by
  induction steps with
  | nil => rfl
  | cons step steps ih =>
      rw [List.findSome?_cons, decidingStep, List.find?_cons]
      cases hcandidates : step.candidates with
      | nil =>
          rw [Step.run_eq_none.mpr hcandidates]
          exact ih
      | cons first rest =>
          obtain ⟨result, hresult⟩ := Option.ne_none_iff_exists'.mp
            (mt Step.run_eq_none.mp (hcandidates ▸ List.cons_ne_nil first rest))
          rw [hresult]
          exact hresult.symm

theorem decidingStep_spec {steps : List Step} {step : Step} (h : decidingStep steps = some step) :
    step ∈ steps ∧ step.candidates ≠ [] := by
  refine ⟨List.mem_of_find?_eq_some h, fun hnil => ?_⟩
  have hnonempty := List.find?_some h
  rw [hnil] at hnonempty
  exact absurd hnonempty (by decide)

/-- What the key of a step says about its matches. -/
structure Step.Keyed (b : LocalsRingBuffer) (key : IdentityKey) (step : Step) : Prop where
  mem : ∀ e ∈ step.candidates, e ∈ b.entries
  own : step.degradation = .exact ∨ step.degradation = .dropped_hash ∨
      step.degradation = .dropped_count →
    ∀ e ∈ step.candidates, e.requestId = key.requestId ∧ e.errorName = key.errorName ∧
      e.errorMessage = key.errorMessage
  others : ∀ e ∈ step.candidates, e.requestId ≠ key.requestId →
    step.degradation = .dropped_request
  background : key.requestId = none → step.choice = .background ∧
    step.candidates = b.findBackgroundMatches key

section Keys

variable {b : LocalsRingBuffer} {key : IdentityKey} {step : Step} {e : LocalsRingBufferEntry}

/-- A step of the request: its key has the request and the content. -/
theorem Step.Keyed.of_sameRequest {p : LocalsRingBufferEntry → Bool} {choice : Choice}
    {degradation : Degradation} (hrequest : key.requestId ≠ none)
    (hp : ∀ e, p e = true → key.sameRequest e = true ∧ key.sameContentLoose e = true) :
    Step.Keyed b key { candidates := b.entries.filter p, choice, degradation } where
  mem _ he := List.mem_of_mem_filter he
  own _ e he := by
    obtain ⟨hsame, hcontent⟩ := hp e (List.mem_filter.mp he).2
    obtain ⟨hname, hmessage⟩ := Bool.and_eq_true_iff.mp hcontent
    exact ⟨of_decide_eq_true hsame, of_decide_eq_true hname, of_decide_eq_true hmessage⟩
  others e he hother :=
    absurd (of_decide_eq_true (hp e (List.mem_filter.mp he).2).1) hother
  background hnone := absurd hnone hrequest

/-- A step over the entries of other requests. -/
theorem Step.Keyed.of_others {candidates : List LocalsRingBufferEntry} {choice : Choice}
    (hrequest : key.requestId ≠ none) (hmem : ∀ e ∈ candidates, e ∈ b.entries) :
    Step.Keyed b key
      { candidates := candidates.filter fun e => e.requestId ≠ key.requestId
        choice
        degradation := .dropped_request } where
  mem e he := hmem e (List.mem_of_mem_filter he)
  own h := by
    rcases h with h | h | h
    · exact Degradation.noConfusion h
    · exact Degradation.noConfusion h
    · exact Degradation.noConfusion h
  others _ _ _ := rfl
  background hnone := absurd hnone hrequest

theorem keyed_of_lookupSteps {topStackFunction : Text} {clock : Nat → Int}
    (hstep : step ∈ lookupSteps b key topStackFunction clock) : step.Keyed b key := by
  rw [lookupSteps] at hstep
  dsimp only at hstep
  have hand {p q : Bool} (h : (p && q) = true) : p = true ∧ q = true :=
    Bool.and_eq_true_iff.mp h
  split at hstep
  · next requestId hrequestId =>
    have hrequest : key.requestId ≠ none := hrequestId ▸ Option.some_ne_none requestId
    simp only [List.mem_cons, List.not_mem_nil, or_false] at hstep
    rcases hstep with rfl | rfl | rfl | rfl | rfl | rfl | rfl
    · exact .of_sameRequest hrequest fun e he =>
        ⟨(hand he).1, (hand (hand (hand he).2).1).1⟩
    · exact .of_sameRequest hrequest fun e he => ⟨(hand he).1, (hand (hand he).2).1⟩
    · exact .of_sameRequest hrequest fun e he => hand he
    · exact .of_others hrequest fun e he => List.mem_of_mem_filter he
    · exact .of_others hrequest fun e he => List.mem_of_mem_filter he
    · exact .of_others hrequest fun e he => List.mem_of_mem_filter he
    · exact .of_others hrequest fun e he =>
        List.mem_of_mem_filter (List.mem_of_mem_filter he)
  · next hnone =>
    obtain rfl := List.mem_singleton.mp hstep
    refine ⟨fun e he => List.mem_of_mem_filter he, fun h => ?_, fun e he hother => ?_,
      fun _ => ⟨rfl, rfl⟩⟩
    · rcases h with h | h | h
      · exact Degradation.noConfusion h
      · exact Degradation.noConfusion h
      · exact Degradation.noConfusion h
    · have hisNone := (hand (List.mem_filter.mp he).2).1
      exact absurd ((Option.isNone_iff_eq_none.mp hisNone).trans hnone.symm) hother

end Keys

/-! ## The lookup -/

section Lookup

variable {sha1 : Text → Text} {b : LocalsRingBuffer} {s : State} {ready : Readiness}
variable {requestId : Option Text} {error : LookedUpError} {clock : Nat → Int}

/-- The deciding step hands out one of its matches or refuses; without one nothing is found. -/
theorem layer2Lookup_cases (sha1 : Text → Text) (b : LocalsRingBuffer) (requestId : Option Text)
    (error : LookedUpError) (clock : Nat → Int) :
    (∃ step e, decidingStep (errorSteps sha1 b requestId error clock) = some step ∧
        step.choice.decide step.candidates = some (.entry e) ∧
        layer2Lookup sha1 b requestId error clock = found .identity step.degradation e) ∨
      (∃ step reason, decidingStep (errorSteps sha1 b requestId error clock) = some step ∧
        step.choice.decide step.candidates = some (.ambiguous reason) ∧
        layer2Lookup sha1 b requestId error clock = miss (some reason)) ∨
      (decidingStep (errorSteps sha1 b requestId error clock) = none ∧
        ∃ reason, layer2Lookup sha1 b requestId error clock = miss (some reason)) := by
  rw [layer2Lookup, findSome?_run]
  cases hdeciding : decidingStep (errorSteps sha1 b requestId error clock) with
  | none => exact .inr (.inr ⟨rfl, _, rfl⟩)
  | some step =>
      have hnonempty := (decidingStep_spec hdeciding).2
      obtain ⟨decision, hdecision⟩ := Option.ne_none_iff_exists'.mp
        (mt step.choice.decide_eq_none.mp hnonempty)
      rw [Option.bind_some, Step.run, hdecision]
      cases decision with
      | entry e => exact .inl ⟨step, e, rfl, hdecision, rfl⟩
      | ambiguous reason => exact .inr (.inl ⟨step, reason, rfl, hdecision, rfl⟩)

theorem lookup_unready (sha1 : Text → Text) (s : State) (requestId : Option Text)
    (error : LookedUpError) (clock : Nat → Int) (h : ¬Searches ready) :
    ∃ reason, (s.lookup sha1 ready requestId error clock).1 = miss reason := by
  rw [State.lookup, getLocalsWithDiagnostics]
  dsimp only
  split
  · exact ⟨none, rfl⟩
  · next hcapture =>
    rw [Bool.not_eq_true, Bool.not_eq_false'] at hcapture
    split
    · next reason hreason => exact ⟨some reason, rfl⟩
    · next hnone => exact absurd ⟨hcapture, hnone⟩ h

theorem lookup_tagged (h : Searches ready) {e : LocalsRingBufferEntry}
    (htag : taggedEntry (searched s clock) error = some e) :
    (s.lookup sha1 ready requestId error clock).1 = found .tag .exact e := by
  rw [State.lookup, getLocalsWithDiagnostics]
  dsimp only
  rw [h.1, Bool.not_true, if_neg Bool.false_ne_true, h.2]
  dsimp only
  rw [searched] at htag
  rw [htag]

theorem lookup_untagged (h : Searches ready)
    (htag : taggedEntry (searched s clock) error = none) :
    (s.lookup sha1 ready requestId error clock).1 =
      layer2Lookup sha1 (searched s clock) requestId error clock := by
  rw [State.lookup, getLocalsWithDiagnostics]
  dsimp only
  rw [h.1, Bool.not_true, if_neg Bool.false_ne_true, h.2]
  dsimp only
  rw [searched] at htag
  rw [htag]
  dsimp only
  split
  · rfl
  · rfl

theorem mem_of_taggedEntry {e : LocalsRingBufferEntry} (h : taggedEntry b error = some e) :
    e ∈ b.entries := by
  obtain ⟨id, -, hfound⟩ := Option.bind_eq_some_iff.mp h
  exact List.mem_reverse.mp (List.mem_of_find?_eq_some hfound)

end Lookup

/-! ## The numbers of the arrays -/

namespace State

variable {s t : State}

/-- The arrays in the buffer, those that are still collected, and those that were returned. -/
def numbers (s : State) : List Nat :=
  s.ringBuffer.entries.map (·.frames.array) ++ (s.collecting ++ s.returned)

/-- No array is at two places, and the next number is new. -/
structure Numbered (s : State) : Prop where
  nodup : s.numbers.Nodup
  le : ∀ n ∈ s.numbers, n ≤ s.ringBuffer.nextId

/-- Nothing but `fresh` comes to the numbers. -/
def Renumbers (s t : State) (fresh : List Nat) : Prop :=
  ∀ n, t.numbers.count n ≤ fresh.count n + s.numbers.count n

theorem numbered_new (capacity ttlMs : Nat) : (new capacity ttlMs).Numbered :=
  ⟨List.nodup_nil, fun _ hmem => absurd hmem List.not_mem_nil⟩

theorem Numbered.kept (h : s.Numbered) (hnumbers : s.Renumbers t [])
    (hnext : t.ringBuffer.nextId = s.ringBuffer.nextId) : t.Numbered := by
  refine ⟨List.nodup_iff_count_le_one.mpr fun n => ?_, fun n hmem => ?_⟩
  · have hone := List.nodup_iff_count_le_one.mp h.nodup n
    have hle := hnumbers n
    rw [List.count_nil] at hle
    omega
  · have hpos := List.count_pos_iff.mpr hmem
    have hle := hnumbers n
    rw [List.count_nil] at hle
    rw [hnext]
    exact h.le n (List.count_pos_iff.mp (by omega))

theorem Numbered.allocated (h : s.Numbered)
    (hnumbers : s.Renumbers t [s.ringBuffer.nextId + 1])
    (hnext : t.ringBuffer.nextId = s.ringBuffer.nextId + 1) : t.Numbered := by
  have hfresh : s.numbers.count (s.ringBuffer.nextId + 1) = 0 :=
    List.count_eq_zero.mpr fun hmem => absurd (h.le _ hmem) (by omega)
  refine ⟨List.nodup_iff_count_le_one.mpr fun n => ?_, fun n hmem => ?_⟩
  · have hone := List.nodup_iff_count_le_one.mp h.nodup n
    have hle := hnumbers n
    rw [List.count_singleton] at hle
    split at hle
    · next heq =>
      rw [← eq_of_beq heq] at hle ⊢
      omega
    · omega
  · have hpos := List.count_pos_iff.mpr hmem
    have hle := hnumbers n
    rw [List.count_singleton] at hle
    rw [hnext]
    split at hle
    · next heq => exact Nat.le_of_eq (eq_of_beq heq).symm
    · exact Nat.le_succ_of_le (h.le n (List.count_pos_iff.mp (by omega)))

/-- Where entries go from the buffer, their numbers go. -/
theorem count_arrays_le {l l' : List LocalsRingBufferEntry} (h : l'.Sublist l) (n : Nat) :
    (l'.map (·.frames.array)).count n ≤ (l.map (·.frames.array)).count n :=
  (h.map _).count_le n

theorem count_numbers (s : State) (n : Nat) :
    s.numbers.count n = (s.ringBuffer.entries.map (·.frames.array)).count n +
      (s.collecting.count n + s.returned.count n) := by
  rw [numbers, List.count_append, List.count_append]

/-- What is pushed comes to the buffer, and others may go. -/
theorem count_push (b : LocalsRingBuffer) (entry : LocalsRingBufferEntry) (n : Nat) :
    ((b.push entry).entries.map (·.frames.array)).count n ≤
      (b.entries.map (·.frames.array)).count n + [entry.frames.array].count n := by
  have hkept : ((b.pruneExpired entry.createdAt).entries.map (·.frames.array)).count n ≤
      (b.entries.map (·.frames.array)).count n := count_arrays_le List.filter_sublist n
  have hshift : ((b.push entry).entries.map (·.frames.array)).count n ≤
      (((b.pruneExpired entry.createdAt).entries ++ [entry]).map (·.frames.array)).count n :=
    count_arrays_le (List.drop_sublist _ _) n
  rw [List.map_append, List.count_append] at hshift
  exact Nat.le_trans hshift (Nat.add_le_add_right hkept _)

theorem Numbered.pause (h : s.Numbered) (now : Int) : (s.pause now).Numbered := by
  refine h.allocated (fun n => ?_) rfl
  have hle : ((s.pause now).ringBuffer.entries.map (·.frames.array)).count n ≤
      (s.ringBuffer.entries.map (·.frames.array)).count n :=
    count_arrays_le List.filter_sublist n
  have hcollecting : (s.pause now).collecting.count n =
      s.collecting.count n + [s.ringBuffer.nextId + 1].count n := List.count_append
  have hreturned : (s.pause now).returned = s.returned := rfl
  rw [count_numbers, count_numbers, hcollecting, hreturned]
  omega

theorem Numbered.resize (h : s.Numbered) (capacity : Nat) :
    ({ s with ringBuffer := s.ringBuffer.resize capacity } : State).Numbered := by
  refine h.kept (fun n => ?_) rfl
  have hle : ((s.ringBuffer.resize capacity).entries.map (·.frames.array)).count n ≤
      (s.ringBuffer.entries.map (·.frames.array)).count n :=
    count_arrays_le (List.drop_sublist _ _) n
  rw [count_numbers, count_numbers]
  dsimp only
  omega

/-- The number of a pause goes from the pauses to the buffer. -/
theorem Numbered.store {sha1 : Text → Text} {id : Nat} {capture : Capture} {now : Int}
    (h : s.Numbered) (hstep : s.store sha1 id capture now = some t) : t.Numbered := by
  rw [State.store] at hstep
  split at hstep
  · next hmem =>
    have herase (n : Nat) : (s.collecting.erase id).count n + [id].count n =
        s.collecting.count n := by
      have hperm := (List.perm_cons_erase hmem).count_eq n
      rw [hperm, ← List.count_append, ← List.singleton_append]
      exact List.perm_append_comm.count_eq n
    dsimp only at hstep
    split at hstep
    · obtain rfl := Option.some.inj hstep
      refine h.kept (fun n => ?_) rfl
      have hcount := herase n
      rw [count_numbers, count_numbers]
      dsimp only
      omega
    · obtain rfl := Option.some.inj hstep
      refine h.kept (fun n => ?_) rfl
      rw [count_numbers, count_numbers]
      dsimp only
      have hcount := herase n
      have hpush := count_push s.ringBuffer
        { id
          requestId := capture.requestId
          errorName := capture.errorName
          errorMessage := capture.errorMessage
          frameCount := capture.callFrames.length
          structuralHash := computeStructuralHash sha1 capture.callFrames
          frames := { array := id, items := capture.frames }
          createdAt := now } n
      dsimp only at hpush
      omega
  · contradiction

/-- The array of an entry that is returned goes out of the buffer. -/
theorem count_consumeFrames {b : LocalsRingBuffer} {e : LocalsRingBufferEntry}
    (hmem : e ∈ b.entries) (n : Nat) :
    ((b.consumeFrames e.frames).entries.map (·.frames.array)).count n +
        [e.frames.array].count n = (b.entries.map (·.frames.array)).count n := by
  obtain ⟨a, before, after, -, harray, heq, herase⟩ :=
    List.exists_of_eraseP hmem (p := fun x => decide (x.frames.array = e.frames.array)) (by simp)
  rw [LocalsRingBuffer.consumeFrames]
  dsimp only
  rw [herase, heq, ← of_decide_eq_true harray]
  simp only [List.map_append, List.map_cons, List.count_append, List.count_cons, List.count_nil]
  omega

theorem Numbered.eq_of_array (h : s.Numbered) {e e' : LocalsRingBufferEntry}
    (he : e ∈ s.ringBuffer.entries) (he' : e' ∈ s.ringBuffer.entries)
    (heq : e.frames = e'.frames) : e = e' := by
  have hnodup : (s.ringBuffer.entries.map (·.frames.array)).Nodup :=
    (List.nodup_append.mp h.nodup).1
  exact List.inj_on_of_nodup_map hnodup he he' (congrArg CapturedFrames.array heq)

/-- What a lookup leaves: it may prune, and what it returns goes out of the buffer. -/
theorem Numbered.of_returned (h : s.Numbered) {b : LocalsRingBuffer}
    (hb : b = s.ringBuffer ∨ ∃ now, b = s.ringBuffer.pruneExpired now)
    (returning : Option CapturedFrames)
    (hmem : ∀ frames, returning = some frames → ∃ e ∈ b.entries, e.frames = frames) :
    ({ s with
        ringBuffer := match returning with
          | none => b
          | some frames => b.consumeFrames frames
        returned := s.returned ++ (returning.map (·.array)).toList } : State).Numbered := by
  have hle (n : Nat) : (b.entries.map (·.frames.array)).count n ≤
      (s.ringBuffer.entries.map (·.frames.array)).count n := by
    rcases hb with rfl | ⟨now, rfl⟩
    · exact Nat.le_refl _
    · exact count_arrays_le List.filter_sublist n
  have hnext : b.nextId = s.ringBuffer.nextId := by
    rcases hb with rfl | ⟨now, rfl⟩
    · rfl
    · rfl
  cases returning with
  | none =>
      refine h.kept (fun n => ?_) hnext
      have hn := hle n
      rw [count_numbers, count_numbers]
      dsimp only [Option.map_none, Option.toList_none]
      rw [List.append_nil]
      omega
  | some frames =>
      obtain ⟨e, he, rfl⟩ := hmem frames rfl
      refine h.kept (fun n => ?_) hnext
      have hn := hle n
      have hcount := count_consumeFrames he n
      rw [count_numbers, count_numbers]
      dsimp only [Option.map_some, Option.toList_some]
      rw [List.count_append]
      omega

end State

/-! ## What a lookup returns -/

section Lookup

variable {sha1 : Text → Text} {s t : State} {ready : Readiness}
variable {requestId : Option Text} {error : LookedUpError} {clock : Nat → Int}

theorem mem_of_searched {e : LocalsRingBufferEntry} (h : e ∈ (searched s clock).entries) :
    e ∈ s.ringBuffer.entries := List.mem_of_mem_filter h

/-- What the deciding step hands out is in the buffer. -/
theorem mem_of_layer2Lookup {b : LocalsRingBuffer} {frames : CapturedFrames}
    (h : (layer2Lookup sha1 b requestId error clock).frames = some frames) :
    ∃ e ∈ b.entries, e.frames = frames := by
  rcases layer2Lookup_cases sha1 b requestId error clock with
    ⟨step, e, hdeciding, hdecision, heq⟩ | ⟨_, _, _, _, heq⟩ | ⟨_, _, heq⟩
  · rw [heq] at h
    have hkeyed := keyed_of_lookupSteps (decidingStep_spec hdeciding).1
    exact ⟨e, hkeyed.mem e (Choice.mem_of_decide hdecision), Option.some.inj h⟩
  · rw [heq] at h
    exact absurd h.symm (Option.some_ne_none frames)
  · rw [heq] at h
    exact absurd h.symm (Option.some_ne_none frames)

theorem State.Numbered.lookup (h : s.Numbered) :
    (s.lookup sha1 ready requestId error clock).2.Numbered := by
  have hnothing {b : LocalsRingBuffer} (frames : CapturedFrames)
      (hframes : (none : Option CapturedFrames) = some frames) :
      ∃ e ∈ b.entries, e.frames = frames := absurd hframes.symm (Option.some_ne_none frames)
  have hpruned : s.ringBuffer.pruneExpired (clock 0) = s.ringBuffer ∨
      ∃ now, s.ringBuffer.pruneExpired (clock 0) = s.ringBuffer.pruneExpired now :=
    .inr ⟨clock 0, rfl⟩
  rw [State.lookup, getLocalsWithDiagnostics]
  dsimp only
  split
  · exact h.of_returned (.inl rfl) none hnothing
  · split
    · exact h.of_returned hpruned none hnothing
    · split
      · next e htag =>
        exact h.of_returned hpruned (some e.frames) fun frames hframes =>
          ⟨e, mem_of_taggedEntry htag, Option.some.inj hframes⟩
      · split
        · next hframes =>
          rw [hframes]
          exact h.of_returned hpruned none hnothing
        · next frames hframes =>
          rw [hframes]
          exact h.of_returned hpruned (some frames) fun other hother =>
            mem_of_layer2Lookup (hframes.trans hother)

/-- A miss is never wrong, unless a choice was to be refused with its reason. -/
theorem Correlated.of_miss {reason : Option MissReason}
    (hrefused : Searches ready → taggedEntry (searched s clock) error = none →
      ∀ step, decidingStep (errorSteps sha1 (searched s clock) requestId error clock) = some step →
        Differ step.candidates → reason = some .ambiguous_correlation ∨
          reason = some .ambiguous_context_less_match) :
    Correlated sha1 s ready requestId error clock (miss reason) where
  own hlayer := absurd hlayer.symm (Option.some_ne_none _)
  others _ _ hframes := absurd hframes.symm (Option.some_ne_none _)
  background _ _ hframes := absurd hframes.symm (Option.some_ne_none _)
  refused hsearches htag step hdeciding hdiffer := by
    rcases hrefused hsearches htag step hdeciding hdiffer with rfl | rfl
    · exact .inl rfl
    · exact .inr rfl

theorem Correlated.of_tagged (hs : s.Numbered) {e : LocalsRingBufferEntry}
    (htag : taggedEntry (searched s clock) error = some e) (hrequest : e.requestId = requestId) :
    Correlated sha1 s ready requestId error clock (found .tag .exact e) where
  own hlayer := absurd (Option.some.inj hlayer) (by decide)
  others e' he' hframes hother := by
    have hsame := hs.eq_of_array (mem_of_searched (mem_of_taggedEntry htag)) (mem_of_searched he')
      (Option.some.inj hframes)
    exact absurd (hsame ▸ hrequest) hother
  background hnone frames hframes :=
    ⟨e, mem_of_taggedEntry htag, Option.some.inj hframes, hrequest.trans hnone,
      fun hlayer => absurd (Option.some.inj hlayer) (by decide)⟩
  refused _ hnone := absurd (hnone.symm.trans htag) (Option.some_ne_none e).symm

/-- A match of a step is handed out as what it is. -/
theorem Correlated.of_decided (hs : s.Numbered) {step : Step} {e : LocalsRingBufferEntry}
    (hdeciding : decidingStep (errorSteps sha1 (searched s clock) requestId error clock) =
      some step)
    (hdecision : step.choice.decide step.candidates = some (.entry e))
    (hsame : ¬Differ step.candidates) :
    Correlated sha1 s ready requestId error clock (found .identity step.degradation e) := by
  have hkeyed : step.Keyed (searched s clock) (identityKey sha1 requestId error) :=
    keyed_of_lookupSteps (decidingStep_spec hdeciding).1
  have hmem := Choice.mem_of_decide hdecision
  refine ⟨fun _ hdegradation => ?_, fun e' he' hframes hother => ?_, fun hnone frames hframes => ?_,
    fun _ _ other hother hdiffer => ?_⟩
  · have hown := hkeyed.own (by
      rcases hdegradation with h | h | h
      · exact .inl (Option.some.inj h)
      · exact .inr (.inl (Option.some.inj h))
      · exact .inr (.inr (Option.some.inj h))) e hmem
    exact ⟨e, hkeyed.mem e hmem, rfl, hown⟩
  · obtain rfl := hs.eq_of_array (mem_of_searched (hkeyed.mem e hmem)) (mem_of_searched he')
      (Option.some.inj hframes)
    exact congrArg some (hkeyed.others e hmem hother)
  · obtain ⟨hchoice, hcandidates⟩ := hkeyed.background hnone
    rw [hchoice] at hdecision
    have hunique := Choice.eq_of_decide_background hdecision
    rw [hcandidates] at hmem
    have hisNone := (Bool.and_eq_true_iff.mp (List.mem_filter.mp hmem).2).1
    exact ⟨e, List.mem_of_mem_filter hmem, Option.some.inj hframes,
      Option.isNone_iff_eq_none.mp hisNone, fun _ => hcandidates.symm.trans hunique⟩
  · obtain rfl := Option.some.inj (hdeciding.symm.trans hother)
    exact absurd hdiffer hsame

/-- A lookup correlates exactly when it tells the entries apart. -/
theorem correlated_iff (hs : s.Numbered) :
    Correlates sha1 s (.lookup ready requestId error clock) ↔
      TellsApart sha1 s (.lookup ready requestId error clock) := by
  rw [Correlates, TellsApart]
  by_cases hsearches : Searches ready
  · cases htag : taggedEntry (searched s clock) error with
    | some e =>
        rw [lookup_tagged hsearches htag]
        constructor
        · refine fun h _ => ⟨fun other hother => ?_, fun hnone => absurd hnone (by simp)⟩
          obtain rfl := Option.some.inj hother
          by_contra hrequest
          have hmarked := h.others e (mem_of_taggedEntry htag) rfl hrequest
          exact Degradation.noConfusion (Option.some.inj hmarked)
        · exact fun h => .of_tagged hs htag ((h hsearches).1 e rfl)
    | none =>
        rw [lookup_untagged hsearches htag]
        have huntagged (e : LocalsRingBufferEntry) (he : none = some e) : e.requestId = requestId :=
          absurd he.symm (Option.some_ne_none e)
        rcases layer2Lookup_cases sha1 (searched s clock) requestId error clock with
          ⟨step, e, hdeciding, hdecision, heq⟩ | ⟨step, reason, hdeciding, hdecision, heq⟩ |
          ⟨hdeciding, reason, heq⟩
        · rw [heq]
          -- The step has chosen, which it may where its matches agree.
          have hchosen (hdiffer : Differ step.candidates) :
              ¬step.choice.Undecided step.candidates := by
            rw [← Choice.refused_iff hdiffer, hdecision]
            exact not_refused_entry e
          constructor
          · refine fun h _ => ⟨huntagged, fun _ other hother hdiffer => ?_⟩
            have hmiss := h.refused hsearches htag other hother hdiffer
            rcases hmiss with hmiss | hmiss
            · exact absurd (congrArg LocalsWithDiagnostics.frames hmiss) (Option.some_ne_none _)
            · exact absurd (congrArg LocalsWithDiagnostics.frames hmiss) (Option.some_ne_none _)
          · exact fun h => .of_decided hs hdeciding hdecision fun hdiffer =>
              hchosen hdiffer ((h hsearches).2 rfl step hdeciding hdiffer)
        · rw [heq]
          have hreason (hrefused : Refused (some (.ambiguous reason))) :
              some reason = some .ambiguous_correlation ∨
                some reason = some .ambiguous_context_less_match := by
            rcases hrefused with h | h
            · exact .inl (congrArg some (Decision.ambiguous.inj (Option.some.inj h)))
            · exact .inr (congrArg some (Decision.ambiguous.inj (Option.some.inj h)))
          constructor
          · refine fun h _ => ⟨huntagged, fun _ other hother hdiffer => ?_⟩
            obtain rfl := Option.some.inj (hdeciding.symm.trans hother)
            rw [← Choice.refused_iff hdiffer, hdecision]
            rcases h.refused hsearches htag step hother hdiffer with hmiss | hmiss
            · exact .inl (congrArg (some ∘ Decision.ambiguous) (Option.some.inj
                (congrArg LocalsWithDiagnostics.missReason hmiss)))
            · exact .inr (congrArg (some ∘ Decision.ambiguous) (Option.some.inj
                (congrArg LocalsWithDiagnostics.missReason hmiss)))
          · refine fun h => .of_miss fun _ _ other hother hdiffer => ?_
            obtain rfl := Option.some.inj (hdeciding.symm.trans hother)
            have hundecided := (h hsearches).2 rfl step hother hdiffer
            rw [← Choice.refused_iff hdiffer, hdecision] at hundecided
            exact hreason hundecided
        · rw [heq]
          have hnostep (step : Step) (hstep : decidingStep (errorSteps sha1 (searched s clock)
              requestId error clock) = some step) : False :=
            Option.some_ne_none step (hstep.symm.trans hdeciding)
          exact ⟨fun _ _ => ⟨huntagged, fun _ step hstep => (hnostep step hstep).elim⟩,
            fun _ => .of_miss fun _ _ step hstep => (hnostep step hstep).elim⟩
  · obtain ⟨reason, hmiss⟩ := lookup_unready sha1 s requestId error clock hsearches
    rw [hmiss]
    exact ⟨fun _ h => absurd h hsearches, fun _ => .of_miss fun h => absurd h hsearches⟩

end Lookup

/-! ## Runs -/

variable {sha1 : Text → Text} {s t : State} {a : Action}

/-- The step lemma. -/
theorem State.Numbered.step (h : s.Numbered) (hstep : s.step sha1 a = some t) : t.Numbered := by
  cases a with
  | pause now =>
      obtain rfl := Option.some.inj hstep
      exact h.pause now
  | store id capture now => exact h.store hstep
  | resize capacity =>
      obtain rfl := Option.some.inj hstep
      exact h.resize capacity
  | lookup ready requestId error clock =>
      obtain rfl := Option.some.inj hstep
      exact h.lookup

theorem State.Numbered.returnedOnce (h : s.Numbered) : ReturnedOnce s :=
  (List.nodup_append.mp (List.nodup_append.mp h.nodup).2.1).2.1

theorem correlates_iff (h : s.Numbered) (a : Action) :
    Correlates sha1 s a ↔ TellsApart sha1 s a := by
  cases a with
  | lookup ready requestId error clock => exact correlated_iff h
  | pause now => exact Iff.rfl
  | store id capture now => exact Iff.rfl
  | resize capacity => exact Iff.rfl

theorem numbered_preserved (sha1 : Text → Text) :
    (system sha1).Preserved (TellsApart sha1) State.Numbered where
  init s := by
    rintro ⟨capacity, ttlMs, rfl⟩
    exact State.numbered_new capacity ttlMs
  step _ _ _ h _ hstep := h.step hstep

/-- Over any run of pauses, captures and lookups, no array of frames is returned twice and every
lookup correlates, if and only if every lookup tells the entries apart. -/
theorem always_correlated_iff (sha1 : Text → Text) (capacity ttlMs : Nat) (as : List Action) :
    (system sha1).Always ReturnedOnce (new capacity ttlMs) as ∧
        (system sha1).Guarded (Correlates sha1) (new capacity ttlMs) as ↔
      (system sha1).Guarded (TellsApart sha1) (new capacity ttlMs) as :=
  Transition.System.always_and_guarded_iff (numbered_preserved sha1)
    (fun _ h => h.returnedOnce) (fun _ a _ h _ hguard => (correlates_iff h a).mpr hguard)
    (fun _ a _ h _ _ hcorrelates => (correlates_iff h a).mp hcorrelates)
    (State.numbered_new capacity ttlMs)

/-! ### Two captures of one request -/

/-- `sha1` of the one function in the run below. -/
def handlerDigest (_ : Text) : Text := "31a81ec93db3740ee3984fc40e34a60b0412643d"

def boomAt (lineNumber : Nat) : Capture where
  requestId := some ("req-1" : Text)
  errorName := "Error"
  errorMessage := "boom"
  callFrames := ["handler"]
  frames := [⟨"handler", "/app/src/handler.js", lineNumber, 5⟩]

def boom : LookedUpError where
  name := "Error"
  message := "boom"
  stack := some "Error: boom\n    at handler (/app/src/handler.js:10:5)".toList
  captureId := none

def unhindered : Readiness where
  captureLocalVariables := true
  guardTripped := false
  available := true
  mainThread := true
  object := true
  initialized := true

/-- Two throws of one function in a request, and the lookup of the first one's error. -/
def twoThrows : List Action :=
  [.pause 0, .store 1 (boomAt 10) 0, .pause 0, .store 2 (boomAt 20) 0,
    .lookup unhindered (some ("req-1" : Text)) boom fun _ => 5]

/-- The lookup hands out the frames of the other throw. -/
theorem twoThrows_mixed :
    ¬((system handlerDigest).Always ReturnedOnce (new 50 LOCALS_CACHE_TTL_MS) twoThrows ∧
      (system handlerDigest).Guarded (Correlates handlerDigest) (new 50 LOCALS_CACHE_TTL_MS)
        twoThrows) := by
  rintro ⟨-, hrun⟩
  have hlookup := ((((hrun.tail rfl).tail rfl).tail rfl).tail rfl).head rfl
  have hmiss := hlookup.refused ⟨rfl, rfl⟩ rfl _ rfl
    ⟨_, List.mem_cons_self, _, List.mem_cons_of_mem _ List.mem_cons_self, by decide +kernel⟩
  exact absurd hmiss (by decide +kernel)

end ErrorCore.InspectorManager
