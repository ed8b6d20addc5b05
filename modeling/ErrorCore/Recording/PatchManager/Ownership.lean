import ErrorCore.Recording.PatchManager.Entries

/-!
# Ownership of the wrapped methods

The store of an object is read through its prototype chain, and so is the
function that a wrapper is put around. A call for an object that inherits from a
wrapped one can therefore take over the wrapper of the other object. While no
call does, a function has at most one live gate, and an `unwrapMethod` undoes
what has been done.
-/

namespace ErrorCore.PatchManager

/-! ## What is to hold -/

/-- A state and, by the number of a wrapper, the own property that it has replaced: `none` where
the method was inherited. -/
structure History where
  state : State
  before : Nat → Option Fn

namespace History

variable (objects : Prototypes) (h : History)

/-- The own property as it was before the SDK wrapped it. -/
def unwrapped (target : Nat) (methodName : Text) : Option Fn :=
  match h.state.own target methodName with
  | none => none
  | some f =>
      match getOwnedWrapperMetadata f methodName with
      | none => some f
      | some (wrapper, predecessor) =>
          if (h.state.installed[wrapper]?).any fun made => made.target = target then
            h.before wrapper
          else some predecessor

def step (a : Action) : Option History :=
  (h.state.act objects a).map fun state =>
    { state
      before := match a with
        | .wrapMethod target methodName _ =>
            Function.update h.before h.state.installed.length (h.unwrapped target methodName)
        | .unwrapMethod _ _ | .assign _ _ _ => h.before }

/-- Every method runs the original under it once and at most one implementation of the SDK. -/
def RunsOnce : Prop :=
  ∀ target methodName f, h.state.read objects target methodName = some f →
    originals (f.call h.state.live) = [f.underlying] ∧
      (implementations (f.call h.state.live)).length ≤ 1

/-- The methods of the other objects and their wrappers are as they were. -/
structure Frame (target : Nat) (h h' : History) : Prop where
  methods : ∀ object, object ≠ target → h'.state.own object = h.state.own object
  wrappers : ∀ (wrapper : Nat) made, h.state.installed[wrapper]? = some made →
    made.target ≠ target → h'.state.live wrapper = h.state.live wrapper

/-- The wrappers of the method are deactivated. One that is the method has given way to what the
method was before. -/
structure Undone (target : Nat) (methodName : Text) (h h' : History) : Prop where
  deactivated : ∀ (wrapper : Nat) made, h.state.installed[wrapper]? = some made →
    made.target = target → made.methodName = methodName → h'.state.live wrapper = false
  restored : ∀ (wrapper : Nat) made predecessor, h.state.installed[wrapper]? = some made →
    made.target = target →
    h.state.own target methodName = some (.owned wrapper methodName predecessor) →
    h'.state.own target methodName = h.before wrapper

/-- What a step owes to the methods. -/
def Respects (a : Action) : Prop :=
  ∀ h', h.step objects a = some h' → Frame a.target h h' ∧
    ∀ target methodName, a = .unwrapMethod target methodName → Undone target methodName h h'

end History

def system (objects : Prototypes) : Transition.System History Action where
  init h := h.state.Initial
  step h a := h.step objects a

/-- A call works on what belongs to its target: the entry it finds is of the target, a live gate in
the function it wraps is the one of this entry, and the gate an `unwrapMethod` finds as the method
is live and has replaced an own property. -/
def OwnsWhatItFinds (objects : Prototypes) (h : History) : Action → Prop
  | .wrapMethod target methodName implements =>
      (∀ installation, h.state.found objects target methodName = some installation →
        installation.target = target) ∧
      ∀ f, h.state.read objects target methodName = some f →
        ∀ wrapper ∈ f.reached implements methodName, h.state.live wrapper = true →
          (h.state.found objects target methodName).map (·.wrapper) = some wrapper
  | .unwrapMethod target methodName =>
      (∀ installation, h.state.found objects target methodName = some installation →
        installation.target = target) ∧
      ∀ (wrapper : Nat) made predecessor, h.state.installed[wrapper]? = some made →
        made.target = target →
        h.state.own target methodName = some (.owned wrapper methodName predecessor) →
        h.state.live wrapper = true ∧ h.before wrapper ≠ none
  | .assign _ _ _ => True

/-! ## Runs -/

namespace History

variable {objects : Prototypes} {h h' : History} {a : Action} {target : Nat} {methodName : Text}

/-- The invariant of the runs. A wrapper that has replaced an own property has that property as its
predecessor. -/
structure Held (objects : Prototypes) (h : History) : Prop where
  consistent : h.state.Consistent objects
  recorded : ∀ (wrapper : Nat) made f, h.state.installed[wrapper]? = some made →
    h.before wrapper = some f → f = made.predecessor

theorem Held.of_initial (h0 : h.state.Initial) : Held objects h := by
  have hget (store : Nat) (name : Text) : h.state.get store name = none := by
    rw [State.get, h0.stores]
    rfl
  refine ⟨⟨?_, ?_, ?_, ?_, ?_⟩, ?_⟩
  · rw [h0.installed]
    exact h0.own
  · intro wrapper made hmade
    rw [h0.installed, List.getElem?_nil] at hmade
    contradiction
  · intro wrapper hlive
    rw [h0.live] at hlive
    contradiction
  · intro wrapper made _ hlive
    rw [h0.live] at hlive
    contradiction
  · intro store name entry hentry
    rw [hget] at hentry
    contradiction
  · intro wrapper made f hmade
    rw [h0.installed, List.getElem?_nil] at hmade
    contradiction

/-- Where the invariant holds, no method runs two implementations. -/
theorem Held.runsOnce (hh : Held objects h) : h.RunsOnce objects := by
  intro target name f hread
  obtain ⟨object, hown⟩ := State.exists_own_of_read hread
  refine ⟨Fn.originals_call h.state.live f, ?_⟩
  rw [Fn.implementations_call]
  exact (hh.consistent.own_known object name f hown).live_le_one hh.consistent.quiet

theorem step_wrapMethod {implements : Bool}
    (hstep : h.step objects (.wrapMethod target methodName implements) = some h') :
    h'.state = h.state.wrapMethod objects target methodName implements ∧
      h'.before = Function.update h.before h.state.installed.length
        (h.unwrapped target methodName) := by
  obtain rfl := Option.some.inj hstep
  exact ⟨rfl, rfl⟩

theorem step_unwrapMethod (hstep : h.step objects (.unwrapMethod target methodName) = some h') :
    h'.state = h.state.unwrapMethod objects target methodName ∧ h'.before = h.before := by
  obtain rfl := Option.some.inj hstep
  exact ⟨rfl, rfl⟩

theorem step_assign {value : Fn}
    (hstep : h.step objects (.assign target methodName value) = some h') :
    value.Known h.state.installed ∧ h'.state = h.state.write target methodName value ∧
      h'.before = h.before := by
  obtain ⟨state, hact, rfl⟩ := Option.map_eq_some_iff.mp hstep
  rw [State.act] at hact
  split at hact
  · next hknown =>
    obtain rfl := Option.some.inj hact
    exact ⟨hknown, rfl, rfl⟩
  · contradiction

/-! ### Assignments -/

theorem Held.write (hh : Held objects h) {value : Fn} (hknown : value.Known h.state.installed)
    (hstate : h'.state = h.state.write target methodName value) (hbefore : h'.before = h.before) :
    Held objects h' := by
  obtain ⟨hc, hrecorded⟩ := hh
  refine ⟨?_, ?_⟩
  · rw [hstate]
    refine ⟨fun object name f hf => ?_, hc.made, hc.listed, hc.quiet,
      fun store name entry hentry => ?_⟩
    · rw [State.own_write] at hf
      split at hf
      · obtain rfl := Option.some.inj hf
        exact hknown
      · exact hc.own_known object name f hf
    · obtain ⟨hmade, hname, hlive, hsees, hown⟩ := hc.stored store name entry hentry
      refine ⟨hmade, hname, hlive, hsees, ?_⟩
      rw [State.own_write]
      split
      · exact Option.some_ne_none _
      · exact hown
  · rw [hstate, hbefore]
    exact hrecorded

/-! ### Calls -/

/-- What the new wrapper has replaced is what the call has recorded. -/
theorem Held.recorded_new (hh : Held objects h) {u : State}
    (hcleared : h.state.Cleared objects target methodName u)
    (hmine : ∀ entry, h.state.found objects target methodName = some entry →
      entry.target = target)
    {current f : Fn} (hread : u.read objects target methodName = some current)
    (hbefore : h.unwrapped target methodName = some f) : f = current.inside methodName := by
  obtain ⟨hc, hrecorded⟩ := hh
  rw [unwrapped] at hbefore
  cases hown : h.state.own target methodName with
  | none => rw [hown] at hbefore; contradiction
  | some slot =>
      rw [hown] at hbefore
      dsimp only at hbefore
      cases hmetadata : getOwnedWrapperMetadata slot methodName with
      | none =>
          rw [hmetadata] at hbefore
          obtain rfl := Option.some.inj hbefore
          rcases hcleared.read hmine with hsame | ⟨entry, -, hgate, -⟩
          · rw [hsame, State.read_of_own hown] at hread
            obtain rfl := Option.some.inj hread
            exact (Fn.inside_of_none hmetadata).symm
          · obtain rfl := Option.some.inj (hown.symm.trans hgate)
            rw [Fn.getOwnedWrapperMetadata_eq_some.mpr rfl] at hmetadata
            contradiction
      | some metadata =>
          obtain ⟨wrapper, predecessor⟩ := metadata
          obtain rfl := Fn.getOwnedWrapperMetadata_eq_some.mp hmetadata
          have hknown := hc.own_known _ _ _ hown
          -- The property was the predecessor of the gate that is now the method.
          have hf : f = predecessor := by
            obtain ⟨made, hmade, hsame⟩ := Option.map_eq_some_iff.mp hknown.1
            rw [hmetadata] at hbefore
            dsimp only at hbefore
            split at hbefore
            · exact (hrecorded wrapper made f hmade hbefore).trans (Prod.ext_iff.mp hsame).2
            · exact (Option.some.inj hbefore).symm
          rcases hcleared.read hmine with hsame | ⟨entry, hfound, hgate, hnow⟩
          · rw [hsame, State.read_of_own hown] at hread
            obtain rfl := Option.some.inj hread
            rw [Fn.inside_owned]
            exact hf
          · obtain rfl := Option.some.inj (hnow.symm.trans hread)
            obtain ⟨hmade, hname, -⟩ := State.found_stored hc hfound
            obtain ⟨-, -, rfl⟩ := Fn.owned.inj (Option.some.inj (hown.symm.trans hgate))
            have hinside := (hc.made entry.wrapper entry hmade).2.2
            rw [hname] at hinside
            rw [Fn.inside_of_none hinside]
            exact hf

theorem Held.wrapMethod (hh : Held objects h) {implements : Bool}
    (hguard : OwnsWhatItFinds objects h (.wrapMethod target methodName implements))
    (hstep : h.step objects (.wrapMethod target methodName implements) = some h') :
    Held objects h' := by
  obtain ⟨hc, hrecorded⟩ := hh
  obtain ⟨hmine, hgates⟩ := hguard
  obtain ⟨hstate, hbefore⟩ := step_wrapMethod hstep
  obtain ⟨u, store, hcleared, hvisible, hfree, hwrap⟩ :=
    State.wrapMethod_spec hc target methodName implements
  rw [hwrap] at hstate
  have hold : ∀ (wrapper : Nat) made f, h.state.installed[wrapper]? = some made →
      h'.before wrapper = some f → f = made.predecessor := by
    intro wrapper made f hmade hf
    rw [hbefore, Function.update_of_ne (Nat.ne_of_lt (List.getElem?_eq_some_iff.mp hmade).1)] at hf
    exact hrecorded wrapper made f hmade hf
  rcases State.rewrap_of_quiet store fun _ hread =>
      hcleared.quiet hc hmine hgates hread with hnone | ⟨current, rfl, hread, hgate⟩
  · rw [hnone] at hstate
    refine ⟨hstate ▸ hcleared.consistent, ?_⟩
    rw [hstate, hcleared.installed]
    exact hold
  · rw [hgate] at hstate
    have hquiet := hcleared.quiet hc hmine hgates hread
    rw [Fn.reached, if_pos rfl] at hquiet
    refine ⟨hstate ▸ hcleared.consistent.withGate hvisible hfree hread hquiet, ?_⟩
    intro wrapper made f hmade hf
    rw [hstate] at hmade
    change (u.installed ++ [_])[wrapper]? = some made at hmade
    rw [hcleared.installed] at hmade
    rcases Nat.lt_or_ge wrapper h.state.installed.length with hlt | hge
    · rw [List.getElem?_append_left hlt] at hmade
      exact hold wrapper made f hmade hf
    · have hlt := (List.getElem?_eq_some_iff.mp hmade).1
      rw [List.length_append, List.length_singleton] at hlt
      obtain rfl : wrapper = h.state.installed.length := by omega
      rw [List.getElem?_concat_length] at hmade
      obtain rfl := Option.some.inj hmade
      rw [hbefore, Function.update_self] at hf
      exact Held.recorded_new ⟨hc, hrecorded⟩ hcleared hmine hread hf

theorem Held.unwrapMethod (hh : Held objects h)
    (hstep : h.step objects (.unwrapMethod target methodName) = some h') : Held objects h' := by
  obtain ⟨hstate, hbefore⟩ := step_unwrapMethod hstep
  have hcleared := State.unwrapMethod_cleared hh.consistent target methodName
  rw [← hstate] at hcleared
  refine ⟨hcleared.consistent, ?_⟩
  rw [hcleared.installed, hbefore]
  exact hh.recorded

/-- The step lemma. -/
theorem Held.step (hh : Held objects h) (hguard : OwnsWhatItFinds objects h a)
    (hstep : h.step objects a = some h') : Held objects h' := by
  cases a with
  | wrapMethod target methodName implements => exact hh.wrapMethod hguard hstep
  | unwrapMethod target methodName => exact hh.unwrapMethod hstep
  | assign target methodName value =>
      obtain ⟨hknown, hstate, hbefore⟩ := step_assign hstep
      exact hh.write hknown hstate hbefore

/-! ### What a call owes -/

/-- An entry of the target is taken back without touching the other objects. -/
theorem frame_of_cleared (hc : h.state.Consistent objects)
    (hcleared : h.state.Cleared objects target methodName h'.state)
    (hmine : ∀ entry, h.state.found objects target methodName = some entry →
      entry.target = target) : Frame target h h' := by
  refine ⟨fun object hobject => funext fun name => ?_, fun wrapper made hmade hother => ?_⟩
  · rcases hcleared.own object name with hsame | ⟨entry, hfound, htarget, -⟩
    · exact hsame
    · exact absurd (htarget.trans (hmine entry hfound)) hobject
  · refine Bool.eq_iff_iff.mpr ((hcleared.live wrapper).trans ⟨fun hlive => hlive.1,
      fun hlive => ⟨hlive, fun hentry => ?_⟩⟩)
    obtain ⟨entry, hfound, rfl⟩ := Option.map_eq_some_iff.mp hentry
    obtain ⟨hwas, -, -⟩ := State.found_stored hc hfound
    obtain rfl := Option.some.inj (hwas.symm.trans hmade)
    exact hother (hmine _ hfound)

theorem Held.respects_wrapMethod (hh : Held objects h) {implements : Bool}
    (hguard : OwnsWhatItFinds objects h (.wrapMethod target methodName implements))
    (hstep : h.step objects (.wrapMethod target methodName implements) = some h') :
    Frame target h h' := by
  obtain ⟨hc, -⟩ := hh
  obtain ⟨hmine, hgates⟩ := hguard
  obtain ⟨hstate, -⟩ := step_wrapMethod hstep
  obtain ⟨u, store, hcleared, -, -, hwrap⟩ :=
    State.wrapMethod_spec hc target methodName implements
  rw [hwrap] at hstate
  have hframe : Frame target h ⟨u, h.before⟩ := frame_of_cleared hc hcleared hmine
  rcases State.rewrap_of_quiet store fun _ hread =>
      hcleared.quiet hc hmine hgates hread with hnone | ⟨current, -, -, hgate⟩
  · rw [hnone] at hstate
    refine ⟨?_, ?_⟩
    · rw [hstate]
      exact hframe.methods
    · rw [hstate]
      exact hframe.wrappers
  · rw [hgate] at hstate
    refine ⟨fun object hobject => ?_, fun wrapper made hmade hother => ?_⟩
    · rw [hstate, ← hframe.methods object hobject]
      exact Function.update_of_ne hobject _ _
    · have hlt := (List.getElem?_eq_some_iff.mp hmade).1
      rw [← hcleared.installed] at hlt
      rw [hstate, ← hframe.wrappers wrapper made hmade hother]
      exact Function.update_of_ne (Nat.ne_of_lt hlt) _ _

theorem Held.respects_unwrapMethod (hh : Held objects h)
    (hguard : OwnsWhatItFinds objects h (.unwrapMethod target methodName))
    (hstep : h.step objects (.unwrapMethod target methodName) = some h') :
    Frame target h h' ∧ Undone target methodName h h' := by
  obtain ⟨hc, hrecorded⟩ := hh
  obtain ⟨hmine, hgates⟩ := hguard
  obtain ⟨hstate, -⟩ := step_unwrapMethod hstep
  have hcleared := State.unwrapMethod_cleared hc target methodName
  rw [← hstate] at hcleared
  refine ⟨frame_of_cleared hc hcleared hmine, ?_, ?_⟩
  · rintro wrapper made hmade rfl rfl
    refine Bool.eq_false_iff.mpr fun hlive => ?_
    obtain ⟨hbefore, hne⟩ := (hcleared.live wrapper).mp hlive
    rw [State.found_of_live hc hmade hbefore, Option.map_some] at hne
    exact hne (congrArg some (hc.made wrapper made hmade).1)
  · rintro wrapper made predecessor hmade rfl hown
    obtain ⟨hlive, hreplaced⟩ := hgates wrapper made predecessor hmade rfl hown
    obtain ⟨f, hf⟩ := Option.ne_none_iff_exists'.mp hreplaced
    obtain ⟨rfl, rfl⟩ := (hc.own_known _ _ _ hown).made hmade
    obtain rfl := (hc.made wrapper made hmade).1
    rw [hf, hrecorded _ made f hmade hf]
    exact hcleared.gate made (State.found_of_live hc hmade hlive) hown

/-- A call that owns what it finds respects the methods. -/
theorem Held.respects (hh : Held objects h) (hguard : OwnsWhatItFinds objects h a) :
    h.Respects objects a := by
  intro h' hstep
  cases a with
  | wrapMethod target methodName implements =>
      refine ⟨hh.respects_wrapMethod hguard hstep, fun other name heq => ?_⟩
      exact Action.noConfusion heq
  | unwrapMethod target methodName =>
      obtain ⟨hframe, hundone⟩ := hh.respects_unwrapMethod hguard hstep
      refine ⟨hframe, fun other name heq => ?_⟩
      obtain ⟨rfl, rfl⟩ := Action.unwrapMethod.inj heq
      exact hundone
  | assign target methodName value =>
      obtain ⟨-, hstate, -⟩ := step_assign hstep
      refine ⟨⟨fun object hobject => ?_, fun wrapper made _ _ => ?_⟩, fun other name heq => ?_⟩
      · rw [hstate]
        exact Function.update_of_ne hobject _ _
      · rw [hstate]
        rfl
      · exact Action.noConfusion heq

/-! ### Where the guard is missed -/

/-- The entry a call takes back is of its target, or a wrapper of another object is deactivated. -/
theorem entry_of_frame (hc : h.state.Consistent objects) {u : State}
    (hcleared : h.state.Cleared objects target methodName u)
    (hlive : ∀ wrapper, wrapper ≠ h.state.installed.length →
      h'.state.live wrapper = true → u.live wrapper = true)
    (hframe : Frame target h h') {entry : OwnedWrapperInstallation}
    (hfound : h.state.found objects target methodName = some entry) : entry.target = target := by
  by_contra hother
  obtain ⟨hmade, -, hbefore⟩ := State.found_stored hc hfound
  have hlt := (List.getElem?_eq_some_iff.mp hmade).1
  have hstill := hframe.wrappers entry.wrapper entry hmade hother
  rw [hbefore] at hstill
  have hnow := (hcleared.live entry.wrapper).mp (hlive _ (Nat.ne_of_lt hlt) hstill)
  exact hnow.2 (by rw [hfound]; rfl)

theorem Held.owns_of_wrapMethod (hh : Held objects h) {implements : Bool}
    (hstep : h.step objects (.wrapMethod target methodName implements) = some h')
    (hruns : h'.RunsOnce objects) (hframe : Frame target h h') :
    OwnsWhatItFinds objects h (.wrapMethod target methodName implements) := by
  obtain ⟨hc, -⟩ := hh
  obtain ⟨hstate, -⟩ := step_wrapMethod hstep
  obtain ⟨u, store, hcleared, -, -, hwrap⟩ :=
    State.wrapMethod_spec hc target methodName implements
  rw [hwrap] at hstate
  have hmine : ∀ entry, h.state.found objects target methodName = some entry →
      entry.target = target := fun entry hfound =>
    entry_of_frame hc hcleared (fun wrapper hne hlive => by
      rw [hstate] at hlive
      rw [← hcleared.installed] at hne
      exact (State.live_of_rewrap hlive hne).1) hframe hfound
  refine ⟨hmine, fun f hf wrapper hmem hlive => ?_⟩
  by_contra hne
  have hstill : u.live wrapper = true := (hcleared.live wrapper).mpr ⟨hlive, hne⟩
  obtain ⟨object, hobject⟩ := State.exists_own_of_read hf
  have hknown := hc.own_known object methodName f hobject
  -- A gate in the predecessor of the found entry is dead.
  have hread : u.read objects target methodName = some f := by
    rcases hcleared.read hmine with hsame | ⟨entry, hfound, hown, -⟩
    · exact hsame.trans hf
    · obtain rfl := Option.some.inj (hf.symm.trans (State.read_of_own hown))
      obtain ⟨hmade, -, hentry⟩ := State.found_stored hc hfound
      rcases List.mem_cons.mp (State.mem_wrappers_of_reached hmem) with rfl | hinner
      · exact absurd (by rw [hfound]; rfl) hne
      · rw [hc.quiet entry.wrapper entry hmade hentry wrapper hinner] at hlive
        contradiction
  have hlt : wrapper < u.installed.length := by
    rw [hcleared.installed]
    exact hknown.lt (State.mem_wrappers_of_reached hmem)
  by_cases hgate : ∃ predecessor, getOwnedWrapperMetadata f methodName = some (wrapper, predecessor)
  · -- The gate is deactivated. It is a wrapper of another object, as the target's would be found.
    obtain ⟨predecessor, hmetadata⟩ := hgate
    obtain rfl := Fn.getOwnedWrapperMetadata_eq_some.mp hmetadata
    obtain ⟨made, hmade, -⟩ := Option.map_eq_some_iff.mp hknown.1
    obtain ⟨rfl, -⟩ := hknown.made hmade
    have hother : made.target ≠ target := by
      rintro rfl
      refine hne ?_
      rw [State.found_of_live hc hmade hlive, Option.map_some]
      exact congrArg some (hc.made wrapper made hmade).1
    have hafter := hframe.wrappers wrapper made hmade hother
    rw [hlive, hstate] at hafter
    exact (State.live_of_rewrap hafter (Nat.ne_of_lt hlt)).2 _ hread predecessor hmetadata
  · -- The gate is live under the new one.
    obtain ⟨rfl, hinside⟩ := State.inside_of_reached hmem hgate
    have hrun := (hruns target methodName _
      (hstate ▸ State.read_of_own (State.own_rewrap hread))).2
    rw [Fn.implementations_call, hstate] at hrun
    have hnew := State.live_rewrap_new store hread
    have hkept := State.live_rewrap_of_not_gate store hread hstill (Nat.ne_of_lt hlt)
      fun predecessor hmetadata => hgate ⟨predecessor, hmetadata⟩
    rw [Fn.wrappers, List.filter_cons_of_pos hnew, List.length_cons] at hrun
    have hpos := List.length_pos_of_mem (List.mem_filter.mpr ⟨hinside, hkept⟩)
    omega

theorem Held.owns_of_unwrapMethod (hh : Held objects h)
    (hstep : h.step objects (.unwrapMethod target methodName) = some h')
    (hframe : Frame target h h') (hundone : Undone target methodName h h') :
    OwnsWhatItFinds objects h (.unwrapMethod target methodName) := by
  obtain ⟨hc, hrecorded⟩ := hh
  obtain ⟨hstate, -⟩ := step_unwrapMethod hstep
  have hcleared := State.unwrapMethod_cleared hc target methodName
  rw [← hstate] at hcleared
  refine ⟨fun entry hfound => entry_of_frame hc hcleared (fun _ _ hlive => hlive) hframe hfound,
    fun wrapper made predecessor hmade hmine hown => ?_⟩
  have hrestored := hundone.restored wrapper made predecessor hmade hmine hown
  obtain ⟨rfl, rfl⟩ := (hc.own_known _ _ _ hown).made hmade
  -- The gate is the method before and would be afterwards, unless its entry is taken back.
  have hstays (hsame : h'.state.own target made.methodName = h.state.own target made.methodName) :
      False := by
    rw [hsame, hown] at hrestored
    have hself := hrecorded wrapper made _ hmade hrestored.symm
    have hsize := congrArg sizeOf hself
    simp at hsize
  rcases hcleared.own target made.methodName with hsame | ⟨entry, hfound, -, -, hgate, hnow⟩
  · exact (hstays hsame).elim
  · obtain ⟨rfl, -⟩ := Fn.owned.inj (Option.some.inj (hown.symm.trans hgate))
    refine ⟨(State.found_stored hc hfound).2.2, fun hnone => ?_⟩
    rw [hnow, hnone] at hrestored
    contradiction

/-- A step that misses the guard runs two implementations or fails to respect the methods. -/
theorem Held.owns (hh : Held objects h) (hstep : h.step objects a = some h')
    (hruns : h'.RunsOnce objects) (hrespects : h.Respects objects a) :
    OwnsWhatItFinds objects h a := by
  obtain ⟨hframe, hundone⟩ := hrespects h' hstep
  cases a with
  | wrapMethod target methodName implements => exact hh.owns_of_wrapMethod hstep hruns hframe
  | unwrapMethod target methodName =>
      exact hh.owns_of_unwrapMethod hstep hframe (hundone target methodName rfl)
  | assign target methodName value => trivial

theorem held_preserved (objects : Prototypes) :
    (system objects).Preserved (OwnsWhatItFinds objects) (Held objects) where
  init _ h0 := .of_initial h0
  step _ _ _ hh hguard hstep := hh.step hguard hstep

/-- The object 1 inherits from the object 0. -/
def twoClasses : Prototypes where
  chain target := if target = 1 then [1, 0] else [target]
  head target := by
    by_cases h : target = 1
    · exact ⟨[0], by rw [if_pos h, h]⟩
    · exact ⟨[], if_neg h⟩
  inherits target before object rest h := by
    by_cases htarget : target = 1
    · rw [if_pos htarget] at h
      cases before with
      | nil =>
          obtain ⟨rfl, rfl⟩ := List.cons.inj h
          rfl
      | cons first before =>
          cases before with
          | nil =>
              obtain ⟨rfl, rfl⟩ := List.cons.inj (List.cons.inj h).2
              rfl
          | cons second before =>
              have hlength := congrArg List.length h
              simp at hlength
    · rw [if_neg htarget] at h
      cases before with
      | nil =>
          obtain ⟨rfl, rfl⟩ := List.cons.inj h
          rw [if_neg htarget]
      | cons first before =>
          have hlength := congrArg List.length h
          simp at hlength

/-- The object 0 has a method. -/
def oneMethod : History where
  state :=
    { own := fun object name =>
        if object = 0 ∧ name = "query".toList then some (.original 7) else none
      stores := fun _ => none
      live := fun _ => false
      installed := [] }
  before _ := none

theorem oneMethod_initial : oneMethod.state.Initial where
  stores _ := rfl
  live _ := rfl
  installed := rfl
  own target name f hf := by
    change (if target = 0 ∧ name = "query".toList then some (Fn.original 7) else none) =
      some f at hf
    split at hf
    · obtain rfl := Option.some.inj hf
      trivial
    · contradiction

end History

end ErrorCore.PatchManager
