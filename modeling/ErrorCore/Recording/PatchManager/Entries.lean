import ErrorCore.Recording.PatchManager

/-!
# The entries of the stores

A live gate has its entry in the store that its target sees, and its predecessor
has no live gate. Taking an entry back keeps this, and so does a gate that is
put on a function without live ones.
-/

namespace ErrorCore.PatchManager

/-! ## Functions -/

def originals (events : List Event) : List Nat :=
  events.filterMap fun event => match event with
    | .original id => some id
    | .foreign _ | .implementation _ => none

def implementations (events : List Event) : List Nat :=
  events.filterMap fun event => match event with
    | .implementation wrapper => some wrapper
    | .original _ | .foreign _ => none

/-- The entry that a call finds. -/
def State.found (objects : Prototypes) (s : State) (target : Nat) (methodName : Text) :
    Option OwnedWrapperInstallation :=
  (s.visibleStore objects target).bind fun store => s.get store methodName

/-- The gates that end up under the new one. Without an implementation there is none, and only a
gate that is the method is deactivated. -/
def Fn.reached (implements : Bool) (methodName : Text) (f : Fn) : List Nat :=
  if implements then f.wrappers
  else ((getOwnedWrapperMetadata f methodName).map (·.1)).toList

namespace Fn

variable {installed more : List OwnedWrapperInstallation} {live : Nat → Bool} {f : Fn}

theorem originals_call (live : Nat → Bool) (f : Fn) :
    originals (f.call live) = [f.underlying] := by
  induction f with
  | original id => rfl
  | foreign id inner ih => exact ih
  | owned wrapper methodName predecessor ih =>
      rw [call]
      split
      · exact ih
      · exact ih

theorem implementations_call (live : Nat → Bool) (f : Fn) :
    implementations (f.call live) = f.wrappers.filter live := by
  induction f with
  | original id => rfl
  | foreign id inner ih => exact ih
  | owned wrapper methodName predecessor ih =>
      cases hlive : live wrapper with
      | true =>
          rw [call, wrappers, List.filter_cons_of_pos hlive, if_pos hlive]
          exact congrArg (wrapper :: ·) ih
      | false =>
          have hdead : ¬live wrapper = true := Bool.eq_false_iff.mp hlive
          rw [call, wrappers, List.filter_cons_of_neg hdead, if_neg hdead]
          exact ih

theorem Known.append (h : f.Known installed) : f.Known (installed ++ more) := by
  induction f with
  | original id => trivial
  | foreign id inner ih => exact ih h
  | owned wrapper methodName predecessor ih =>
      obtain ⟨made, hmade, hsame⟩ := Option.map_eq_some_iff.mp h.1
      refine ⟨?_, ih h.2⟩
      rw [List.getElem?_append_left (List.getElem?_eq_some_iff.mp hmade).1, hmade]
      exact congrArg some hsame

/-- A gate in a known function has been installed. -/
theorem Known.lt (h : f.Known installed) {wrapper : Nat} (hmem : wrapper ∈ f.wrappers) :
    wrapper < installed.length := by
  induction f with
  | original id => exact absurd hmem List.not_mem_nil
  | foreign id inner ih => exact ih h hmem
  | owned gate methodName predecessor ih =>
      rcases List.mem_cons.mp hmem with rfl | hrest
      · obtain ⟨made, hmade, -⟩ := Option.map_eq_some_iff.mp h.1
        exact (List.getElem?_eq_some_iff.mp hmade).1
      · exact ih h.2 hrest

theorem Known.made {wrapper : Nat} {methodName : Text} {predecessor : Fn}
    (h : (owned wrapper methodName predecessor).Known installed)
    {made : OwnedWrapperInstallation} (hmade : installed[wrapper]? = some made) :
    made.methodName = methodName ∧ made.predecessor = predecessor := by
  obtain ⟨other, hother, hsame⟩ := Option.map_eq_some_iff.mp h.1
  rw [hmade] at hother
  rw [Option.some.inj hother]
  exact Prod.ext_iff.mp hsame

/-- A gate whose predecessor has no live gate is the only live one of a function. -/
theorem Known.live_le_one (h : f.Known installed)
    (hquiet : ∀ (wrapper : Nat) made, installed[wrapper]? = some made → live wrapper = true →
      ∀ other ∈ made.predecessor.wrappers, live other = false) :
    (f.wrappers.filter live).length ≤ 1 := by
  induction f with
  | original id => exact Nat.zero_le 1
  | foreign id inner ih => exact ih h
  | owned wrapper methodName predecessor ih =>
      rw [wrappers, List.filter_cons]
      split
      · next hlive =>
        obtain ⟨made, hmade, hsame⟩ := Option.map_eq_some_iff.mp h.1
        have hnone : predecessor.wrappers.filter live = [] := by
          refine List.filter_eq_nil_iff.mpr fun other hother => ?_
          have hsame : made.predecessor = predecessor := (Prod.ext_iff.mp hsame).2
          rw [← hsame] at hother
          rw [hquiet wrapper made hmade hlive other hother]
          exact Bool.false_ne_true
        rw [hnone]
        exact Nat.le_refl 1
      · exact ih h.2

/-- What the source's `existing?.predecessor ?? current` is. -/
def inside (f : Fn) (methodName : Text) : Fn :=
  ((getOwnedWrapperMetadata f methodName).map (·.2)).getD f

theorem getOwnedWrapperMetadata_eq_some {methodName : Text} {wrapper : Nat} {predecessor : Fn} :
    getOwnedWrapperMetadata f methodName = some (wrapper, predecessor) ↔
      f = owned wrapper methodName predecessor := by
  cases f with
  | original id => simp [getOwnedWrapperMetadata]
  | foreign id inner => simp [getOwnedWrapperMetadata]
  | owned gate name inner =>
      rw [getOwnedWrapperMetadata]
      split
      · next hname => simp [hname]
      · next hname => simp [hname]

theorem inside_of_none {methodName : Text} (h : getOwnedWrapperMetadata f methodName = none) :
    f.inside methodName = f := by
  rw [inside, h]
  rfl

theorem inside_owned (wrapper : Nat) (methodName : Text) (predecessor : Fn) :
    (owned wrapper methodName predecessor).inside methodName = predecessor := by
  rw [inside, getOwnedWrapperMetadata_eq_some.mpr rfl]
  rfl

end Fn

/-! ## Properties and stores -/

/-- What the runs of the calls rely on. The entries of the stores are the live wrappers, each in the
store that its target sees. -/
structure State.Consistent (objects : Prototypes) (s : State) : Prop where
  own_known : ∀ target methodName f, s.own target methodName = some f → f.Known s.installed
  made : ∀ (wrapper : Nat) made, s.installed[wrapper]? = some made → made.wrapper = wrapper ∧
    made.predecessor.Known s.installed ∧
      getOwnedWrapperMetadata made.predecessor made.methodName = none
  listed : ∀ wrapper, s.live wrapper = true → ∃ made store, s.installed[wrapper]? = some made ∧
    s.visibleStore objects made.target = some store ∧ s.get store made.methodName = some made
  quiet : ∀ (wrapper : Nat) made, s.installed[wrapper]? = some made → s.live wrapper = true →
    ∀ other ∈ made.predecessor.wrappers, s.live other = false
  stored : ∀ store methodName entry, s.get store methodName = some entry →
    s.installed[entry.wrapper]? = some entry ∧ entry.methodName = methodName ∧
      s.live entry.wrapper = true ∧ s.visibleStore objects entry.target = some store ∧
        s.own entry.target methodName ≠ none

namespace State

variable {objects : Prototypes} {s u : State} {target : Nat} {methodName : Text} {f : Fn}

theorem read_of_own (h : s.own target methodName = some f) :
    s.read objects target methodName = some f := by
  obtain ⟨rest, hchain⟩ := objects.head target
  rw [read, hchain, List.findSome?_cons, h]

theorem exists_own_of_read (h : s.read objects target methodName = some f) :
    ∃ object, s.own object methodName = some f := by
  obtain ⟨object, -, hown⟩ := List.exists_of_findSome?_eq_some h
  exact ⟨object, hown⟩

theorem read_congr (h : ∀ object, u.own object methodName = s.own object methodName) :
    u.read objects target methodName = s.read objects target methodName := by
  rw [read, read]
  exact congrArg (objects.chain target).findSome? (funext h)

theorem visibleStore_congr (h : ∀ object, (u.stores object).isSome = (s.stores object).isSome) :
    u.visibleStore objects target = s.visibleStore objects target := by
  rw [visibleStore, visibleStore]
  exact congrArg (fun p => (objects.chain target).find? p) (funext h)

theorem stores_of_visibleStore {store : Nat} (h : s.visibleStore objects target = some store) :
    (s.stores store).isSome = true := by
  have hfound := List.find?_some h
  exact hfound

theorem stores_eq_none (h : s.visibleStore objects target = none) : s.stores target = none := by
  obtain ⟨rest, hchain⟩ := objects.head target
  have habsent := List.find?_eq_none.mp h target (hchain ▸ List.mem_cons_self)
  exact Option.not_isSome_iff_eq_none.mp habsent

@[simp] theorem own_write (value : Fn) (object : Nat) (name : Text) :
    (s.write target methodName value).own object name =
      if object = target ∧ name = methodName then some value else s.own object name := by
  rw [write]
  dsimp only
  by_cases hobject : object = target
  · subst hobject
    rw [Function.update_self]
    by_cases hname : name = methodName
    · subst hname
      rw [Function.update_self, if_pos ⟨rfl, rfl⟩]
    · rw [Function.update_of_ne hname, if_neg fun h => hname h.2]
  · rw [Function.update_of_ne hobject, if_neg fun h => hobject h.1]

@[simp] theorem stores_write (value : Fn) :
    (s.write target methodName value).stores = s.stores := rfl

@[simp] theorem live_write (value : Fn) : (s.write target methodName value).live = s.live := rfl

@[simp] theorem installed_write (value : Fn) :
    (s.write target methodName value).installed = s.installed := rfl

theorem get_put {store : Nat} (h : (s.stores store).isSome = true)
    (entry : Option OwnedWrapperInstallation) (owner : Nat) (name : Text) :
    (s.put store methodName entry).get owner name =
      if owner = store ∧ name = methodName then entry else s.get owner name := by
  obtain ⟨entries, hentries⟩ := Option.isSome_iff_exists.mp h
  rw [get, get, put]
  dsimp only
  by_cases howner : owner = store
  · subst howner
    rw [Function.update_self, hentries, Option.map_some, Option.bind_some, Option.bind_some]
    by_cases hname : name = methodName
    · subst hname
      rw [Function.update_self, if_pos ⟨rfl, rfl⟩]
    · rw [Function.update_of_ne hname, if_neg fun h => hname h.2]
  · rw [Function.update_of_ne howner, if_neg fun h => howner h.1]

theorem visibleStore_put (store : Nat) (entry : Option OwnedWrapperInstallation) :
    (s.put store methodName entry).visibleStore objects target =
      s.visibleStore objects target := by
  refine visibleStore_congr fun object => ?_
  rw [put]
  dsimp only
  by_cases hobject : object = store
  · subst hobject
    rw [Function.update_self, Option.isSome_map]
  · rw [Function.update_of_ne hobject]

/-- The store that an object sees stays the one it sees. A new store is made where none is seen,
so that an object before the store on the chain would have seen it. -/
theorem visibleStore_create {object store : Nat} (hnone : s.visibleStore objects target = none)
    (hsome : s.visibleStore objects object = some store) :
    ({ s with stores := Function.update s.stores target (some fun _ => none) } :
      State).visibleStore objects object = some store := by
  obtain ⟨hstore, before, rest, hchain, hbefore⟩ := List.find?_eq_some_iff_append.mp hsome
  have hne {other : Nat} (hother : (s.stores other).isSome = true)
      (htail : other ∈ objects.chain target) : False := by
    have habsent := List.find?_eq_none.mp hnone other htail
    exact habsent hother
  obtain ⟨tail, htarget⟩ := objects.head target
  refine List.find?_eq_some_iff_append.mpr ⟨?_, before, rest, hchain, fun other hother => ?_⟩
  · have hdiffer : store ≠ target := by
      rintro rfl
      exact hne hstore (htarget ▸ List.mem_cons_self)
    dsimp only
    rw [Function.update_of_ne hdiffer]
    exact hstore
  · have hdiffer : other ≠ target := by
      rintro rfl
      obtain ⟨first, second, rfl⟩ := List.append_of_mem hother
      rw [List.append_assoc, List.cons_append] at hchain
      have hinherits := objects.inherits _ _ _ _ hchain
      refine hne hstore ?_
      rw [hinherits]
      exact List.mem_cons_of_mem _ (List.mem_append_right _ List.mem_cons_self)
    dsimp only
    rw [Function.update_of_ne hdiffer]
    exact hbefore other hother

/-! ## The store of a target -/

/-- `getOwnedMethodStore` shows the target a store and changes no method, wrapper or entry. -/
theorem getOwnedMethodStore_spec (h : s.Consistent objects) (target : Nat) :
    ∃ u store, s.getOwnedMethodStore objects target = (u, store) ∧ u.Consistent objects ∧
      u.visibleStore objects target = some store ∧ u.own = s.own ∧ u.live = s.live ∧
        u.installed = s.installed ∧
          ∀ name, u.get store name = s.found objects target name := by
  rw [getOwnedMethodStore]
  split
  · next store hstore =>
    refine ⟨s, store, rfl, h, hstore, rfl, rfl, rfl, fun name => ?_⟩
    rw [found, hstore, Option.bind_some]
  · next hnone =>
    have hget (owner : Nat) (name : Text) :
        ({ s with stores := Function.update s.stores target (some fun _ => none) } :
          State).get owner name = s.get owner name := by
      rw [get, get]
      dsimp only
      by_cases howner : owner = target
      · subst howner
        rw [Function.update_self, stores_eq_none hnone]
        rfl
      · rw [Function.update_of_ne howner]
    refine ⟨_, target, rfl, ?_, ?_, rfl, rfl, rfl, fun name => ?_⟩
    · refine ⟨h.own_known, h.made, fun wrapper hlive => ?_, h.quiet,
        fun store name entry hentry => ?_⟩
      · obtain ⟨made, store, hmade, hvisible, hentry⟩ := h.listed wrapper hlive
        exact ⟨made, store, hmade, visibleStore_create hnone hvisible, (hget _ _).trans hentry⟩
      · obtain ⟨hmade, hname, hlive, hvisible, hown⟩ :=
          h.stored store name entry ((hget _ _).symm.trans hentry)
        exact ⟨hmade, hname, hlive, visibleStore_create hnone hvisible, hown⟩
    · obtain ⟨rest, hchain⟩ := objects.head target
      rw [visibleStore, hchain]
      refine List.find?_cons_of_pos ?_
      dsimp only
      rw [Function.update_self]
      rfl
    · rw [found, hnone, hget, get, stores_eq_none hnone]
      rfl

/-! ## Taking an installation back -/

section Restore

variable {i : OwnedWrapperInstallation}

@[simp] theorem stores_restore (i : OwnedWrapperInstallation) :
    (s.restore objects i).stores = s.stores := by
  rw [restore]
  split
  · split
    · rfl
    · rfl
  · rfl

@[simp] theorem live_restore (i : OwnedWrapperInstallation) :
    (s.restore objects i).live = Function.update s.live i.wrapper false := by
  rw [restore]
  split
  · split
    · rfl
    · rfl
  · rfl

@[simp] theorem installed_restore (i : OwnedWrapperInstallation) :
    (s.restore objects i).installed = s.installed := by
  rw [restore]
  split
  · split
    · rfl
    · rfl
  · rfl

/-- A gate that is still the method gives way to its predecessor. -/
theorem own_restore_gate {predecessor : Fn}
    (h : s.own i.target i.methodName = some (.owned i.wrapper i.methodName predecessor))
    (object : Nat) (name : Text) :
    (s.restore objects i).own object name =
      if object = i.target ∧ name = i.methodName then some i.predecessor
      else s.own object name := by
  have hread : (s.deactivate i.wrapper).read objects i.target i.methodName =
      some (.owned i.wrapper i.methodName predecessor) := read_of_own h
  rw [restore]
  rw [hread]
  dsimp only
  rw [if_pos rfl, own_write]
  rfl

/-- Any other method stays. -/
theorem own_restore_other (h : s.own i.target i.methodName = some f)
    (hother : ∀ name predecessor, f ≠ .owned i.wrapper name predecessor) :
    (s.restore objects i).own = s.own := by
  have hread : (s.deactivate i.wrapper).read objects i.target i.methodName = some f :=
    read_of_own h
  rw [restore]
  rw [hread]
  split
  · next wrapper name predecessor heq =>
    split
    · next hsame =>
      obtain rfl := Option.some.inj heq
      exact absurd (congrArg (Fn.owned · name predecessor) hsame) (hother name predecessor)
    · rfl
  · rfl

end Restore

/-- What has happened where the entry of a method is taken back, if there is one. -/
structure Cleared (objects : Prototypes) (target : Nat) (methodName : Text) (s u : State) :
    Prop where
  consistent : u.Consistent objects
  installed : u.installed = s.installed
  live : ∀ wrapper, u.live wrapper = true ↔ s.live wrapper = true ∧
    (s.found objects target methodName).map (·.wrapper) ≠ some wrapper
  /-- Only a gate that is the method of the entry's target changes. -/
  own : ∀ object name, u.own object name = s.own object name ∨
    ∃ entry, s.found objects target methodName = some entry ∧ object = entry.target ∧
      name = methodName ∧
      s.own object name = some (.owned entry.wrapper methodName entry.predecessor) ∧
      u.own object name = some entry.predecessor
  gate : ∀ entry, s.found objects target methodName = some entry →
    s.own entry.target methodName = some (.owned entry.wrapper methodName entry.predecessor) →
    u.own entry.target methodName = some entry.predecessor

theorem Cleared.of_none (h : s.Consistent objects)
    (hnone : s.found objects target methodName = none) :
    s.Cleared objects target methodName s := by
  refine ⟨h, rfl, fun wrapper => ?_, fun _ _ => .inl rfl, fun entry hentry => ?_⟩
  · rw [hnone]
    exact ⟨fun hlive => ⟨hlive, (Option.some_ne_none wrapper).symm⟩, fun hlive => hlive.1⟩
  · rw [hnone] at hentry
    exact absurd hentry (Option.some_ne_none entry).symm

/-- Taking an entry back keeps the others. -/
theorem Cleared.of_restore (h : s.Consistent objects) {store : Nat}
    {entry : OwnedWrapperInstallation}
    (hvisible : s.visibleStore objects target = some store)
    (hentry : s.get store methodName = some entry) :
    s.Cleared objects target methodName
      ((s.restore objects entry).put store methodName none) := by
  obtain ⟨hmade, hname, hlive, hseen, hown⟩ := h.stored store methodName entry hentry
  have hfound : s.found objects target methodName = some entry := by
    rw [found, hvisible, Option.bind_some, hentry]
  have hstores : (s.restore objects entry).stores = s.stores := stores_restore entry
  have hvisible_eq (object : Nat) :
      ((s.restore objects entry).put store methodName none).visibleStore objects object =
        s.visibleStore objects object := by
    rw [visibleStore_put]
    exact visibleStore_congr fun other => by rw [hstores]
  have hget (owner : Nat) (name : Text) :
      ((s.restore objects entry).put store methodName none).get owner name =
        if owner = store ∧ name = methodName then none else s.get owner name := by
    rw [get_put (by rw [hstores]; exact stores_of_visibleStore hvisible), get, hstores, get]
  have hlive_eq (wrapper : Nat) :
      ((s.restore objects entry).put store methodName none).live wrapper = true ↔
        s.live wrapper = true ∧ wrapper ≠ entry.wrapper := by
    change (s.restore objects entry).live wrapper = true ↔ _
    rw [live_restore]
    by_cases hwrapper : wrapper = entry.wrapper
    · subst hwrapper
      rw [Function.update_self]
      exact ⟨fun hfalse => absurd hfalse Bool.false_ne_true, fun hpair => absurd rfl hpair.2⟩
    · rw [Function.update_of_ne hwrapper]
      exact ⟨fun htrue => ⟨htrue, hwrapper⟩, fun hpair => hpair.1⟩
  have hinstalled : ((s.restore objects entry).put store methodName none).installed =
      s.installed := installed_restore entry
  -- What the method of the entry's target is now.
  have hown_cases (object : Nat) (name : Text) :
      (s.restore objects entry).own object name = s.own object name ∨
        object = entry.target ∧ name = methodName ∧
          s.own object name = some (.owned entry.wrapper methodName entry.predecessor) ∧
          (s.restore objects entry).own object name = some entry.predecessor := by
    obtain ⟨f, hf⟩ := Option.ne_none_iff_exists'.mp hown
    rw [← hname] at hf
    by_cases hgate : ∀ label predecessor, f ≠ .owned entry.wrapper label predecessor
    · exact .inl (congrFun (congrFun (own_restore_other hf hgate) object) name)
    · push Not at hgate
      obtain ⟨label, predecessor, rfl⟩ := hgate
      obtain ⟨rfl, rfl⟩ := (h.own_known _ _ _ hf).made hmade
      rw [own_restore_gate hf]
      split
      · next hsame =>
        obtain ⟨rfl, rfl⟩ := hsame
        exact .inr ⟨rfl, hname, hname ▸ hf, rfl⟩
      · exact .inl rfl
  refine ⟨⟨?_, ?_, ?_, ?_, ?_⟩, hinstalled, ?_, ?_, ?_⟩
  · intro object name f hf
    rw [hinstalled]
    rcases hown_cases object name with hsame | ⟨-, -, -, hpredecessor⟩
    · exact h.own_known object name f (hsame.symm.trans hf)
    · obtain rfl := Option.some.inj (hpredecessor.symm.trans hf)
      exact (h.made entry.wrapper entry hmade).2.1
  · rw [hinstalled]
    exact h.made
  · intro wrapper hwrapper
    obtain ⟨hbefore, hne⟩ := (hlive_eq wrapper).mp hwrapper
    obtain ⟨made, owner, hwas, hsees, hlisted⟩ := h.listed wrapper hbefore
    refine ⟨made, owner, by rw [hinstalled]; exact hwas, (hvisible_eq _).trans hsees, ?_⟩
    rw [hget, if_neg, hlisted]
    rintro ⟨rfl, hsame⟩
    rw [hsame, hentry] at hlisted
    obtain rfl := Option.some.inj hlisted
    exact hne (h.made wrapper entry hwas).1.symm
  · intro wrapper made hwas hwrapper other hother
    rw [hinstalled] at hwas
    have hquiet := h.quiet wrapper made hwas ((hlive_eq wrapper).mp hwrapper).1 other hother
    refine Bool.eq_false_iff.mpr fun htrue => ?_
    rw [((hlive_eq other).mp htrue).1] at hquiet
    contradiction
  · intro owner name made hstored
    rw [hget] at hstored
    split at hstored
    · contradiction
    · next hkey =>
      obtain ⟨hwas, hlabel, hbefore, hsees, hset⟩ := h.stored owner name made hstored
      refine ⟨by rw [hinstalled]; exact hwas, hlabel, ?_, (hvisible_eq _).trans hsees, ?_⟩
      · refine (hlive_eq _).mpr ⟨hbefore, fun hsame => hkey ?_⟩
        rw [hsame, hmade] at hwas
        obtain rfl := Option.some.inj hwas
        exact ⟨Option.some.inj (hsees.symm.trans hseen), hlabel.symm.trans hname⟩
      · rcases hown_cases made.target name with hsame | ⟨-, -, -, hpredecessor⟩
        · exact fun hnone => hset (hsame.symm.trans hnone)
        · exact fun hnone => Option.some_ne_none _ (hpredecessor.symm.trans hnone)
  · intro wrapper
    rw [hlive_eq, hfound, Option.map_some]
    exact and_congr_right fun _ => ⟨fun hne heq => hne (Option.some.inj heq).symm,
      fun hne heq => hne (congrArg some heq.symm)⟩
  · intro object name
    rcases hown_cases object name with hsame | ⟨htarget, hlabel, hgate, hnow⟩
    · exact .inl hsame
    · exact .inr ⟨entry, hfound, htarget, hlabel, hgate, hnow⟩
  · intro other hother hgate
    obtain rfl := Option.some.inj (hfound.symm.trans hother)
    rw [← hname] at hgate ⊢
    change (s.restore objects entry).own entry.target entry.methodName = _
    rw [own_restore_gate hgate, if_pos ⟨rfl, rfl⟩]

theorem Cleared.of_restoreExisting (h : s.Consistent objects) {store : Nat}
    (hvisible : s.visibleStore objects target = some store) :
    s.Cleared objects target methodName (s.restoreExisting objects store methodName) := by
  rw [restoreExisting]
  split
  · next hentry =>
    refine .of_none h ?_
    rw [found, hvisible, Option.bind_some, hentry]
  · next entry hentry => exact .of_restore h hvisible hentry

theorem get_restoreExisting {store : Nat} (h : (s.stores store).isSome = true) :
    (s.restoreExisting objects store methodName).get store methodName = none := by
  rw [restoreExisting]
  split
  · next hentry => exact hentry
  · next entry hentry =>
    rw [get_put (by rw [stores_restore]; exact h), if_pos ⟨rfl, rfl⟩]

theorem visibleStore_restoreExisting (store object : Nat) :
    (s.restoreExisting objects store methodName).visibleStore objects object =
      s.visibleStore objects object := by
  rw [restoreExisting]
  split
  · rfl
  · rw [visibleStore_put]
    exact visibleStore_congr fun other => by rw [stores_restore]

/-- `unwrapMethod` takes the entry back that it finds. -/
theorem unwrapMethod_cleared (h : s.Consistent objects) (target : Nat) (methodName : Text) :
    s.Cleared objects target methodName (s.unwrapMethod objects target methodName) := by
  rw [unwrapMethod]
  split
  · next hvisible =>
    refine .of_none h ?_
    rw [found, hvisible, Option.bind_none]
  · next store hvisible => exact .of_restoreExisting h hvisible

/-! ## Installing a wrapper -/

/-- What `installOwnedWrapper` returns. -/
def installation (s : State) (target : Nat) (methodName : Text) (current : Fn) :
    OwnedWrapperInstallation :=
  { wrapper := s.installed.length, target, methodName, predecessor := current.inside methodName }

/-- The gate is the method, it is live, and its entry is in the store. -/
def withGate (s : State) (store : Nat) (i : OwnedWrapperInstallation) : State :=
  { s.write i.target i.methodName (.owned i.wrapper i.methodName i.predecessor) with
    live := Function.update s.live i.wrapper true
    installed := s.installed ++ [i]
    stores := (s.put store i.methodName (some i)).stores }

theorem getOwnedWrapperMetadata_reached {wrapper : Nat} {predecessor : Fn}
    (h : getOwnedWrapperMetadata f methodName = some (wrapper, predecessor)) (implements : Bool) :
    wrapper ∈ f.reached implements methodName := by
  cases implements with
  | false =>
      rw [Fn.reached, if_neg Bool.false_ne_true, h]
      exact List.mem_singleton_self wrapper
  | true =>
      rw [Fn.reached, if_pos rfl, Fn.getOwnedWrapperMetadata_eq_some.mp h]
      exact List.mem_cons_self

theorem deactivate_of_dead {wrapper : Nat} (h : s.live wrapper = false) :
    s.deactivate wrapper = s := by
  rw [deactivate, ← h, Function.update_eq_self]

/-- The existing gate, which `installOwnedWrapper` deactivates. -/
def taken (s : State) (methodName : Text) (current : Fn) : State :=
  ((getOwnedWrapperMetadata current methodName).map fun metadata =>
    s.deactivate metadata.1).getD s

theorem taken_of_dead {implements : Bool} {current : Fn}
    (h : ∀ wrapper ∈ current.reached implements methodName, s.live wrapper = false) :
    s.taken methodName current = s := by
  rw [taken]
  cases hmetadata : getOwnedWrapperMetadata current methodName with
  | none => rfl
  | some metadata =>
      exact deactivate_of_dead (h _ (getOwnedWrapperMetadata_reached hmetadata implements))

theorem installOwnedWrapper_none {implements : Bool}
    (h : s.read objects target methodName = none) :
    s.installOwnedWrapper objects target methodName implements = (s, none) := by
  rw [installOwnedWrapper, h]

theorem installOwnedWrapper_false {current : Fn}
    (h : s.read objects target methodName = some current) :
    s.installOwnedWrapper objects target methodName false =
      (s.taken methodName current, none) := by
  rw [installOwnedWrapper, h]
  rfl

theorem installOwnedWrapper_true {current : Fn} (store : Nat)
    (h : s.read objects target methodName = some current) :
    ∃ u, s.installOwnedWrapper objects target methodName true =
        (u, some (s.installation target methodName current)) ∧
      u.put store methodName (some (s.installation target methodName current)) =
        { s.withGate store (s.installation target methodName current) with
          live := Function.update (s.taken methodName current).live s.installed.length true } := by
  rw [installOwnedWrapper, h]
  refine ⟨_, rfl, ?_⟩
  cases hmetadata : getOwnedWrapperMetadata current methodName with
  | none =>
      simp only [installation, Fn.inside, taken, hmetadata]
      rfl
  | some metadata =>
      simp only [installation, Fn.inside, taken, hmetadata]
      rfl

/-- A gate on a function without live gates keeps the others apart. -/
theorem Consistent.withGate (h : s.Consistent objects) {store : Nat} {current : Fn}
    (hvisible : s.visibleStore objects target = some store)
    (hfree : s.get store methodName = none)
    (hread : s.read objects target methodName = some current)
    (hquiet : ∀ wrapper ∈ current.wrappers, s.live wrapper = false) :
    (s.withGate store (s.installation target methodName current)).Consistent objects := by
  obtain ⟨object, hobject⟩ := exists_own_of_read hread
  have hknown : current.Known s.installed := h.own_known object methodName current hobject
  -- The predecessor is a known function without live gates, and no gate of the same name.
  obtain ⟨hinside, houtside, hsub⟩ :
      (current.inside methodName).Known s.installed ∧
        getOwnedWrapperMetadata (current.inside methodName) methodName = none ∧
        ∀ wrapper ∈ (current.inside methodName).wrappers, wrapper ∈ current.wrappers := by
    cases hmetadata : getOwnedWrapperMetadata current methodName with
    | none =>
        rw [Fn.inside_of_none hmetadata]
        exact ⟨hknown, hmetadata, fun _ hmem => hmem⟩
    | some metadata =>
        obtain ⟨wrapper, predecessor⟩ := metadata
        obtain rfl := Fn.getOwnedWrapperMetadata_eq_some.mp hmetadata
        rw [Fn.inside_owned]
        obtain ⟨made, hmade, hsame⟩ := Option.map_eq_some_iff.mp hknown.1
        obtain ⟨rfl, rfl⟩ := Prod.ext_iff.mp hsame
        exact ⟨hknown.2, (h.made wrapper made hmade).2.2, fun _ hmem => List.mem_cons_of_mem _ hmem⟩
  have hstores : ∀ owner, ((s.withGate store (s.installation target methodName current)).stores
      owner).isSome = (s.stores owner).isSome := by
    intro owner
    change ((s.put store methodName _).stores owner).isSome = _
    rw [put]
    by_cases howner : owner = store
    · subst howner
      simp
    · simp [Function.update_of_ne howner]
  have hvisible_eq (other : Nat) :
      (s.withGate store (s.installation target methodName current)).visibleStore objects other =
        s.visibleStore objects other := visibleStore_congr hstores
  have hget (owner : Nat) (name : Text) :
      (s.withGate store (s.installation target methodName current)).get owner name =
        if owner = store ∧ name = methodName then
          some (s.installation target methodName current)
        else s.get owner name :=
    get_put (stores_of_visibleStore hvisible) _ owner name
  have hlive_ne {wrapper : Nat} (hne : wrapper ≠ s.installed.length) :
      (s.withGate store (s.installation target methodName current)).live wrapper =
        s.live wrapper := Function.update_of_ne hne _ _
  have hlive_self : (s.withGate store (s.installation target methodName current)).live
      s.installed.length = true := Function.update_self _ _ _
  have hold {wrapper : Nat} {made : OwnedWrapperInstallation}
      (hmade : s.installed[wrapper]? = some made) :
      (s.installed ++ [s.installation target methodName current])[wrapper]? = some made ∧
        wrapper ≠ s.installed.length := by
    have hlt := (List.getElem?_eq_some_iff.mp hmade).1
    exact ⟨(List.getElem?_append_left hlt).trans hmade, Nat.ne_of_lt hlt⟩
  have hnew : (s.installed ++ [s.installation target methodName current])[s.installed.length]? =
      some (s.installation target methodName current) := List.getElem?_concat_length
  have hcases {wrapper : Nat} {made : OwnedWrapperInstallation}
      (hmade : (s.installed ++ [s.installation target methodName current])[wrapper]? = some made) :
      s.installed[wrapper]? = some made ∨
        wrapper = s.installed.length ∧ made = s.installation target methodName current := by
    rcases Nat.lt_or_ge wrapper s.installed.length with hlt | hge
    · exact .inl ((List.getElem?_append_left hlt).symm.trans hmade)
    · have hlt := (List.getElem?_eq_some_iff.mp hmade).1
      rw [List.length_append, List.length_singleton] at hlt
      obtain rfl : wrapper = s.installed.length := by omega
      exact .inr ⟨rfl, Option.some.inj (hmade.symm.trans hnew)⟩
  refine ⟨?_, ?_, ?_, ?_, ?_⟩
  · intro other name f hf
    change (s.write target methodName _).own other name = some f at hf
    rw [own_write] at hf
    split at hf
    · obtain rfl := Option.some.inj hf
      refine ⟨?_, hinside.append⟩
      change Option.map _ (s.installed ++ [_])[s.installed.length]? = _
      rw [hnew]
      rfl
    · exact (h.own_known other name f hf).append
  · intro wrapper made hmade
    rcases hcases hmade with hbefore | ⟨rfl, rfl⟩
    · obtain ⟨hwrapper, hpredecessor, hname⟩ := h.made wrapper made hbefore
      exact ⟨hwrapper, hpredecessor.append, hname⟩
    · exact ⟨rfl, hinside.append, houtside⟩
  · intro wrapper hlive
    by_cases hwrapper : wrapper = s.installed.length
    · subst hwrapper
      exact ⟨_, store, hnew, (hvisible_eq _).trans hvisible, (hget _ _).trans (if_pos ⟨rfl, rfl⟩)⟩
    · rw [hlive_ne hwrapper] at hlive
      obtain ⟨made, owner, hmade, hsees, hentry⟩ := h.listed wrapper hlive
      refine ⟨made, owner, (hold hmade).1, (hvisible_eq _).trans hsees, ?_⟩
      rw [hget, if_neg, hentry]
      rintro ⟨rfl, hsame⟩
      rw [hsame, hfree] at hentry
      contradiction
  · intro wrapper made hmade hlive other hother
    rcases hcases hmade with hbefore | ⟨rfl, rfl⟩
    · have hlt := (h.made wrapper made hbefore).2.1.lt hother
      rw [hlive_ne (hold hbefore).2] at hlive
      rw [hlive_ne (Nat.ne_of_lt hlt)]
      exact h.quiet wrapper made hbefore hlive other hother
    · have hlt := hinside.lt hother
      rw [hlive_ne (Nat.ne_of_lt hlt)]
      exact hquiet other (hsub other hother)
  · intro owner name entry hentry
    rw [hget] at hentry
    split at hentry
    · next hkey =>
      obtain ⟨rfl, rfl⟩ := hkey
      obtain rfl := Option.some.inj hentry
      refine ⟨hnew, rfl, hlive_self, (hvisible_eq _).trans hvisible, ?_⟩
      change (s.write target name _).own target name ≠ none
      rw [own_write, if_pos ⟨rfl, rfl⟩]
      exact Option.some_ne_none _
    · obtain ⟨hmade, hname, hlive, hsees, hown⟩ := h.stored owner name entry hentry
      refine ⟨(hold hmade).1, hname, (hlive_ne (hold hmade).2).trans hlive,
        (hvisible_eq _).trans hsees, ?_⟩
      change (s.write target methodName _).own entry.target name ≠ none
      rw [own_write]
      split
      · exact Option.some_ne_none _
      · exact hown

/-! ## The calls -/

theorem found_stored (h : s.Consistent objects) {entry : OwnedWrapperInstallation}
    (hfound : s.found objects target methodName = some entry) :
    s.installed[entry.wrapper]? = some entry ∧ entry.methodName = methodName ∧
      s.live entry.wrapper = true := by
  obtain ⟨store, -, hentry⟩ := Option.bind_eq_some_iff.mp hfound
  obtain ⟨hmade, hname, hlive, -, -⟩ := h.stored store methodName entry hentry
  exact ⟨hmade, hname, hlive⟩

/-- A live wrapper of the method is the entry that a call for it finds. -/
theorem found_of_live (h : s.Consistent objects) {wrapper : Nat}
    {made : OwnedWrapperInstallation} (hmade : s.installed[wrapper]? = some made)
    (hlive : s.live wrapper = true) :
    s.found objects made.target made.methodName = some made := by
  obtain ⟨other, store, hother, hsees, hentry⟩ := h.listed wrapper hlive
  obtain rfl := Option.some.inj (hmade.symm.trans hother)
  rw [found, hsees, Option.bind_some, hentry]

/-- What `wrapMethod` does after it has taken back the entry. -/
def rewrap (objects : Prototypes) (u : State) (store target : Nat) (methodName : Text)
    (implements : Bool) : State :=
  match u.read objects target methodName with
  | none => u
  | some current =>
      if implements then
        { u.withGate store (u.installation target methodName current) with
          live := Function.update (u.taken methodName current).live u.installed.length true }
      else u.taken methodName current

theorem wrapMethod_spec (h : s.Consistent objects) (target : Nat) (methodName : Text)
    (implements : Bool) :
    ∃ u store, s.Cleared objects target methodName u ∧
      u.visibleStore objects target = some store ∧ u.get store methodName = none ∧
      s.wrapMethod objects target methodName implements =
        u.rewrap objects store target methodName implements := by
  obtain ⟨shown, store, heq, hshown, hvisible, hown, hlive, hinstalled, hget⟩ :=
    getOwnedMethodStore_spec h target
  have hfound : shown.found objects target methodName = s.found objects target methodName := by
    rw [found, hvisible, Option.bind_some, hget]
  have hcleared : shown.Cleared objects target methodName
      (shown.restoreExisting objects store methodName) := .of_restoreExisting hshown hvisible
  refine ⟨shown.restoreExisting objects store methodName, store,
    ⟨hcleared.consistent, hcleared.installed.trans hinstalled, ?_, ?_, ?_⟩,
    (visibleStore_restoreExisting store target).trans hvisible,
    get_restoreExisting (stores_of_visibleStore hvisible), ?_⟩
  · rw [← hfound, ← hlive]
    exact hcleared.live
  · rw [← hfound, ← hown]
    exact hcleared.own
  · rw [← hfound, ← hown]
    exact hcleared.gate
  · rw [wrapMethod, heq]
    dsimp only
    rw [rewrap]
    cases hread : (shown.restoreExisting objects store methodName).read objects target
      methodName with
    | none => rw [installOwnedWrapper_none hread]
    | some current =>
        cases implements with
        | false =>
            rw [installOwnedWrapper_false hread]
            rfl
        | true =>
            obtain ⟨v, hinstall, hput⟩ := installOwnedWrapper_true store hread
            rw [hinstall]
            exact hput

theorem live_of_taken {current : Fn} {wrapper : Nat}
    (h : (s.taken methodName current).live wrapper = true) :
    s.live wrapper = true ∧ ∀ predecessor,
      getOwnedWrapperMetadata current methodName ≠ some (wrapper, predecessor) := by
  rw [taken] at h
  cases hmetadata : getOwnedWrapperMetadata current methodName with
  | none =>
      rw [hmetadata] at h
      exact ⟨h, fun _ => (Option.some_ne_none _).symm⟩
  | some metadata =>
      rw [hmetadata] at h
      change Function.update s.live metadata.1 false wrapper = true at h
      by_cases hwrapper : wrapper = metadata.1
      · rw [hwrapper, Function.update_self] at h
        contradiction
      · rw [Function.update_of_ne hwrapper] at h
        refine ⟨h, fun predecessor heq => hwrapper ?_⟩
        rw [Option.some.inj heq]

/-- A wrapper is live after the call if it was before and is not the method, or is the new one. -/
theorem live_of_rewrap {store wrapper : Nat} {implements : Bool}
    (h : (u.rewrap objects store target methodName implements).live wrapper = true)
    (hold : wrapper ≠ u.installed.length) :
    u.live wrapper = true ∧ ∀ current, u.read objects target methodName = some current →
      ∀ predecessor, getOwnedWrapperMetadata current methodName ≠ some (wrapper, predecessor) := by
  rw [rewrap] at h
  cases hread : u.read objects target methodName with
  | none =>
      rw [hread] at h
      exact ⟨h, fun current heq => absurd heq.symm (Option.some_ne_none current)⟩
  | some current =>
      rw [hread] at h
      have htaken : (u.taken methodName current).live wrapper = true := by
        cases implements with
        | false => exact h
        | true => exact (Function.update_of_ne hold _ _).symm.trans h
      refine ⟨(live_of_taken htaken).1, fun other heq => ?_⟩
      obtain rfl := Option.some.inj heq
      exact (live_of_taken htaken).2

theorem own_rewrap {store : Nat} {current : Fn}
    (h : u.read objects target methodName = some current) :
    (u.rewrap objects store target methodName true).own target methodName =
      some (.owned u.installed.length methodName (current.inside methodName)) := by
  rw [rewrap, h]
  change (u.write target methodName _).own target methodName = _
  rw [own_write, if_pos ⟨rfl, rfl⟩]
  rfl

theorem live_rewrap_new (store : Nat) {current : Fn}
    (h : u.read objects target methodName = some current) :
    (u.rewrap objects store target methodName true).live u.installed.length = true := by
  rw [rewrap, h]
  exact Function.update_self _ _ _

/-- Only a gate that is the method is deactivated. -/
theorem live_rewrap_of_not_gate (store : Nat) {wrapper : Nat} {current : Fn}
    (h : u.read objects target methodName = some current) (hlive : u.live wrapper = true)
    (hold : wrapper ≠ u.installed.length)
    (hgate : ∀ predecessor,
      getOwnedWrapperMetadata current methodName ≠ some (wrapper, predecessor)) :
    (u.rewrap objects store target methodName true).live wrapper = true := by
  rw [rewrap, h]
  refine (Function.update_of_ne hold _ _).trans ?_
  rw [taken]
  cases hmetadata : getOwnedWrapperMetadata current methodName with
  | none => exact hlive
  | some metadata =>
      refine (Function.update_of_ne (fun heq => hgate metadata.2 ?_) _ _).trans hlive
      rw [hmetadata, heq]

theorem Cleared.read (h : s.Cleared objects target methodName u)
    (hmine : ∀ entry, s.found objects target methodName = some entry → entry.target = target) :
    u.read objects target methodName = s.read objects target methodName ∨
      ∃ entry, s.found objects target methodName = some entry ∧
        s.own target methodName =
          some (.owned entry.wrapper methodName entry.predecessor) ∧
        u.read objects target methodName = some entry.predecessor := by
  by_cases hgate : ∃ entry, s.found objects target methodName = some entry ∧
      s.own target methodName = some (.owned entry.wrapper methodName entry.predecessor)
  · obtain ⟨entry, hfound, hown⟩ := hgate
    obtain rfl := hmine entry hfound
    exact .inr ⟨entry, hfound, hown, read_of_own (h.gate entry hfound hown)⟩
  · refine .inl (read_congr fun object => ?_)
    rcases h.own object methodName with hsame | ⟨entry, hfound, rfl, -, hown, -⟩
    · exact hsame
    · rw [hmine entry hfound] at hown
      exact absurd ⟨entry, hfound, hown⟩ hgate

theorem mem_wrappers_of_reached {implements : Bool} {wrapper : Nat}
    (h : wrapper ∈ f.reached implements methodName) : wrapper ∈ f.wrappers := by
  rw [Fn.reached] at h
  split at h
  · exact h
  · cases hmetadata : getOwnedWrapperMetadata f methodName with
    | none =>
        rw [hmetadata] at h
        exact absurd h List.not_mem_nil
    | some metadata =>
        rw [hmetadata] at h
        obtain rfl := List.mem_singleton.mp h
        rw [Fn.getOwnedWrapperMetadata_eq_some.mp hmetadata]
        exact List.mem_cons_self

/-- A reached gate that is not the method is under the new one. -/
theorem inside_of_reached {implements : Bool} {wrapper : Nat}
    (h : wrapper ∈ f.reached implements methodName)
    (hgate : ¬∃ predecessor, getOwnedWrapperMetadata f methodName = some (wrapper, predecessor)) :
    implements = true ∧ wrapper ∈ (f.inside methodName).wrappers := by
  cases hmetadata : getOwnedWrapperMetadata f methodName with
  | none =>
      rw [Fn.inside_of_none hmetadata]
      cases implements with
      | false =>
          rw [Fn.reached, if_neg Bool.false_ne_true, hmetadata] at h
          exact absurd h List.not_mem_nil
      | true => exact ⟨rfl, h⟩
  | some metadata =>
      obtain ⟨gate, predecessor⟩ := metadata
      have hne : wrapper ≠ gate := by
        rintro rfl
        exact hgate ⟨predecessor, hmetadata⟩
      cases implements with
      | false =>
          rw [Fn.reached, if_neg Bool.false_ne_true, hmetadata] at h
          exact absurd (List.mem_singleton.mp h) hne
      | true =>
          obtain rfl := Fn.getOwnedWrapperMetadata_eq_some.mp hmetadata
          rw [Fn.inside_owned]
          exact ⟨rfl, (List.mem_cons.mp h).resolve_left hne⟩

/-- Where a call owns what it finds, it wraps a function without live gates. -/
theorem Cleared.quiet (h : s.Cleared objects target methodName u) (hs : s.Consistent objects)
    (hmine : ∀ entry, s.found objects target methodName = some entry → entry.target = target)
    {implements : Bool}
    (hgates : ∀ f, s.read objects target methodName = some f →
      ∀ wrapper ∈ f.reached implements methodName, s.live wrapper = true →
        (s.found objects target methodName).map (·.wrapper) = some wrapper)
    {current : Fn} (hread : u.read objects target methodName = some current) :
    ∀ wrapper ∈ current.reached implements methodName, u.live wrapper = false := by
  intro wrapper hmem
  refine Bool.eq_false_iff.mpr fun hlive => ?_
  obtain ⟨hbefore, hne⟩ := (h.live wrapper).mp hlive
  rcases h.read hmine with hsame | ⟨entry, hfound, -, hpredecessor⟩
  · exact hne (hgates current (hsame.symm.trans hread) wrapper hmem hbefore)
  · obtain rfl := Option.some.inj (hread.symm.trans hpredecessor)
    obtain ⟨hmade, -, hentry⟩ := found_stored hs hfound
    have hquiet := hs.quiet entry.wrapper entry hmade hentry wrapper (mem_wrappers_of_reached hmem)
    rw [hbefore] at hquiet
    contradiction

/-- A call that owns what it finds puts a gate on a function without live ones, or none. -/
theorem rewrap_of_quiet (store : Nat) {implements : Bool}
    (h : ∀ current, u.read objects target methodName = some current →
      ∀ wrapper ∈ current.reached implements methodName, u.live wrapper = false) :
    u.rewrap objects store target methodName implements = u ∨
      ∃ current, implements = true ∧ u.read objects target methodName = some current ∧
        u.rewrap objects store target methodName implements =
          u.withGate store (u.installation target methodName current) := by
  rw [rewrap]
  cases hread : u.read objects target methodName with
  | none => exact .inl rfl
  | some current =>
      dsimp only
      rw [taken_of_dead (h current hread)]
      cases implements with
      | false => exact .inl (if_neg Bool.false_ne_true)
      | true => exact .inr ⟨current, rfl, rfl, if_pos rfl⟩

end State

end ErrorCore.PatchManager
