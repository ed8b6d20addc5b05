import ErrorCore.Capture.SourceMapResolver
import Mathlib.Data.List.Nodup
import Mathlib.Data.Set.Function

/-!
# No local is lost by renaming

The loop of `resolveLocalNames` writes each local under its own name or under a
name that no local has and that no local was given before. These names are
`targets`. They are distinct, so every write makes a new property, but for one
name: `__proto__` is a name of an original local like any other to the checks,
and writing it makes no property. The locals are kept exactly when the loop
renames nothing or does not come to this name.
-/

namespace ErrorCore.SourceMapResolver

variable {V : Type} {localeCompare : Text → Text → Int}

/-- The locals and the record that replaces them: the names are related by a bijection that keeps
the values and the names that are not minified, and no local gets the name of another. -/
def LosesNoLocal (locals record : List (Text × V)) : Prop :=
  ∃ rename : Text → Text,
    Set.InjOn rename {name | name ∈ locals.map (·.1)} ∧
    record.Perm (locals.map fun entry => (rename entry.1, entry.2)) ∧
    (∀ name ∈ locals.map (·.1), isMinifiedLocal name = false → rename name = name) ∧
    ∀ name ∈ locals.map (·.1), rename name ≠ name → rename name ∉ locals.map (·.1)

/-! ## Distinct targets -/

/-- The names under which the loop writes the locals `names`: the selected name, or their own. -/
def targets (localeCompare : Text → Text → Int) (candidates : Candidates) :
    List Text → List Text → List Text
  | _, [] => []
  | usedNames, name :: names =>
      match selectName localeCompare candidates usedNames name with
      | none => name :: targets localeCompare candidates usedNames names
      | some originalName =>
          originalName :: targets localeCompare candidates (usedNames ++ [originalName]) names

/-- What is collected: candidates for minified locals, with names of the mappings. -/
def Candidates.FromMappings (consumer : List Mapping) (minifiedNames : List Text)
    (candidates : Candidates) : Prop :=
  ∀ pair ∈ candidates, pair.1 ∈ minifiedNames ∧
    ∀ candidate ∈ pair.2, ∃ mapping ∈ consumer, mapping.name = some candidate.originalName

theorem addCandidate_fromMappings {consumer : List Mapping} {frame : Frame V}
    {original : OriginalPosition} {line : List Nat} {candidates : Candidates} {mapping : Mapping}
    (hmapping : mapping ∈ consumer)
    (h : candidates.FromMappings consumer frame.locals.minifiedNames) :
    (addCandidate frame original line candidates mapping).FromMappings consumer
      frame.locals.minifiedNames := by
  unfold addCandidate
  cases hname : mapping.name with
  | none => exact h
  | some name =>
      dsimp only
      split
      · exact h
      split
      · exact h
      split
      · exact h
      · next generatedName _ =>
          split
          · exact h
          · next hminified =>
              intro pair hpair
              rcases InsertionMap.mem_set hpair with rfl | ⟨hold, -⟩
              · refine ⟨not_not.mp hminified, ?_⟩
                intro candidate hcandidate
                rcases List.mem_append.mp hcandidate with hbucket | hnew
                · cases hget : InsertionMap.get? candidates generatedName with
                  | none => simp [hget] at hbucket
                  | some bucket =>
                      rw [hget, Option.getD_some] at hbucket
                      exact (h _ (InsertionMap.mem_of_get?_eq_some hget)).2 candidate hbucket
                · obtain rfl := List.mem_singleton.mp hnew
                  exact ⟨mapping, hmapping, hname⟩
              · exact h pair hold

theorem collectCandidates_fromMappings (consumer : List Mapping) (frame : Frame V)
    (original : OriginalPosition) (line : List Nat) :
    (collectCandidates consumer frame original line).FromMappings consumer
      frame.locals.minifiedNames := by
  suffices h : ∀ (mappings : List Mapping) (candidates : Candidates), mappings ⊆ consumer →
      candidates.FromMappings consumer frame.locals.minifiedNames →
      (mappings.foldl (addCandidate frame original line) candidates).FromMappings consumer
        frame.locals.minifiedNames by
    apply h consumer []
    · exact List.Subset.refl _
    · intro pair hpair
      cases hpair
  intro mappings
  induction mappings with
  | nil => exact fun _ _ h => h
  | cons mapping mappings ih =>
      intro candidates hsub h
      obtain ⟨hmapping, hrest⟩ := List.cons_subset.mp hsub
      exact ih _ hrest (addCandidate_fromMappings hmapping h)

section Select

variable {candidates : Candidates} {usedNames names : List Text} {name originalName : Text}

/-- A selected name is that of a candidate and is not used. -/
theorem selectName_spec (h : selectName localeCompare candidates usedNames name =
    some originalName) :
    originalName ∉ usedNames ∧ ∃ options, (name, options) ∈ candidates ∧
      ∃ candidate ∈ options, candidate.originalName = originalName := by
  unfold selectName at h
  cases hget : InsertionMap.get? candidates name with
  | none => simp [hget] at h
  | some options =>
      rw [hget] at h
      obtain ⟨candidate, hfind, hname⟩ := Option.map_eq_some_iff.mp h
      have hunused := List.find?_some hfind
      refine ⟨?_, options, InsertionMap.mem_of_get?_eq_some hget, candidate, ?_, hname⟩
      · simpa [hname] using hunused
      · exact List.mem_mergeSort.mp (List.mem_of_find?_eq_some hfind)

theorem length_targets : (targets localeCompare candidates usedNames names).length =
    names.length := by
  induction names generalizing usedNames with
  | nil => rfl
  | cons name names ih =>
      unfold targets
      split <;> simp [ih]

/-- Every local keeps its name or gets one that is not used. -/
theorem targets_spec (localeCompare : Text → Text → Int) (usedNames names : List Text)
    {consumer : List Mapping} {minifiedNames : List Text}
    (h : candidates.FromMappings consumer minifiedNames) :
    List.Forall₂
      (fun name target => target = name ∨ name ∈ minifiedNames ∧ target ∉ usedNames ∧
        ∃ mapping ∈ consumer, mapping.name = some target)
      names (targets localeCompare candidates usedNames names) := by
  induction names generalizing usedNames with
  | nil => exact .nil
  | cons name names ih =>
      unfold targets
      cases hselect : selectName localeCompare candidates usedNames name with
      | none => exact .cons (.inl rfl) (ih usedNames)
      | some originalName =>
          obtain ⟨hunused, options, hoptions, candidate, hcandidate, rfl⟩ :=
            selectName_spec hselect
          obtain ⟨hminified, hmappings⟩ := h _ hoptions
          apply List.Forall₂.cons
          · exact .inr ⟨hminified, hunused, hmappings candidate hcandidate⟩
          · apply (ih (usedNames ++ [candidate.originalName])).imp
            rintro other target (rfl | ⟨hother, htarget, hmapping⟩)
            · exact .inl rfl
            · refine .inr ⟨hother, ?_, hmapping⟩
              intro hused
              exact htarget (List.mem_append_left _ hused)

theorem mem_targets {target : Text}
    (h : target ∈ targets localeCompare candidates usedNames names) :
    target ∈ names ∨ target ∉ usedNames := by
  induction names generalizing usedNames with
  | nil => cases h
  | cons name names ih =>
      unfold targets at h
      cases hselect : selectName localeCompare candidates usedNames name with
      | none =>
          rw [hselect] at h
          rcases List.mem_cons.mp h with rfl | hrest
          · exact .inl List.mem_cons_self
          · exact (ih hrest).imp_left (List.mem_cons_of_mem _)
      | some originalName =>
          rw [hselect] at h
          rcases List.mem_cons.mp h with rfl | hrest
          · exact .inr (selectName_spec hselect).1
          · rcases ih hrest with hmem | hunused
            · exact .inl (List.mem_cons_of_mem _ hmem)
            · exact .inr fun hused => hunused (List.mem_append_left _ hused)

theorem nodup_targets (hnodup : names.Nodup) (hused : names ⊆ usedNames) :
    (targets localeCompare candidates usedNames names).Nodup := by
  induction names generalizing usedNames with
  | nil => exact List.nodup_nil
  | cons name names ih =>
      obtain ⟨hname, hnames⟩ := List.nodup_cons.mp hnodup
      obtain ⟨hfirst, hrest⟩ := List.cons_subset.mp hused
      unfold targets
      cases hselect : selectName localeCompare candidates usedNames name with
      | none =>
          refine List.nodup_cons.mpr ⟨?_, ih hnames hrest⟩
          intro hmem
          rcases mem_targets hmem with hagain | hunused
          · exact hname hagain
          · exact hunused hfirst
      | some originalName =>
          have hunused := (selectName_spec hselect).1
          refine List.nodup_cons.mpr ⟨?_, ih hnames (List.subset_append_of_subset_left _ hrest)⟩
          intro hmem
          rcases mem_targets hmem with hlater | hnotused
          · exact hunused (hrest hlater)
          · exact hnotused (List.mem_append_right _ List.mem_cons_self)

/-! ## What the loop writes -/

/-- The loop writes the values under the targets, and has changed something when a target is not
the name of its local. -/
theorem foldl_renameLocal (localeCompare : Text → Text → Int) (candidates : Candidates)
    (entries : List (Text × V)) (r : Renaming V) (hused : entries.map (·.1) ⊆ r.usedNames) :
    let written := targets localeCompare candidates r.usedNames (entries.map (·.1))
    let final := entries.foldl (renameLocal localeCompare candidates) r
    final.renamed = (written.zip (entries.map (·.2))).foldl
        (fun record entry => assign record entry.1 entry.2) r.renamed ∧
      (final.changed ↔ r.changed ∨ written ≠ entries.map (·.1)) := by
  induction entries generalizing r with
  | nil => simp [targets]
  | cons entry entries ih =>
      obtain ⟨hfirst, hrest⟩ := List.cons_subset.mp hused
      simp only [List.map_cons, List.foldl_cons, targets]
      unfold renameLocal
      cases hselect : selectName localeCompare candidates r.usedNames entry.1 with
      | none =>
          obtain ⟨hrenamed, hchanged⟩ :=
            ih { r with renamed := assign r.renamed entry.1 entry.2 } hrest
          refine ⟨hrenamed, hchanged.trans ?_⟩
          simp
      | some originalName =>
          obtain ⟨hrenamed, hchanged⟩ := ih
            { renamed := assign r.renamed originalName entry.2
              usedNames := r.usedNames ++ [originalName]
              changed := true } (List.subset_append_of_subset_left _ hrest)
          refine ⟨hrenamed, hchanged.trans ?_⟩
          have hne : originalName ≠ entry.1 := by
            rintro rfl
            exact (selectName_spec hselect).1 hfirst
          simp [hne]

/-- Writes under distinct new names make the properties in this order, without `__proto__`. -/
theorem foldl_assign {pairs record : List (Text × V)}
    (h : ((record ++ pairs).map (·.1)).Nodup) :
    pairs.foldl (fun record entry => assign record entry.1 entry.2) record =
      record ++ pairs.filter (·.1 ≠ protoName) := by
  induction pairs generalizing record with
  | nil => simp
  | cons pair pairs ih =>
      rw [List.foldl_cons, List.filter_cons]
      by_cases hproto : pair.1 = protoName
      · have hrest : ((record ++ pairs).map (·.1)).Nodup := by
          apply List.Pairwise.sublist _ h
          exact ((List.sublist_cons_self pair pairs).append_left record).map _
        have hskip : assign record pair.1 pair.2 = record := if_pos hproto
        rw [hskip, ih hrest]
        simp [hproto]
      · have hnew : pair.1 ∉ record.map (·.1) := by
          rw [List.map_append, List.map_cons, List.nodup_append] at h
          intro hmem
          exact h.2.2 _ hmem _ List.mem_cons_self rfl
        have hsplit : ((record ++ [pair] ++ pairs).map (·.1)).Nodup := by
          rwa [List.append_assoc, List.singleton_append]
        have hset : assign record pair.1 pair.2 = record ++ [pair] :=
          (if_neg hproto).trans (InsertionMap.set_of_notMem hnew)
        rw [hset, ih hsplit]
        simp [hproto]

end Select

section Renamed

variable {candidates : Candidates} {locals : Locals V}

/-- The names under which the locals are written. -/
def Locals.targets (localeCompare : Text → Text → Int) (candidates : Candidates)
    (locals : Locals V) : List Text :=
  SourceMapResolver.targets localeCompare candidates locals.names locals.names

theorem renamed_eq : (renameLocals localeCompare candidates locals).renamed =
    ((locals.targets localeCompare candidates).zip (locals.entries.map (·.2))).filter
      (·.1 ≠ protoName) := by
  have h := (foldl_renameLocal localeCompare candidates locals.entries
    { renamed := [], usedNames := locals.names, changed := false }
    (List.Subset.refl _)).1
  refine h.trans ?_
  rw [foldl_assign, List.nil_append]
  · rfl
  · rw [List.nil_append, List.map_fst_zip]
    · exact nodup_targets locals.distinct (List.Subset.refl _)
    · rw [length_targets, List.length_map, List.length_map]

theorem changed_iff : (renameLocals localeCompare candidates locals).changed ↔
    locals.targets localeCompare candidates ≠ locals.names := by
  have h := (foldl_renameLocal localeCompare candidates locals.entries
    { renamed := [], usedNames := locals.names, changed := false }
    (List.Subset.refl _)).2
  refine h.trans ?_
  simp only [Bool.false_eq_true, false_or]
  exact Iff.rfl

end Renamed

/-! ## The record that is returned -/

theorem losesNoLocal_refl (locals : List (Text × V)) : LosesNoLocal locals locals := by
  refine ⟨id, Set.injOn_id _, ?_, fun _ _ _ => rfl, ?_⟩
  · simp
  · intro name _ hne
    exact absurd rfl hne

/-- Distinct names can be mapped one by one. -/
theorem exists_map_eq {names others : List Text} (hnodup : names.Nodup)
    (hlength : others.length = names.length) : ∃ rename : Text → Text,
      names.map rename = others := by
  induction names generalizing others with
  | nil => exact ⟨id, (List.length_eq_zero_iff.mp hlength).symm⟩
  | cons name names ih =>
      cases others with
      | nil => cases hlength
      | cons other others =>
          obtain ⟨hname, hnames⟩ := List.nodup_cons.mp hnodup
          obtain ⟨rename, hmap⟩ := ih hnames (Nat.succ.inj hlength)
          refine ⟨Function.update rename name other, ?_⟩
          rw [List.map_cons, Function.update_self]
          congr 1
          rw [← hmap]
          apply List.map_congr_left
          intro later hlater
          have hne : later ≠ name := by
            rintro rfl
            exact hname hlater
          exact Function.update_of_ne hne _ _

section Record

variable {consumer : List Mapping} {candidates : Candidates} {locals : Locals V}

theorem length_renamed_lt
    (hproto : protoName ∈ locals.targets localeCompare candidates) :
    (renameLocals localeCompare candidates locals).renamed.length < locals.entries.length := by
  have hlength : (locals.targets localeCompare candidates).length =
      (locals.entries.map (·.2)).length := by
    rw [Locals.targets, length_targets, Locals.names, List.length_map, List.length_map]
  have hzip : ((locals.targets localeCompare candidates).zip
      (locals.entries.map (·.2))).length = locals.entries.length := by
    rw [List.length_zip, hlength, Nat.min_self, List.length_map]
  rw [renamed_eq, ← hzip]
  rw [← List.map_fst_zip hlength.le] at hproto
  obtain ⟨pair, hpair, hname⟩ := List.mem_map.mp hproto
  apply List.length_filter_lt_length_iff_exists.mpr
  exact ⟨pair, hpair, by simp [hname]⟩

/-- What becomes of each name. -/
theorem exists_rename (localeCompare : Text → Text → Int)
    (h : candidates.FromMappings consumer locals.minifiedNames) :
    ∃ rename : Text → Text,
      locals.names.map rename = locals.targets localeCompare candidates ∧
      ∀ name ∈ locals.names, rename name = name ∨
        name ∈ locals.minifiedNames ∧ rename name ∉ locals.names ∧
          ∃ mapping ∈ consumer, mapping.name = some (rename name) := by
  have hlength : (locals.targets localeCompare candidates).length = locals.names.length :=
    length_targets
  obtain ⟨rename, hmap⟩ := exists_map_eq locals.distinct hlength
  refine ⟨rename, hmap, ?_⟩
  have hall := targets_spec localeCompare locals.names locals.names h
  have hnames : targets localeCompare candidates locals.names locals.names =
      locals.names.map rename := hmap.symm
  rwa [hnames, List.forall₂_map_right_iff, List.forall₂_same] at hall

theorem losesNoLocal_renamed (h : candidates.FromMappings consumer locals.minifiedNames)
    (hproto : protoName ∉ locals.targets localeCompare candidates) :
    LosesNoLocal locals.entries (renameLocals localeCompare candidates locals).renamed := by
  obtain ⟨rename, hmap, hspec⟩ := exists_rename localeCompare h
  have hnodup : (locals.names.map rename).Nodup := by
    rw [hmap]
    exact nodup_targets locals.distinct (List.Subset.refl _)
  refine ⟨rename, ?_, ?_, ?_, ?_⟩
  · intro a ha b hb hab
    exact List.inj_on_of_nodup_map hnodup ha hb hab
  · have hzip : (locals.targets localeCompare candidates).zip (locals.entries.map (·.2)) =
        locals.entries.map fun entry => (rename entry.1, entry.2) := by
      rw [← hmap, Locals.names, List.map_map, List.zip_map']
      rfl
    rw [renamed_eq, List.filter_eq_self.mpr]
    · rw [hzip]
    · intro pair hpair
      have hmem := (List.of_mem_zip (a := pair.1) (b := pair.2) hpair).1
      simp only [ne_eq, decide_eq_true_eq]
      rintro heq
      exact hproto (heq ▸ hmem)
  · intro name hname hfull
    rcases hspec name hname with hsame | ⟨hminified, -⟩
    · exact hsame
    · have := (List.mem_filter.mp hminified).2
      rw [hfull] at this
      cases this
  · intro name hname hne
    rcases hspec name hname with hsame | ⟨-, hnew, -⟩
    · exact absurd hsame hne
    · exact hnew

end Record

section Resolve

variable (sourceLinesCache : SourceLinesCache) (contents : Option Text) (consumer : List Mapping)
  (generatedFilePath : Text) (frame : Frame V) (original : OriginalPosition)

/-- No local is renamed, or none is written under `__proto__`: neither is it the name of a local,
nor is it for any local the first candidate that is not the name of a local or given before. -/
def KeepsClearOfProto (localeCompare : Text → Text → Int) : Prop :=
  ∀ generatedLine,
    (readGeneratedLine sourceLinesCache contents generatedFilePath frame.lineNumber).1 =
      some generatedLine →
    let written := frame.locals.targets localeCompare
      (collectCandidates consumer frame original generatedLine)
    written ≠ frame.locals.names → protoName ∉ written

theorem targets_of_noCandidates {usedNames names : List Text} :
    targets localeCompare [] usedNames names = names := by
  induction names with
  | nil => rfl
  | cons name names ih =>
      unfold targets
      have hselect : selectName localeCompare [] usedNames name = none := rfl
      rw [hselect, ih]

/-- The record with every early return taken together: where a generated line is read, it is that
of the loop, if this has changed anything. -/
theorem resolveLocalNames_record :
    (resolveLocalNames localeCompare sourceLinesCache contents consumer generatedFilePath frame
        original).1 =
      match (readGeneratedLine sourceLinesCache contents generatedFilePath frame.lineNumber).1 with
      | none => frame.locals.entries
      | some generatedLine =>
          let candidates := collectCandidates consumer frame original generatedLine
          if frame.locals.targets localeCompare candidates = frame.locals.names then
            frame.locals.entries
          else (renameLocals localeCompare candidates frame.locals).renamed := by
  unfold resolveLocalNames
  split
  · next hminified =>
      split
      · rfl
      · next generatedLine _ =>
          have hempty : collectCandidates consumer frame original generatedLine = [] := by
            apply List.eq_nil_iff_forall_not_mem.mpr
            intro pair hpair
            have hmem := (collectCandidates_fromMappings consumer frame original generatedLine
              pair hpair).1
            rw [List.length_eq_zero_iff.mp hminified] at hmem
            cases hmem
          rw [if_pos]
          rw [hempty]
          exact targets_of_noCandidates
  · cases hread : readGeneratedLine sourceLinesCache contents generatedFilePath
        frame.lineNumber with
    | mk line cache =>
        cases line with
        | none => rfl
        | some generatedLine =>
            dsimp only
            split
            · next hempty =>
                rw [if_pos]
                rw [List.length_eq_zero_iff.mp hempty]
                exact targets_of_noCandidates
            · dsimp only
              by_cases hsame : frame.locals.targets localeCompare
                  (collectCandidates consumer frame original generatedLine) = frame.locals.names
              · rw [if_pos hsame, if_neg]
                exact fun hchanged => changed_iff.mp hchanged hsame
              · rw [if_neg hsame, if_pos (changed_iff.mpr hsame)]

/-- The locals are kept exactly when the loop keeps clear of `__proto__`. -/
theorem resolveLocalNames_losesNoLocal_iff :
    LosesNoLocal frame.locals.entries
        (resolveLocalNames localeCompare sourceLinesCache contents consumer generatedFilePath frame
          original).1 ↔
      KeepsClearOfProto sourceLinesCache contents consumer generatedFilePath frame original
        localeCompare := by
  rw [resolveLocalNames_record]
  unfold KeepsClearOfProto
  cases hread : (readGeneratedLine sourceLinesCache contents generatedFilePath
      frame.lineNumber).1 with
  | none => simp [losesNoLocal_refl]
  | some generatedLine =>
      simp only [Option.some.injEq, forall_eq']
      split
      · next hsame => simp [hsame, losesNoLocal_refl]
      · next hchanged =>
          constructor
          · rintro ⟨rename, -, hperm, -⟩ - hproto
            have hlt := length_renamed_lt hproto
            rw [hperm.length_eq, List.length_map] at hlt
            exact Nat.lt_irrefl _ hlt
          · intro hclear
            exact losesNoLocal_renamed
              (collectCandidates_fromMappings consumer frame original generatedLine)
              (hclear hchanged)

/-- It does so wherever neither a local nor a mapping has this name. -/
theorem keepsClearOfProto_of_unnamed (hlocals : protoName ∉ frame.locals.names)
    (hmappings : ∀ mapping ∈ consumer, mapping.name ≠ some protoName) :
    KeepsClearOfProto sourceLinesCache contents consumer generatedFilePath frame original
      localeCompare := by
  intro generatedLine _ written _ hproto
  obtain ⟨rename, hmap, hspec⟩ := exists_rename localeCompare
    (collectCandidates_fromMappings consumer frame original generatedLine)
  have hrenamed : protoName ∈ frame.locals.names.map rename := by
    rw [hmap]
    exact hproto
  obtain ⟨name, hname, heq⟩ := List.mem_map.mp hrenamed
  have hspec := hspec name hname
  rw [heq] at hspec
  rcases hspec with hsame | ⟨-, -, mapping, hmapping, hnamed⟩
  · rw [← hsame] at hname
    exact hlocals hname
  · exact hmappings mapping hmapping hnamed

end Resolve

/-! ## A mapping named `__proto__` -/

/-- One minified local, at the place of the mapping. -/
def frameOfBundle : Frame Nat where
  lineNumber := 1
  columnNumber := 5
  locals := ⟨[("a", 1)], List.nodup_singleton _⟩

def protoMapping : Mapping where
  source := some "main.ts"
  generatedLine := 1
  generatedColumn := 4
  originalLine := some 1
  name := some protoName

/-- The only local of the frame is gone. There is one candidate, so no names are compared. -/
theorem resolveLocalNames_loses_local :
    ¬ LosesNoLocal frameOfBundle.locals.entries
      (resolveLocalNames (fun _ _ => 0) [] (some "let a = 1;") [protoMapping] "main.js"
        frameOfBundle { source := some "main.ts", line := some 1 }).1 := by
  have hempty : (resolveLocalNames (fun _ _ => 0) [] (some "let a = 1;") [protoMapping] "main.js"
      frameOfBundle { source := some "main.ts", line := some 1 }).1 = [] := by
    decide +kernel
  rw [hempty]
  rintro ⟨rename, -, hperm, -⟩
  have hlength := hperm.length_eq
  rw [List.length_map] at hlength
  exact absurd hlength (by decide)

end ErrorCore.SourceMapResolver
