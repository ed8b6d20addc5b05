import ErrorCore.Foundation.Json.RoundTrip
import ErrorCore.Pii.Scrubber

/-!
# Redaction of sensitive keys

A sensitive key is redacted wherever the walk of the scrubber gets to see it.
Values at an infrastructure path and values of passthrough keys are handed over
as they are, so a sensitive key below one of them keeps its value. The other
place where a sensitive key does not end up redacted is `_originalKeyCount` in
an object whose fields are cut off: the scrubber stores its own count there.

`fate` follows a path through the input alone and says which of the three cases
it is; the copy at the end of the path is described from there.
-/

namespace ErrorCore

open Json (Value Step)

/-! ## Occurrences and their copies -/

/-- `key` names a field of `value` below `steps` that holds `found`, and calls for redaction. -/
structure SensitiveAt (value : Value) (steps : List Step) (key : Text) (found : Value) : Prop where
  at_path : value.at? (steps ++ [.field key]) = some found
  sensitive : matchesSensitiveKey key
  not_passthrough : ¬ isValuePassthrough key

def IsMarker (value : Value) : Prop := value = .string REDACTED ∨ value = .string DEPTH_LIMIT

/-- One step into a scrubbed value. The items of an array that was cut off are under `_items`. -/
def copyChild : Value → Step → Option Value
  | .object fields, .item index =>
      match fields.lookup ("_items" : Text) with
      | some (.array items) => items[index]?
      | _ => none
  | value, step => value.child step

/-- The copy of the value at the end of a path. -/
def copyAt : Value → List Step → Option Value
  | value, [] => some value
  | value, step :: rest =>
      match copyChild value step with
      | none => none
      | some below => copyAt below rest

/-- No copy of a field with a sensitive key holds anything but a marker. -/
def Redacted (original scrubbed : Value) : Prop :=
  ∀ steps key found, SensitiveAt original steps key found →
    ∀ copy, copyAt scrubbed (steps ++ [.field key]) = some copy → IsMarker copy

variable {value below : Value} {step : Step} {rest : List Step}

theorem copyAt_cons (h : copyChild value step = some below) :
    copyAt value (step :: rest) = copyAt below rest := by
  simp only [copyAt, h]

theorem copyAt_cons_none (h : copyChild value step = none) :
    copyAt value (step :: rest) = none := by
  simp only [copyAt, h]

theorem copyChild_of_child (h : value.child step = some below) :
    copyChild value step = some below := by
  cases value <;> cases step <;> first | exact h | exact nomatch h

/-- A value handed over as it is keeps everything below it. -/
theorem copyAt_of_at? {found : Value} {steps : List Step} (h : value.at? steps = some found) :
    copyAt value steps = some found := by
  induction steps generalizing value with
  | nil => exact h
  | cons step rest ih =>
      obtain ⟨below, hchild, hbelow⟩ := Json.Value.child_of_at? h
      rw [copyAt_cons (copyChild_of_child hchild)]
      exact ih hbelow

/-! ## The fate of a path -/

def stepKey : Step → Text
  | .field name => name
  | .item index => Nat.toDigits 10 index

/-- The walk hands over the value as it is. -/
def isHandedOver (path : List Text) (key : Text) : Bool :=
  isSdkInfrastructurePath path || isValuePassthrough key

/-- What becomes of the field at the end of a path. -/
inductive Fate
  | scrubbed
  | handedOver
  | counted
  deriving DecidableEq, Repr

namespace Scrubber

variable (s : Scrubber)

def isTruncatedObject : Value → Bool
  | .object fields => s.serialization.maxObjectKeys < fields.length
  | _ => false

/-- A field that the scrubber overwrites when it cuts off an object. -/
def isOverwritten (value : Value) (name : Text) : Bool :=
  s.isTruncatedObject value && (name = truncatedName || name = originalKeyCountName)

/-- The value below a node that the walk goes on with. -/
def walkedChild (path : List Text) : Value → Step → Option Value
  | .object fields, .field name =>
      if isPrototypeKey name || s.isOverwritten (.object fields) name then none
      else (fields.take s.serialization.maxObjectKeys).lookup name
  | .array items, .item index =>
      if isSdkPackageArrayPath path then items[index]?
      else (items.take s.serialization.maxArrayItems)[index]?
  | _, _ => none

def isCounted (value : Value) : List Step → Bool
  | [.field name] => s.isTruncatedObject value && name = originalKeyCountName
  | _ => false

/-- The fate of the field at the end of the path, computed from the input. -/
def fate (key : Text) (path : List Text) (depth : Nat) (value : Value) : List Step → Fate
  | [] => .scrubbed
  | step :: rest =>
      if s.depthLimit < depth then .scrubbed
      else if isHandedOver path key then .handedOver
      else if matchesSensitiveKey key then .scrubbed
      else
        match s.walkedChild path value step with
        | some below => fate (stepKey step) (path ++ [stepKey step]) (depth + 1) below rest
        | none => if s.isCounted value (step :: rest) then .counted else .scrubbed

/-- Where a sensitive key is handed over, it already holds a marker, and none is counted. -/
def Shielded (value : Value) : Prop :=
  ∀ steps key found, SensitiveAt value steps key found →
    match s.fate [] [] 0 value (steps ++ [.field key]) with
    | .scrubbed => True
    | .handedOver => IsMarker found
    | .counted => False

end Scrubber

/-! ## Keys of the infrastructure are not sensitive -/

/-- The sets that the branches of `isSdkInfrastructureKey` look in. -/
def infrastructureKeySets : List (List Text) :=
  [ROOT_INFRASTRUCTURE_KEYS_PASSTHROUGH, ["min", "max"], ["wallClockMs", "hrtimeNs"],
    IO_EVENT_INFRASTRUCTURE_KEYS_PASSTHROUGH, EVICTION_INFRASTRUCTURE_KEYS_PASSTHROUGH,
    STATE_EVENT_INFRASTRUCTURE_KEYS_PASSTHROUGH, PROCESS_INFRASTRUCTURE_KEYS_PASSTHROUGH,
    ["totalBufferEventsAtCapture", "seqGaps", "retrievedCount", "min", "max"],
    LOCAL_FRAME_INFRASTRUCTURE_KEYS_PASSTHROUGH, ["rowCount"]]

theorem infrastructureKeySets_not_sensitive :
    infrastructureKeySets.all (fun keys => keys.all (!matchesSensitiveKey ·)) = true := by
  decide +kernel

theorem not_sensitive_of_mem {keys : List Text} {key : Text} (i : Nat)
    (hkeys : infrastructureKeySets[i]? = some keys) (h : decide (key ∈ keys) = true) :
    matchesSensitiveKey key = false := by
  have hall := List.all_eq_true.mp infrastructureKeySets_not_sensitive keys
    (List.mem_of_getElem? hkeys)
  have hkey := List.all_eq_true.mp hall key (of_decide_eq_true h)
  simpa using hkey

/-- No exemption of `isSdkInfrastructurePath` is for a sensitive key. -/
theorem not_sensitive_of_infrastructureKey {path : List Text} {key : Text}
    (h : isSdkInfrastructureKey path key = true) : matchesSensitiveKey key = false := by
  rw [isSdkInfrastructureKey] at h
  split at h
  · exact not_sensitive_of_mem 0 rfl h
  split at h
  · exact not_sensitive_of_mem 1 rfl h
  split at h
  · exact not_sensitive_of_mem 2 rfl h
  split at h
  · exact not_sensitive_of_mem 3 rfl h
  split at h
  · exact not_sensitive_of_mem 4 rfl h
  split at h
  · exact not_sensitive_of_mem 5 rfl h
  split at h
  · exact not_sensitive_of_mem 6 rfl h
  split at h
  · exact not_sensitive_of_mem 7 rfl h
  split at h
  · exact not_sensitive_of_mem 8 rfl ((Bool.and_eq_true _ _).mp h).2
  · exact not_sensitive_of_mem 9 rfl ((Bool.and_eq_true _ _).mp h).2

theorem not_infrastructurePath {path : List Text} {key : Text}
    (h : matchesSensitiveKey key = true) : isSdkInfrastructurePath (path ++ [key]) = false := by
  rw [isSdkInfrastructurePath, List.getLast?_append_cons, List.getLast?_singleton, Option.any_some]
  by_contra hinfrastructure
  have hnot := not_sensitive_of_infrastructureKey (Bool.eq_true_of_not_eq_false hinfrastructure)
  rw [h] at hnot
  exact nomatch hnot

/-! ## One step of the walk -/

namespace Scrubber

variable {s : Scrubber} {key : Text} {path : List Text} {depth : Nat} {value below : Value}
variable {step : Step}

/-- The walk goes into the value. -/
structure Enters (s : Scrubber) (key : Text) (path : List Text) (depth : Nat) : Prop where
  within : ¬ s.depthLimit < depth
  not_handedOver : isHandedOver path key = false
  not_sensitive : matchesSensitiveKey key = false

theorem cloneAndScrub_sensitive {found : Value} (hsensitive : matchesSensitiveKey key = true)
    (hnot : ¬ isValuePassthrough key = true) :
    IsMarker (s.cloneAndScrub key (path ++ [key]) depth found) := by
  rw [cloneAndScrub.eq_def]
  by_cases hdepth : s.depthLimit < depth
  · rw [if_pos hdepth]
    exact .inr rfl
  · rw [if_neg hdepth, not_infrastructurePath hsensitive, if_neg Bool.false_ne_true, if_neg hnot,
      if_pos hsensitive]
    exact .inl rfl

theorem cloneAndScrub_handedOver (hwithin : ¬ s.depthLimit < depth)
    (h : isHandedOver path key = true) : s.cloneAndScrub key path depth value = value := by
  rw [cloneAndScrub.eq_def, if_neg hwithin]
  by_cases hpath : isSdkInfrastructurePath path = true
  · rw [if_pos hpath]
  · have hkey : isValuePassthrough key = true :=
      ((Bool.or_eq_true _ _).mp h).resolve_left hpath
    rw [if_neg hpath, if_pos hkey]

theorem cloneAndScrub_object (h : s.Enters key path depth) (fields : List (Text × Value)) :
    s.cloneAndScrub key path depth (.object fields) =
      .object (if s.serialization.maxObjectKeys < fields.length then
        markTruncatedObject fields.length
          (s.scrubFields path depth s.serialization.maxObjectKeys fields)
      else s.scrubFields path depth s.serialization.maxObjectKeys fields) := by
  obtain ⟨hpath, hkey⟩ := (Bool.or_eq_false_iff).mp h.not_handedOver
  rw [cloneAndScrub.eq_def, if_neg h.within, hpath, hkey, h.not_sensitive]
  simp only [Bool.false_eq_true, if_false]
  split <;> rfl

theorem cloneAndScrub_array (h : s.Enters key path depth) (items : List Value) :
    ∃ count, (count = items.length ∧ isSdkPackageArrayPath path = true ∨
        count = min items.length s.serialization.maxArrayItems ∧
          isSdkPackageArrayPath path = false) ∧
      (s.cloneAndScrub key path depth (.array items) =
          .array (s.scrubItems path depth 0 count items) ∨
        s.cloneAndScrub key path depth (.array items) =
          truncatedArray items.length (s.scrubItems path depth 0 count items)) := by
  obtain ⟨hpath, hkey⟩ := (Bool.or_eq_false_iff).mp h.not_handedOver
  rw [cloneAndScrub.eq_def, if_neg h.within, hpath, hkey, h.not_sensitive]
  simp only [Bool.false_eq_true, if_false]
  cases hpreserve : isSdkPackageArrayPath path with
  | true =>
      refine ⟨items.length, .inl ⟨rfl, rfl⟩, .inl ?_⟩
      simp only [true_or, if_true]
  | false =>
      refine ⟨min items.length s.serialization.maxArrayItems, .inr ⟨rfl, rfl⟩, ?_⟩
      simp only [Bool.false_eq_true, false_or, if_false]
      split
      · exact .inl rfl
      · exact .inr rfl

theorem lookup_scrubFields {name : Text} (hname : isPrototypeKey name = false) (count : Nat)
    (fields : List (Text × Value)) :
    (s.scrubFields path depth count fields).lookup name =
      ((fields.take count).lookup name).map
        (s.cloneAndScrub name (path ++ [name]) (depth + 1)) := by
  induction fields generalizing count with
  | nil => cases count <;> rfl
  | cons field fields ih =>
      obtain ⟨other, old⟩ := field
      cases count with
      | zero => rfl
      | succ count =>
          rw [scrubFields, List.take_succ_cons, List.lookup_cons]
          by_cases heq : name = other
          · subst heq
            rw [hname, if_neg Bool.false_ne_true, List.lookup_cons, beq_self_eq_true]
            rfl
          · have hbeq : (name == other) = false := beq_eq_false_iff_ne.mpr heq
            rw [hbeq]
            split
            · exact ih count
            · rw [List.lookup_cons, hbeq]
              exact ih count

theorem lookup_scrubFields_prototype {name : Text} (hname : isPrototypeKey name = true)
    (count : Nat) (fields : List (Text × Value)) :
    (s.scrubFields path depth count fields).lookup name = none := by
  induction fields generalizing count with
  | nil => cases count <;> rfl
  | cons field fields ih =>
      obtain ⟨other, old⟩ := field
      cases count with
      | zero => rfl
      | succ count =>
          rw [scrubFields]
          split
          · exact ih count
          · next hother =>
              have hne : name ≠ other := by
                intro heq
                exact hother (heq ▸ hname)
              rw [List.lookup_cons, beq_eq_false_iff_ne.mpr hne]
              exact ih count

theorem getElem?_scrubItems (start count i : Nat) (items : List Value) :
    (s.scrubItems path depth start count items)[i]? =
      ((items.take count)[i]?).map
        (s.cloneAndScrub (Nat.toDigits 10 (start + i)) (path ++ [Nat.toDigits 10 (start + i)])
          (depth + 1)) := by
  induction items generalizing start count i with
  | nil => cases count <;> rfl
  | cons item items ih =>
      cases count with
      | zero => rfl
      | succ count =>
          rw [scrubItems, List.take_succ_cons]
          cases i with
          | zero => rfl
          | succ i =>
              rw [List.getElem?_cons_succ, List.getElem?_cons_succ, ih]
              rw [show start + 1 + i = start + (i + 1) by omega]

theorem copyChild_array_cases {items : List Value} {length i : Nat} {copy : Value}
    (h : copy = .array items ∨ copy = truncatedArray length items) :
    copyChild copy (.item i) = items[i]? := by
  obtain rfl | rfl := h
  · rfl
  · rfl

theorem lookup_markTruncatedObject {name : Text} (htruncated : name ≠ truncatedName)
    (hcount : name ≠ originalKeyCountName) (keyCount : Nat)
    (fields : List (Text × Value)) :
    (markTruncatedObject keyCount fields).lookup name = fields.lookup name := by
  rw [markTruncatedObject, Json.lookup_setField_of_ne hcount, Json.lookup_setField_of_ne htruncated]

theorem copyChild_object {fields : List (Text × Value)} {name : Text}
    (h : s.Enters key path depth)
    (hover : s.isOverwritten (.object fields) name = false) :
    copyChild (s.cloneAndScrub key path depth (.object fields)) (.field name) =
      (s.scrubFields path depth s.serialization.maxObjectKeys fields).lookup name := by
  rw [cloneAndScrub_object h]
  show List.lookup name _ = _
  split
  · next htruncated =>
      have hnames : ¬ (name = truncatedName ∨ name = originalKeyCountName) := by
        simpa [isOverwritten, isTruncatedObject, htruncated] using hover
      rw [not_or] at hnames
      exact lookup_markTruncatedObject hnames.1 hnames.2 _ _
  · rfl

/-- The step puts in a field of the scrubber's own. -/
def Overwrites (s : Scrubber) (value : Value) (step : Step) : Prop :=
  ∃ name, step = .field name ∧ s.isOverwritten value name = true

/-- Below a value that the walk goes into, the copy is the walk's result for the same child. -/
theorem copyChild_cloneAndScrub (h : s.Enters key path depth)
    (hchild : value.child step = some below) (hover : ¬ s.Overwrites value step) :
    copyChild (s.cloneAndScrub key path depth value) step =
      (s.walkedChild path value step).map
        (s.cloneAndScrub (stepKey step) (path ++ [stepKey step]) (depth + 1)) := by
  cases value with
  | null => exact nomatch hchild
  | bool value => exact nomatch hchild
  | number text => exact nomatch hchild
  | string text => exact nomatch hchild
  | array items =>
      cases step with
      | field name => exact nomatch hchild
      | item i =>
          obtain ⟨count, hcount, hcopy⟩ := cloneAndScrub_array h items
          rw [copyChild_array_cases hcopy, getElem?_scrubItems, Nat.zero_add]
          congr 1
          obtain ⟨rfl, hpreserve⟩ | ⟨rfl, hpreserve⟩ := hcount
          · rw [List.take_length, walkedChild, hpreserve, if_pos rfl]
          · rw [walkedChild, hpreserve, if_neg Bool.false_ne_true, Nat.min_comm,
              ← List.take_eq_take_min]
  | object fields =>
      cases step with
      | item i => exact nomatch hchild
      | field name =>
          have hname : s.isOverwritten (.object fields) name = false := by
            by_contra hne
            exact hover ⟨name, rfl, Bool.eq_true_of_not_eq_false hne⟩
          rw [copyChild_object h hname, walkedChild, hname]
          cases hproto : isPrototypeKey name with
          | true => exact lookup_scrubFields_prototype hproto _ _
          | false => exact lookup_scrubFields hproto _ _

theorem lookup_take {name : Text} {found : Value} (count : Nat) (fields : List (Text × Value))
    (h : (fields.take count).lookup name = some found) : fields.lookup name = some found := by
  induction fields generalizing count with
  | nil =>
      rw [List.take_nil] at h
      exact h
  | cons field fields ih =>
      obtain ⟨other, old⟩ := field
      cases count with
      | zero => exact nomatch h
      | succ count =>
          rw [List.take_succ_cons, List.lookup_cons] at h
          rw [List.lookup_cons]
          split at h
          · exact h
          · exact ih count h

/-- The walk only goes on with what is below the value. -/
theorem child_of_walkedChild (h : s.walkedChild path value step = some below) :
    value.child step = some below := by
  cases value with
  | null => exact nomatch h
  | bool value => exact nomatch h
  | number text => exact nomatch h
  | string text => exact nomatch h
  | array items =>
      cases step with
      | field name => exact nomatch h
      | item i =>
          rw [walkedChild] at h
          split at h
          · exact h
          · rw [List.getElem?_take] at h
            split at h
            · exact h
            · exact nomatch h
  | object fields =>
      cases step with
      | item i => exact nomatch h
      | field name =>
          rw [walkedChild] at h
          split at h
          · exact nomatch h
          · exact lookup_take _ fields h

/-- What the scrubber puts in place of a field of an object that it cuts off. -/
theorem copyChild_overwritten {name : Text} (h : s.Enters key path depth)
    (hover : s.isOverwritten value name = true) :
    ∃ fields : List (Text × Value), value = .object fields ∧
      s.serialization.maxObjectKeys < fields.length ∧
      (name = originalKeyCountName ∧
          copyChild (s.cloneAndScrub key path depth value) (.field name) =
            some (.number (Nat.toDigits 10 fields.length)) ∨
        name = truncatedName ∧
          copyChild (s.cloneAndScrub key path depth value) (.field name) = some (.bool true)) := by
  cases value with
  | object fields =>
      obtain ⟨hlong, hname⟩ := (Bool.and_eq_true _ _).mp hover
      have htruncated : s.serialization.maxObjectKeys < fields.length := of_decide_eq_true hlong
      refine ⟨fields, rfl, htruncated, ?_⟩
      rw [cloneAndScrub_object h, if_pos htruncated]
      by_cases hcount : name = originalKeyCountName
      · refine .inl ⟨hcount, ?_⟩
        rw [hcount]
        exact Json.lookup_setField_self _ _ _
      · have hmark : name = truncatedName := by
          simpa [hcount] using hname
        refine .inr ⟨hmark, ?_⟩
        show List.lookup name _ = _
        rw [markTruncatedObject, Json.lookup_setField_of_ne hcount, hmark]
        exact Json.lookup_setField_self _ _ _
  | _ => exact nomatch hover

/-! ## The whole walk -/

theorem truncated_not_sensitive : matchesSensitiveKey truncatedName = false := by
  decide +kernel

/-- What the copy of a sensitive field holds, by the fate of its path. -/
def CopyMatches (fate : Fate) (found : Value) (copy : Option Value) : Prop :=
  match fate with
  | .scrubbed => ∀ value, copy = some value → IsMarker value
  | .handedOver => copy = some found
  | .counted => ∃ count, copy = some (.number count)

theorem copyMatches_of_marker {found copy : Value} {steps : List Step} (hmarker : IsMarker copy)
    (hrest : steps ≠ []) : CopyMatches .scrubbed found (copyAt copy steps) := by
  intro value hvalue
  cases steps with
  | nil => exact absurd rfl hrest
  | cons step rest =>
      obtain rfl | rfl := hmarker <;> cases step <;> exact nomatch hvalue

/-- The step lemma of the walk: at a value it does not go into, the path ends there. -/
theorem copyMatches_of_not_enters {found : Value} {steps : List Step} (hsteps : steps ≠ [])
    (hfound : value.at? steps = some found) (h : ¬ s.Enters key path depth) :
    CopyMatches (s.fate key path depth value steps) found
      (copyAt (s.cloneAndScrub key path depth value) steps) := by
  cases steps with
  | nil => exact absurd rfl hsteps
  | cons step rest =>
      rw [fate]
      by_cases hdepth : s.depthLimit < depth
      · rw [if_pos hdepth, cloneAndScrub.eq_def, if_pos hdepth]
        exact copyMatches_of_marker (.inr rfl) hsteps
      · rw [if_neg hdepth]
        cases hover : isHandedOver path key with
        | true =>
            rw [if_pos rfl, cloneAndScrub_handedOver hdepth hover]
            exact copyAt_of_at? hfound
        | false =>
            cases hsensitive : matchesSensitiveKey key with
            | false => exact absurd ⟨hdepth, hover, hsensitive⟩ h
            | true =>
                obtain ⟨hpath, hkey⟩ := Bool.or_eq_false_iff.mp hover
                rw [if_neg Bool.false_ne_true, if_pos rfl, cloneAndScrub.eq_def, if_neg hdepth,
                  hpath, hkey, hsensitive]
                exact copyMatches_of_marker (.inl rfl) hsteps

theorem fate_of_enters (h : s.Enters key path depth) (rest : List Step) :
    s.fate key path depth value (step :: rest) =
      match s.walkedChild path value step with
      | some below => s.fate (stepKey step) (path ++ [stepKey step]) (depth + 1) below rest
      | none => if s.isCounted value (step :: rest) then .counted else .scrubbed := by
  rw [fate, if_neg h.within, h.not_handedOver, h.not_sensitive]
  simp only [Bool.false_eq_true, if_false]

theorem isCounted_of_ne_nil {rest : List Step} (h : rest ≠ []) :
    s.isCounted value (step :: rest) = false := by
  cases rest with
  | nil => exact absurd rfl h
  | cons next rest => cases step <;> rfl

theorem overwrites_of_isCounted {rest : List Step}
    (h : s.isCounted value (step :: rest) = true) : s.Overwrites value step := by
  cases rest with
  | cons next rest =>
      rw [isCounted_of_ne_nil (List.cons_ne_nil next rest)] at h
      exact nomatch h
  | nil =>
      cases step with
      | item i => exact nomatch h
      | field name =>
          obtain ⟨hlong, hname⟩ := (Bool.and_eq_true _ _).mp h
          refine ⟨name, rfl, ?_⟩
          rw [isOverwritten, hlong, hname, Bool.or_true, Bool.and_true]

/-- A path into one of the two fields that the scrubber adds. -/
theorem copyMatches_overwritten {name : Text} {found : Value} {rest : List Step}
    (h : s.Enters key path depth) (hover : s.isOverwritten value name = true)
    (hlast : rest = [] → matchesSensitiveKey name = true) :
    CopyMatches (s.fate key path depth value (.field name :: rest)) found
      (copyAt (s.cloneAndScrub key path depth value) (.field name :: rest)) := by
  obtain ⟨fields, rfl, hlong, hcopy⟩ := copyChild_overwritten h hover
  have hwalked : s.walkedChild path (.object fields) (.field name) = none := by
    rw [walkedChild, hover, Bool.or_true, if_pos rfl]
  rw [fate_of_enters h, hwalked]
  simp only
  cases rest with
  | nil =>
      obtain ⟨hname, hcopy⟩ | ⟨hname, hcopy⟩ := hcopy
      · have hcounted : s.isCounted (.object fields) [.field name] = true := by
          rw [isCounted, isTruncatedObject, hname, decide_eq_true hlong, decide_eq_true rfl]
          rfl
        rw [hcounted, if_pos rfl, copyAt_cons hcopy]
        exact ⟨_, rfl⟩
      · rw [hname, truncated_not_sensitive] at hlast
        exact nomatch hlast rfl
  | cons next rest =>
      rw [isCounted_of_ne_nil (List.cons_ne_nil next rest), if_neg Bool.false_ne_true]
      intro value hvalue
      obtain ⟨-, hcopy⟩ | ⟨-, hcopy⟩ := hcopy
      · rw [copyAt_cons hcopy] at hvalue
        cases next <;> exact nomatch hvalue
      · rw [copyAt_cons hcopy] at hvalue
        cases next <;> exact nomatch hvalue

/-- The step lemma at a value that the walk goes into. -/
theorem copyMatches_step {found : Value} {rest : List Step} (h : s.Enters key path depth)
    (hfound : value.at? (step :: rest) = some found)
    (hlast : rest = [] → matchesSensitiveKey (stepKey step) = true)
    (hbelow : ∀ below, s.walkedChild path value step = some below →
      CopyMatches (s.fate (stepKey step) (path ++ [stepKey step]) (depth + 1) below rest) found
        (copyAt (s.cloneAndScrub (stepKey step) (path ++ [stepKey step]) (depth + 1) below) rest)) :
    CopyMatches (s.fate key path depth value (step :: rest)) found
      (copyAt (s.cloneAndScrub key path depth value) (step :: rest)) := by
  by_cases hover : s.Overwrites value step
  · obtain ⟨name, rfl, hover⟩ := hover
    exact copyMatches_overwritten h hover hlast
  · obtain ⟨child, hchild, -⟩ := Json.Value.child_of_at? hfound
    have hcopy := copyChild_cloneAndScrub h hchild hover
    rw [fate_of_enters h]
    cases hwalked : s.walkedChild path value step with
    | some below =>
        rw [hwalked, Option.map_some] at hcopy
        rw [copyAt_cons hcopy]
        exact hbelow below hwalked
    | none =>
        rw [hwalked, Option.map_none] at hcopy
        have hcounted : s.isCounted value (step :: rest) = false := by
          by_contra hne
          exact hover (overwrites_of_isCounted (Bool.eq_true_of_not_eq_false hne))
        simp only [hcounted, Bool.false_eq_true, if_false]
        rw [copyAt_cons_none hcopy]
        intro value hvalue
        exact nomatch hvalue

/-- By induction on the path: the fate computed from the input describes the copy. -/
theorem copyMatches_fate {name : Text} {found : Value}
    (hsensitive : matchesSensitiveKey name = true)
    (hnot : ¬ isValuePassthrough name = true) (steps : List Step)
    (hfound : value.at? (steps ++ [.field name]) = some found) :
    CopyMatches (s.fate key path depth value (steps ++ [.field name])) found
      (copyAt (s.cloneAndScrub key path depth value) (steps ++ [.field name])) := by
  induction steps generalizing key path depth value with
  | nil =>
      by_cases h : s.Enters key path depth
      · refine copyMatches_step h hfound (fun _ => hsensitive) ?_
        intro below _ copy hcopy
        obtain rfl : _ = copy := Option.some.inj hcopy
        exact cloneAndScrub_sensitive hsensitive hnot
      · exact copyMatches_of_not_enters (List.cons_ne_nil _ _) hfound h
  | cons step rest ih =>
      by_cases h : s.Enters key path depth
      · refine copyMatches_step h hfound (fun hnil => ?_) ?_
        · exact absurd hnil (List.append_ne_nil_of_right_ne_nil _ (List.cons_ne_nil _ _))
        · intro below hwalked
          have hat : below.at? (rest ++ [.field name]) = some found := by
            rw [List.cons_append, Json.Value.at?_cons (child_of_walkedChild hwalked)] at hfound
            exact hfound
          exact ih hat
      · exact copyMatches_of_not_enters (List.cons_ne_nil _ _) hfound h

/-- Every copy of a sensitive field is a marker exactly when the value is shielded. -/
theorem redacted_iff_shielded (value : Value) :
    Redacted value (s.applyDefaultScrubber [] value) ↔ s.Shielded value := by
  have hcopies : ∀ steps key found, SensitiveAt value steps key found →
      CopyMatches (s.fate [] [] 0 value (steps ++ [.field key])) found
        (copyAt (s.applyDefaultScrubber [] value) (steps ++ [.field key])) :=
    fun steps key found hat => copyMatches_fate hat.sensitive hat.not_passthrough steps hat.at_path
  constructor
  · intro hredacted steps key found hat
    have hcopy := hcopies steps key found hat
    have hmarker := hredacted steps key found hat
    cases hfate : s.fate [] [] 0 value (steps ++ [.field key]) with
    | scrubbed => exact trivial
    | handedOver =>
        rw [hfate] at hcopy
        exact hmarker found hcopy
    | counted =>
        rw [hfate] at hcopy
        obtain ⟨count, hcount⟩ := hcopy
        obtain h | h := hmarker _ hcount <;> exact nomatch h
  · intro hshielded steps key found hat copy hcopy
    have hmatches := hcopies steps key found hat
    have hfates := hshielded steps key found hat
    cases hfate : s.fate [] [] 0 value (steps ++ [.field key]) with
    | scrubbed =>
        rw [hfate] at hmatches
        exact hmatches copy hcopy
    | handedOver =>
        rw [hfate] at hmatches hfates
        obtain rfl : found = copy := Option.some.inj (hmatches.symm.trans hcopy)
        exact hfates
    | counted =>
        rw [hfate] at hfates
        exact hfates.elim

/-! ## The claims of a JSON body -/

theorem not_multipart_of_json {contentType : Option Text}
    (h : isJsonContentType contentType = true) : isMultipartContentType contentType = false := by
  cases contentType with
  | none => rfl
  | some contentType =>
      rw [isJsonContentType, Option.any_some] at h
      rw [isMultipartContentType, Option.any_some, decide_eq_false_iff_not]
      intro hmedia
      simp only [hmedia] at h
      revert h
      decide +kernel

theorem scrubBodyBuffer_json {value : Value} {buffer : List UInt8} {contentType : Option Text}
    (htextual : isTextualContentType contentType = true)
    (hjson : isJsonContentType contentType = true)
    (hparse : s.parseJson (s.decode (getBodyEncoding contentType) buffer) = some value) :
    s.scrubBodyBuffer buffer contentType =
      s.encodeUnlessUnchanged buffer (getBodyEncoding contentType)
        (s.decode (getBodyEncoding contentType) buffer)
        (s.scrubString (Json.stringify (s.applyDefaultScrubber [] value))) := by
  rw [scrubBodyBuffer, not_multipart_of_json hjson, if_neg Bool.false_ne_true, if_pos htextual]
  simp only [scrubText, hjson, if_true, scrubJsonText, hparse, Option.map_some, Option.some_or,
    Option.getD_some]

/-- A scrubber with the default limits, whose patterns find nothing in the texts below. -/
def plainScrubber : Scrubber where
  serialization := ⟨8, 20, 50, 2048⟩
  piiScrubber := none
  scrubString := id
  scrubKeyValueAssignments := id
  scrubForm := fun _ => none
  decode := fun _ bytes => bytes.map fun byte => Char.ofNat byte.toNat
  encode := fun _ text => text.map fun c => UInt8.ofNat c.toNat
  formatNumber := id

def asciiBytes (text : Text) : List UInt8 := text.map fun c => UInt8.ofNat c.toNat

def loginBody : Value := .object [("user", .object [("password", .string "x")])]

/-- The same secret below a header name whose values are passed through. -/
def tracedBody : Value := .object [("traceparent", .object [("password", .string "x")])]

theorem parseJson_loginBody :
    plainScrubber.parseJson (plainScrubber.decode .utf8 (asciiBytes (Json.stringify loginBody))) =
      some loginBody := by
  have hdecode : plainScrubber.decode .utf8 (asciiBytes (Json.stringify loginBody)) =
      Json.stringify loginBody := by
    decide +kernel
  have hcanonical : Json.Canonical plainScrubber.formatNumber loginBody := by
    simp [loginBody, Json.Canonical, Json.CanonicalFields]
  rw [hdecode, parseJson, Json.parse_stringify hcanonical]
  rfl

end Scrubber

end ErrorCore
