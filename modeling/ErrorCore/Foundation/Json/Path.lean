import ErrorCore.Foundation.Json.RoundTrip

/-!
# Paths into JSON values

A path names one place below a value by field names and array indices. Where an
object has a name twice, the path means its first field.
-/

namespace Json

inductive Step
  | field (name : Text)
  | item (index : Nat)
  deriving DecidableEq, Repr

namespace Value

def child : Value → Step → Option Value
  | .object fields, .field name => fields.lookup name
  | .array items, .item index => items[index]?
  | _, _ => none

/-- The value at the end of a path. -/
def at? : Value → List Step → Option Value
  | value, [] => some value
  | value, step :: rest =>
      match value.child step with
      | none => none
      | some below => below.at? rest

variable {value below : Value} {step : Step} {rest : List Step}

@[simp] theorem at?_nil : value.at? [] = some value := rfl

theorem at?_cons (h : value.child step = some below) :
    value.at? (step :: rest) = below.at? rest := by
  simp only [at?, h]

theorem child_of_at? {found : Value} (h : value.at? (step :: rest) = some found) :
    ∃ below, value.child step = some below ∧ below.at? rest = some found := by
  cases hchild : value.child step with
  | none =>
      simp only [at?, hchild] at h
      exact nomatch h
  | some below =>
      refine ⟨below, rfl, ?_⟩
      rwa [at?_cons hchild] at h

end Value

theorem lookup_setField_self (name : Text) (value : Value) (fields : List (Text × Value)) :
    (setField name value fields).lookup name = some value := by
  induction fields with
  | nil => simp [setField]
  | cons field fields ih =>
      obtain ⟨other, old⟩ := field
      rw [setField]
      by_cases heq : other = name
      · simp [heq]
      · rw [if_neg heq, List.lookup_cons, beq_eq_false_iff_ne.mpr (Ne.symm heq)]
        exact ih

theorem lookup_setField_of_ne {name other : Text} (hne : other ≠ name) (value : Value)
    (fields : List (Text × Value)) :
    (setField name value fields).lookup other = fields.lookup other := by
  induction fields with
  | nil => simp [setField, List.lookup_cons, beq_eq_false_iff_ne.mpr hne]
  | cons field fields ih =>
      obtain ⟨key, old⟩ := field
      rw [setField]
      by_cases heq : key = name
      · rw [if_pos heq, heq]
        simp only [List.lookup_cons, beq_eq_false_iff_ne.mpr hne]
      · rw [if_neg heq, List.lookup_cons, List.lookup_cons, ih]

/-- Writing a property keeps the names, unless the property is new. -/
theorem names_setField {name : Text} {fields : List (Text × Value)} (value : Value)
    (h : name ∈ fields.map Prod.fst) :
    (setField name value fields).map Prod.fst = fields.map Prod.fst := by
  induction fields with
  | nil => exact absurd h List.not_mem_nil
  | cons field fields ih =>
      obtain ⟨other, old⟩ := field
      rw [setField]
      split
      · next heq => rw [List.map_cons, List.map_cons, heq]
      · next hne =>
          have hrest := (List.mem_cons.mp h).resolve_left fun heq => hne heq.symm
          rw [List.map_cons, List.map_cons, ih hrest]

theorem mem_setField {name : Text} {value : Value} {fields : List (Text × Value)}
    {field : Text × Value} (h : field ∈ setField name value fields) :
    field = (name, value) ∨ field ∈ fields := by
  induction fields with
  | nil => exact .inl (List.mem_singleton.mp h)
  | cons head fields ih =>
      obtain ⟨other, old⟩ := head
      rw [setField] at h
      split at h
      · cases List.mem_cons.mp h with
        | inl heq => exact .inl heq
        | inr hmem => exact .inr (List.mem_cons_of_mem _ hmem)
      · cases List.mem_cons.mp h with
        | inl heq => exact .inr (heq ▸ List.mem_cons_self)
        | inr hmem => exact (ih hmem).imp_right (List.mem_cons_of_mem _)

theorem nodup_setField (name : Text) (value : Value) {fields : List (Text × Value)}
    (h : (fields.map Prod.fst).Nodup) : ((setField name value fields).map Prod.fst).Nodup := by
  by_cases hmem : name ∈ fields.map Prod.fst
  · rwa [names_setField value hmem]
  · rw [setField_append value hmem, List.map_append]
    apply h.append (List.nodup_singleton _)
    rw [List.disjoint_singleton]
    exact hmem

theorem mem_of_lookup {name : Text} {value : Value} {fields : List (Text × Value)}
    (h : fields.lookup name = some value) : (name, value) ∈ fields := by
  induction fields with
  | nil => exact nomatch h
  | cons field fields ih =>
      obtain ⟨other, old⟩ := field
      rw [List.lookup_cons] at h
      split at h
      · next heq =>
          obtain rfl := Option.some.inj h
          exact List.mem_cons.mpr (.inl (by rw [eq_of_beq heq]))
      · exact List.mem_cons_of_mem _ (ih h)

end Json
