import Mathlib.Data.List.Nodup

/-!
# Listeners of a shared emitter

An emitter that several parties share is the list of its listeners, an event and
a handler each, in the order in which they were added. `part p` is what belongs
to the handlers that `p` picks: what one party adds and removes changes its own
part only, and changes it the way it would change an emitter of its own.
-/

namespace Emitter

universe u v
variable {ε : Type u} {η : Type v}

def add (listeners : List (ε × η)) (event : ε) (handler : η) : List (ε × η) :=
  listeners ++ [(event, handler)]

def part (p : η → Bool) (listeners : List (ε × η)) : List (ε × η) :=
  listeners.filter fun listener => p listener.2

variable {listeners : List (ε × η)} {event : ε} {handler : η} {p : η → Bool}

theorem part_cons {listener : ε × η} (h : p listener.2 = true) :
    part p (listener :: listeners) = listener :: part p listeners :=
  List.filter_cons_of_pos h

theorem part_cons_of_not {listener : ε × η} (h : p listener.2 = false) :
    part p (listener :: listeners) = part p listeners :=
  List.filter_cons_of_neg (Bool.eq_false_iff.mp h)

theorem part_add (h : p handler = true) :
    part p (add listeners event handler) = add (part p listeners) event handler := by
  rw [part, add, List.filter_append, List.filter_singleton, h]
  rfl

theorem part_add_of_not (h : p handler = false) :
    part p (add listeners event handler) = part p listeners := by
  rw [part, add, List.filter_append, List.filter_singleton, h]
  exact List.append_nil _

theorem part_append {more : List (ε × η)} :
    part p (listeners ++ more) = part p listeners ++ part p more :=
  List.filter_append ..

theorem part_reverse : part p listeners.reverse = (part p listeners).reverse :=
  List.filter_reverse

section Removal

variable [DecidableEq ε] [DecidableEq η]

/-- Takes out the listener of the handler that was added first. -/
def remove (listeners : List (ε × η)) (event : ε) (handler : η) : List (ε × η) :=
  listeners.erase (event, handler)

/-- Takes out the listener of the handler that was added last. -/
def removeLast (listeners : List (ε × η)) (event : ε) (handler : η) : List (ε × η) :=
  (listeners.reverse.erase (event, handler)).reverse

theorem remove_append_cons {before after : List (ε × η)} (h : (event, handler) ∉ before) :
    remove (before ++ (event, handler) :: after) event handler = before ++ after := by
  rw [remove, List.erase_append_right _ h, List.erase_cons_head]

theorem part_remove (h : p handler = true) :
    part p (remove listeners event handler) = remove (part p listeners) event handler := by
  rw [remove, remove]
  induction listeners with
  | nil => rfl
  | cons listener listeners ih =>
      by_cases heq : listener = (event, handler)
      · subst heq
        rw [List.erase_cons_head, part_cons h, List.erase_cons_head]
      · rw [List.erase_cons_tail (by rwa [beq_iff_eq])]
        cases hp : p listener.2 with
        | false => rw [part_cons_of_not hp, part_cons_of_not hp, ih]
        | true => rw [part_cons hp, part_cons hp, ih, List.erase_cons_tail (by rwa [beq_iff_eq])]

theorem part_remove_of_not (h : p handler = false) :
    part p (remove listeners event handler) = part p listeners := by
  rw [remove]
  induction listeners with
  | nil => rfl
  | cons listener listeners ih =>
      by_cases heq : listener = (event, handler)
      · subst heq
        rw [List.erase_cons_head, part_cons_of_not h]
      · rw [List.erase_cons_tail (by rwa [beq_iff_eq])]
        cases hp : p listener.2 with
        | false => rw [part_cons_of_not hp, part_cons_of_not hp, ih]
        | true => rw [part_cons hp, part_cons hp, ih]

/-- Whoever takes out all that is his leaves what is not. -/
theorem foldl_remove_append (gone rest : List (ε × η)) :
    gone.foldl (fun listeners listener => remove listeners listener.1 listener.2) (gone ++ rest) =
      rest := by
  induction gone with
  | nil => rfl
  | cons listener gone ih =>
      rw [List.cons_append, List.foldl_cons, remove, List.erase_cons_head, ih]

theorem part_foldl_remove {gone : List (ε × η)} (h : ∀ listener ∈ gone, p listener.2 = true) :
    part p (gone.foldl (fun listeners listener => remove listeners listener.1 listener.2)
      listeners) =
      gone.foldl (fun listeners listener => remove listeners listener.1 listener.2)
        (part p listeners) := by
  induction gone generalizing listeners with
  | nil => rfl
  | cons listener gone ih =>
      obtain ⟨hfirst, hrest⟩ := List.forall_mem_cons.mp h
      rw [List.foldl_cons, List.foldl_cons, ih hrest, part_remove hfirst]

theorem part_foldl_remove_of_not {gone : List (ε × η)}
    (h : ∀ listener ∈ gone, p listener.2 = false) :
    part p (gone.foldl (fun listeners listener => remove listeners listener.1 listener.2)
      listeners) = part p listeners := by
  induction gone generalizing listeners with
  | nil => rfl
  | cons listener gone ih =>
      obtain ⟨hfirst, hrest⟩ := List.forall_mem_cons.mp h
      rw [List.foldl_cons, ih hrest, part_remove_of_not hfirst]

theorem part_removeLast (h : p handler = true) :
    part p (removeLast listeners event handler) =
      removeLast (part p listeners) event handler := by
  rw [removeLast, part_reverse, ← remove, part_remove h, part_reverse, removeLast, remove]

theorem part_removeLast_of_not (h : p handler = false) :
    part p (removeLast listeners event handler) = part p listeners := by
  rw [removeLast, part_reverse, ← remove, part_remove_of_not h, part_reverse, List.reverse_reverse]

/-- Without a listener twice, only the removed one is gone. -/
theorem removeLast_eq_filter (h : listeners.Nodup) :
    removeLast listeners event handler = listeners.filter (· != (event, handler)) := by
  rw [removeLast, List.Nodup.erase_eq_filter (List.nodup_reverse.mpr h), ← List.filter_reverse,
    List.reverse_reverse]

theorem mem_removeLast {listener : ε × η} (h : listeners.Nodup) :
    listener ∈ removeLast listeners event handler ↔
      listener ∈ listeners ∧ listener ≠ (event, handler) := by
  rw [removeLast_eq_filter h, List.mem_filter, bne_iff_ne]

theorem nodup_removeLast (h : listeners.Nodup) : (removeLast listeners event handler).Nodup :=
  List.nodup_reverse.mpr ((List.nodup_reverse.mpr h).erase _)

/-- Takes out the listeners one after another, each where it was added last. -/
def removeEach (gone listeners : List (ε × η)) : List (ε × η) :=
  gone.foldl (fun listeners listener => removeLast listeners listener.1 listener.2) listeners

theorem removeEach_append {gone more : List (ε × η)} :
    removeEach (gone ++ more) listeners = removeEach more (removeEach gone listeners) :=
  List.foldl_append

theorem part_removeEach {gone : List (ε × η)} (h : ∀ listener ∈ gone, p listener.2 = true) :
    part p (removeEach gone listeners) = removeEach gone (part p listeners) := by
  induction gone generalizing listeners with
  | nil => rfl
  | cons listener gone ih =>
      obtain ⟨hfirst, hrest⟩ := List.forall_mem_cons.mp h
      exact (ih hrest).trans (congrArg (removeEach gone) (part_removeLast hfirst))

theorem part_removeEach_of_not {gone : List (ε × η)}
    (h : ∀ listener ∈ gone, p listener.2 = false) :
    part p (removeEach gone listeners) = part p listeners := by
  induction gone generalizing listeners with
  | nil => rfl
  | cons listener gone ih =>
      obtain ⟨hfirst, hrest⟩ := List.forall_mem_cons.mp h
      exact (ih hrest).trans (part_removeLast_of_not hfirst)

/-- Nothing is left of listeners that are all taken out. -/
theorem removeEach_eq_nil {gone : List (ε × η)} (h : listeners.Nodup) (hall : listeners ⊆ gone) :
    removeEach gone listeners = [] := by
  induction gone generalizing listeners with
  | nil => exact List.subset_nil.mp hall
  | cons first gone ih =>
      apply ih (nodup_removeLast h)
      intro listener hmem
      obtain ⟨hold, hne⟩ := (mem_removeLast h).mp hmem
      exact (List.mem_cons.mp (hall hold)).resolve_left hne

end Removal

end Emitter
