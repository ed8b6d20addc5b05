import Mathlib.Data.List.Forall2

/-!
# Logs with a capacity

A log that is full takes no further entry, so that it holds the first items it
was offered. Entries are stamped by a counter that only grows, so that their
stamps increase.
-/

universe u v

namespace CappedLog

variable {α : Type u} {β : Type v}

/-- The log holds an entry for each of the first `cap` items, in order. -/
def Keeps (Entry : α → β → Prop) (cap : Nat) (log : List α) (items : List β) : Prop :=
  List.Forall₂ Entry log (items.take cap)

section Keeps

variable {Entry : α → β → Prop} {cap : Nat} {log : List α} {items : List β} {entry : α} {item : β}

theorem keeps_nil : Keeps Entry cap ([] : List α) ([] : List β) := by
  unfold Keeps
  rw [List.take_nil]
  exact .nil

theorem Keeps.length (h : Keeps Entry cap log items) : log.length = min cap items.length := by
  rw [← List.length_take]
  exact List.Forall₂.length_eq h

/-- There is room for the entry of one more item. -/
theorem Keeps.push (h : Keeps Entry cap log items) (hroom : log.length < cap)
    (hentry : Entry entry item) : Keeps Entry cap (log ++ [entry]) (items ++ [item]) := by
  have hlength : items.length < cap := by
    have := h.length
    omega
  unfold Keeps at h ⊢
  rw [List.take_of_length_le (Nat.le_of_lt hlength)] at h
  rw [List.take_of_length_le (by rw [List.length_append, List.length_singleton]; omega)]
  exact List.rel_append h (.cons hentry .nil)

/-- A full log takes no entry. -/
theorem Keeps.skip (h : Keeps Entry cap log items) (hfull : cap ≤ log.length) :
    Keeps Entry cap log (items ++ [item]) := by
  have hlength : cap ≤ items.length := by
    have := h.length
    omega
  unfold Keeps at h ⊢
  rwa [List.take_append_of_le_length hlength]

end Keeps

section Stamped

variable {stamp : α → Nat} {clock clock' : Nat} {log : List α} {entry : α}

/-- The stamps increase, and none is beyond the clock. -/
structure Stamped (stamp : α → Nat) (clock : Nat) (log : List α) : Prop where
  increasing : (log.map stamp).Pairwise (· < ·)
  below : ∀ entry ∈ log, stamp entry ≤ clock

theorem stamped_nil : Stamped stamp clock [] :=
  ⟨List.Pairwise.nil, fun _ h => absurd h List.not_mem_nil⟩

theorem Stamped.mono (h : Stamped stamp clock log) (hle : clock ≤ clock') :
    Stamped stamp clock' log :=
  ⟨h.increasing, fun entry hmem => Nat.le_trans (h.below entry hmem) hle⟩

theorem Stamped.push (h : Stamped stamp clock log) (entry : α) (hlt : clock < stamp entry) :
    Stamped stamp (stamp entry) (log ++ [entry]) := by
  constructor
  · rw [List.map_append, List.pairwise_append]
    refine ⟨h.increasing, List.pairwise_singleton _ _, ?_⟩
    intro a ha b hb
    obtain ⟨other, hother, rfl⟩ := List.mem_map.mp ha
    rw [List.mem_singleton.mp hb]
    exact Nat.lt_of_le_of_lt (h.below other hother) hlt
  · intro other hmem
    rcases List.mem_append.mp hmem with hmem | hmem
    · exact Nat.le_of_lt (Nat.lt_of_le_of_lt (h.below other hmem) hlt)
    · exact Nat.le_of_eq (congrArg stamp (List.mem_singleton.mp hmem))

end Stamped

end CappedLog
