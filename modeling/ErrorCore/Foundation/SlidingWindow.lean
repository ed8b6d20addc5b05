import Mathlib.Data.Int.Basic

/-!
# Sliding windows over a history of times

A component that admits at most so many times in a window keeps only the recent
part of its history. `Paced` relates what it keeps to the whole history, and
bounds every window of it, not only those that end at a decision.
-/

namespace SlidingWindow

/-- The times later than a cutoff. -/
def after (cutoff : Int) (times : List Int) : List Int :=
  times.filter fun time => cutoff < time

/-- The times in the half-open window that begins at `start`. -/
def window (start : Int) (width : Nat) (times : List Int) : List Int :=
  times.filter fun time => start ≤ time ∧ time < start + width

section Basic

variable {cutoff cutoff' start now clock : Int} {width : Nat} {times times' : List Int}

@[simp] theorem after_nil : after cutoff [] = [] := rfl

@[simp] theorem window_nil : window start width [] = [] := rfl

theorem after_append : after cutoff (times ++ times') = after cutoff times ++ after cutoff times' :=
  List.filter_append ..

theorem window_append :
    window start width (times ++ times') = window start width times ++ window start width times' :=
  List.filter_append ..

/-- A later cutoff makes an earlier one redundant. -/
theorem after_after (hle : cutoff ≤ cutoff') :
    after cutoff' (after cutoff times) = after cutoff' times := by
  unfold after
  rw [List.filter_filter]
  apply List.filter_congr
  intro time _
  simp only [Bool.and_eq_left_iff_imp, decide_eq_true_eq]
  omega

/-- Before the clock, what is after a cutoff is a window. -/
theorem after_eq_window (hpast : ∀ time ∈ times, time ≤ now) :
    after (now - width) times = window (now - width + 1) width times := by
  apply List.filter_congr
  intro time hmem
  have hle : time ≤ now := hpast time hmem
  simp only [decide_eq_decide]
  omega

/-- A window that a time lies in holds only times after the one a window earlier. -/
theorem length_window_le_length_after (hmem : start ≤ now ∧ now < start + width) :
    (window start width times).length ≤ (after (now - width) times).length := by
  unfold window after
  rw [← List.countP_eq_length_filter, ← List.countP_eq_length_filter]
  apply List.countP_mono_left
  intro time _ hwindow
  simp only [decide_eq_true_eq] at hwindow ⊢
  omega

end Basic

/-- What is kept of a history decides every later cutoff, and each window of it is bounded. -/
structure Paced (cap width : Nat) (clock : Int) (kept history : List Int) : Prop where
  recent : ∀ now, clock ≤ now → after (now - width) kept = after (now - width) history
  past : ∀ time ∈ history, time ≤ clock
  bounded : ∀ start, (window start width history).length ≤ cap

namespace Paced

variable {cap width : Nat} {clock now : Int} {kept history : List Int}

theorem nil : Paced cap width clock [] [] where
  recent := by intro now _; rfl
  past := by intro time hmem; cases hmem
  bounded := by intro start; exact Nat.zero_le cap

/-- At a decision, what is kept after the cutoff is the window that ends there. -/
theorem after_kept_eq_window (h : Paced cap width clock kept history) (hclock : clock ≤ now) :
    after (now - width) kept = window (now - width + 1) width history := by
  rw [h.recent now hclock]
  exact after_eq_window fun time hmem => Int.le_trans (h.past time hmem) hclock

/-- A later cutoff decides as before what was kept after the one of a decision. -/
theorem after_after_kept (h : Paced cap width clock kept history) (hclock : clock ≤ now)
    {later : Int} (hlater : now ≤ later) :
    after (later - width) (after (now - width) kept) = after (later - width) history := by
  rw [after_after (by omega)]
  exact h.recent later (Int.le_trans hclock hlater)

/-- A time that is not admitted only moves the cutoff. -/
theorem deny (h : Paced cap width clock kept history) (hclock : clock ≤ now) :
    Paced cap width now (after (now - width) kept) history where
  recent := by intro later hlater; exact h.after_after_kept hclock hlater
  past := by intro time hmem; exact Int.le_trans (h.past time hmem) hclock
  bounded := h.bounded

/-- A time may be admitted where the window before it has room. -/
theorem accept (h : Paced cap width clock kept history) (hclock : clock ≤ now)
    (hroom : (after (now - width) kept).length < cap) :
    Paced cap width now (after (now - width) kept ++ [now]) (history ++ [now]) := by
  constructor
  · intro later hlater
    rw [after_append, after_append, h.after_after_kept hclock hlater]
  · intro time hmem
    rcases List.mem_append.mp hmem with hmem | hmem
    · exact Int.le_trans (h.past time hmem) hclock
    · exact Int.le_of_eq (List.mem_singleton.mp hmem)
  · intro start
    rw [window_append, List.length_append]
    by_cases hwindow : start ≤ now ∧ now < start + width
    · rw [h.recent now hclock] at hroom
      have hle : (window start width history).length ≤ (after (now - width) history).length :=
        length_window_le_length_after hwindow
      have hsingle : (window start width [now]).length ≤ 1 := List.length_filter_le ..
      omega
    · have hsingle : window start width [now] = [] := by
        unfold window
        rw [List.filter_eq_nil_iff]
        intro time hmem
        rw [List.mem_singleton.mp hmem]
        simpa only [decide_eq_true_eq] using hwindow
      rw [hsingle, List.length_nil, Nat.add_zero]
      exact h.bounded start

end Paced

end SlidingWindow
