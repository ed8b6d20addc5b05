import ErrorCore.Foundation.Text

/-!
# Texts that grow by lines

A text of lines is cut at its newlines. What follows the last newline is the
open line: text that is appended continues it, and every line before it stays.
-/

namespace Text

variable {separator c : Char} {a b : Text}

theorem split_ne_nil (separator : Char) (text : Text) : split separator text ≠ [] :=
  List.splitOn_ne_nil separator text

@[simp] theorem split_nil (separator : Char) : split separator [] = [[]] :=
  List.splitOn_nil separator

theorem split_cons_self (separator : Char) (a : Text) :
    split separator (separator :: a) = [] :: split separator a := by
  simp [split, List.splitOn_cons_eq_if_modifyHead]

theorem split_cons_of_ne (h : c ≠ separator) :
    split separator (c :: a) = (split separator a).modifyHead (c :: ·) := by
  simp [split, List.splitOn_cons_eq_if_modifyHead, h]

/-- The text after the last separator. -/
def openPart (separator : Char) (text : Text) : Text := (split separator text).getLastD []

/-- The parts that a separator ends. -/
def closedParts (separator : Char) (text : Text) : List Text := (split separator text).dropLast

theorem split_eq (separator : Char) (text : Text) :
    split separator text = closedParts separator text ++ [openPart separator text] := by
  have hne := split_ne_nil separator text
  rw [closedParts, openPart, List.getLastD_eq_getLast?, List.getLast?_eq_getLast_of_ne_nil hne,
    Option.getD_some, List.dropLast_append_getLast hne]

/-- Text that is appended continues the open part. -/
theorem split_append (separator : Char) (a b : Text) :
    split separator (a ++ b) =
      closedParts separator a ++ split separator (openPart separator a ++ b) := by
  induction a with
  | nil => simp [closedParts, openPart]
  | cons c a ih =>
      have hparts := split_eq separator a
      by_cases hc : c = separator
      · subst hc
        have hcons : split c (c :: a) = ([] :: closedParts c a) ++ [openPart c a] := by
          rw [split_cons_self, hparts]
          rfl
        have hclosed : closedParts c (c :: a) = [] :: closedParts c a := by
          rw [closedParts, hcons, List.dropLast_concat]
        have hopen : openPart c (c :: a) = openPart c a := by
          rw [openPart, hcons, List.getLastD_concat]
        rw [List.cons_append, split_cons_self, ih, hclosed, hopen]
        rfl
      · rw [List.cons_append, split_cons_of_ne hc, ih]
        have hcons := split_cons_of_ne (a := a) hc
        cases hfirst : closedParts separator a with
        | nil =>
            rw [hparts, hfirst] at hcons
            have hclosed : closedParts separator (c :: a) = [] := by
              rw [closedParts, hcons]
              rfl
            have hopen : openPart separator (c :: a) = c :: openPart separator a := by
              rw [openPart, hcons]
              rfl
            rw [hclosed, hopen, List.nil_append, List.nil_append, List.cons_append,
              split_cons_of_ne hc]
        | cons first rest =>
            have hcons' : split separator (c :: a) =
                ((c :: first) :: rest) ++ [openPart separator a] := by
              rw [hcons, hparts, hfirst]
              rfl
            have hclosed : closedParts separator (c :: a) = (c :: first) :: rest := by
              rw [closedParts, hcons', List.dropLast_concat]
            have hopen : openPart separator (c :: a) = openPart separator a := by
              rw [openPart, hcons', List.getLastD_concat]
            rw [hclosed, hopen]
            rfl

/-- Text that is appended leaves the closed parts. -/
theorem closedParts_append (separator : Char) (a b : Text) :
    closedParts separator (a ++ b) =
      closedParts separator a ++ closedParts separator (openPart separator a ++ b) := by
  have hne := split_ne_nil separator (openPart separator a ++ b)
  rw [closedParts, split_append, List.dropLast_append_of_ne_nil hne]
  rfl

theorem notMem_of_mem_split {part : Text} (h : part ∈ split separator a) : separator ∉ part := by
  induction a generalizing part with
  | nil =>
      rw [split_nil, List.mem_singleton] at h
      simp [h]
  | cons c a ih =>
      by_cases hc : c = separator
      · subst hc
        rw [split_cons_self] at h
        rcases List.mem_cons.mp h with rfl | hrest
        · exact List.not_mem_nil
        · exact ih hrest
      · rw [split_cons_of_ne hc] at h
        cases hparts : split separator a with
        | nil => exact absurd hparts (split_ne_nil separator a)
        | cons first rest =>
            rw [hparts, List.modifyHead_cons] at h
            rcases List.mem_cons.mp h with rfl | hrest
            · have hfirst := ih (hparts ▸ List.mem_cons_self)
              intro hmem
              rcases List.mem_cons.mp hmem with heq | hmem
              · exact hc heq.symm
              · exact hfirst hmem
            · exact ih (hparts ▸ List.mem_cons_of_mem _ hrest)

theorem notMem_openPart (separator : Char) (text : Text) :
    separator ∉ openPart separator text := by
  apply notMem_of_mem_split (a := text)
  rw [split_eq]
  exact List.mem_append_right _ List.mem_cons_self

theorem split_of_notMem (h : separator ∉ a) : split separator a = [a] :=
  List.splitOn_eq_singleton h

/-- Joined parts with a separator at the end are split into the parts and an empty one. -/
theorem split_join_append {parts : List Text} (hne : parts ≠ [])
    (hparts : ∀ part ∈ parts, separator ∉ part) :
    split separator (join [separator] parts ++ [separator]) = parts ++ [[]] := by
  have happend : split separator (join [separator] parts ++ separator :: []) =
      split separator (join [separator] parts) ++ split separator [] :=
    List.splitOn_append_cons_self _ _
  have hjoin : split separator (join [separator] parts) = parts :=
    List.splitOn_intercalate separator hparts hne
  rw [happend, hjoin, split_nil]

/-- The open part of a text with a separator at its end is empty. -/
theorem openPart_append_separator (separator : Char) (a : Text) :
    openPart separator (a ++ [separator]) = [] := by
  have happend : split separator (a ++ separator :: []) =
      split separator a ++ split separator [] :=
    List.splitOn_append_cons_self _ _
  rw [openPart, happend, split_nil, List.getLastD_concat]

end Text
