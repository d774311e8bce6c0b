import Mathlib.Data.List.TakeWhile
import ClassCli.Outline.Cleandoc
import ClassCli.Proofs.Text.Trimming

/-!
# Lines with and without white space around them

Much that is done with the lines of a text sees neither white space at the ends of the lines nor empty lines
before and after them. It gives the same for lines that are the same without these.

* **`tidyLines`** — lines without white space at their ends, and without empty lines at either end.
* **`Tidied`** — functions of lines that do not see what `tidyLines` takes away.
* **`Tidied.eq_of_tidyLines`** — such a function gives the same for lines that are the same when tidied.
-/

namespace ClassCli.Text

open Outline (dropEmptyEnds)

/-! ## White space at the end of a line -/

section TrimEnd

variable (s : List Char) {space : List Char}

theorem trimEnd_append (h : blank space = true) : trimEnd (s ++ space) = trimEnd s := by
  have hspace : ∀ c ∈ space.reverse, isBlank c = true := by
    intro c hc
    exact List.all_eq_true.mp h c (List.mem_reverse.mp hc)
  rw [trimEnd, List.reverse_append, List.dropWhile_append_of_pos hspace, trimEnd]

/-- What stands at the end of a line. -/
theorem exists_trimEnd_append : ∃ space, blank space = true ∧ s = trimEnd s ++ space := by
  refine ⟨(s.reverse.takeWhile isBlank).reverse, ?_, ?_⟩
  · rw [blank, List.all_reverse]
    exact List.all_takeWhile
  · rw [trimEnd, ← List.reverse_append, List.takeWhile_append_dropWhile, List.reverse_reverse]

variable {s} in
/-- Nothing is taken from the text in front of one that holds something. -/
theorem trimEnd_append_of_not_blank (h : blank s = false) (front : List Char) :
    trimEnd (front ++ s) = front ++ trimEnd s := by
  have hne : ¬(s.reverse.dropWhile isBlank).isEmpty = true := by
    intro hnil
    have hall := List.dropWhile_eq_nil_iff.mp (List.isEmpty_iff.mp hnil)
    rw [← List.all_eq_true, List.all_reverse, ← blank, h] at hall
    cases hall
  rw [trimEnd, List.reverse_append, List.dropWhile_append, if_neg hne, List.reverse_append,
    List.reverse_reverse, trimEnd]

theorem trimEnd_trimEnd : trimEnd (trimEnd s) = trimEnd s := by
  obtain ⟨space, hspace, hs⟩ := exists_trimEnd_append s
  conv => rhs; rw [hs, trimEnd_append _ hspace]

theorem trimEnd_cons_trimEnd (c : Char) : trimEnd (c :: trimEnd s) = trimEnd (c :: s) := by
  obtain ⟨space, hspace, hs⟩ := exists_trimEnd_append s
  conv => rhs; rw [hs, ← List.cons_append, trimEnd_append _ hspace]

theorem trimEnd_drop_trimEnd (n : Nat) : trimEnd ((trimEnd s).drop n) = trimEnd (s.drop n) := by
  obtain ⟨space, hspace, hs⟩ := exists_trimEnd_append s
  have hdrop : blank (space.drop (n - (trimEnd s).length)) = true :=
    List.all_eq_true.mpr fun c hc => List.all_eq_true.mp hspace c (List.mem_of_mem_drop hc)
  conv => rhs; rw [hs, List.drop_append, trimEnd_append _ hdrop]

theorem blank_trimEnd : blank (trimEnd s) = blank s := by
  obtain ⟨space, hspace, hs⟩ := exists_trimEnd_append s
  conv => rhs; rw [hs, blank, List.all_append]
  rw [blank] at hspace
  rw [hspace, Bool.and_true]
  rfl

theorem trimEnd_of_blank {s : List Char} (h : blank s = true) : trimEnd s = [] := trimEnd_append [] h

/-- What opens a line that holds anything else. -/
theorem takeWhile_trimEnd {s : List Char} (h : blank s = false) :
    (trimEnd s).takeWhile isBlank = s.takeWhile isBlank := by
  obtain ⟨space, -, hs⟩ := exists_trimEnd_append s
  rw [← blank_trimEnd, blank] at h
  conv => rhs; rw [hs, List.takeWhile_append]
  rw [if_neg]
  intro hlength
  have hall : (trimEnd s).takeWhile isBlank = trimEnd s :=
    (List.takeWhile_prefix isBlank).eq_of_length hlength
  have hblank : ((trimEnd s).takeWhile isBlank).all isBlank = true := List.all_takeWhile
  rw [hall, h] at hblank
  cases hblank

theorem indentation_trimEnd {s : List Char} (h : blank s = false) :
    indentation (trimEnd s) = indentation s := by
  rw [indentation, takeWhile_trimEnd h, indentation]

theorem trim_of_blank {s : List Char} (h : blank s = true) : trim s = [] := by
  have hstart : trimStart s = [] := List.dropWhile_eq_nil_iff.mpr (List.all_eq_true.mp h)
  rw [trim, hstart]
  rfl

theorem trim_trimEnd : trim (trimEnd s) = trim s := by
  obtain ⟨space, hspace, hs⟩ := exists_trimEnd_append s
  cases hblank : blank s with
  | true => rw [trimEnd_of_blank hblank, trim_of_blank hblank, trim_of_blank rfl]
  | false =>
    rw [← blank_trimEnd, blank, List.all_eq_false] at hblank
    obtain ⟨c, hc, hvisible⟩ := hblank
    have hstart : trimStart (trimEnd s ++ space) = trimStart (trimEnd s) ++ space := by
      rw [trimStart, List.dropWhile_append, if_neg, trimStart]
      rw [List.isEmpty_iff, List.dropWhile_eq_nil_iff]
      exact fun hall => hvisible (hall c hc)
    conv => rhs; rw [hs, trim, hstart, trimEnd_append _ hspace]
    rfl

/-- A text is what is left of it when it is trimmed, with white space on both sides. -/
theorem exists_append_trim (s : List Char) :
    ∃ front back, blank front = true ∧ blank back = true ∧ s = front ++ (trim s ++ back) := by
  obtain ⟨back, hback, hstart⟩ := exists_trimEnd_append (trimStart s)
  refine ⟨s.takeWhile isBlank, back, List.all_takeWhile, hback, ?_⟩
  rw [trim, ← hstart, trimStart, List.takeWhile_append_dropWhile]

theorem trim_append_of_blank_left {space : List Char} (h : blank space = true) (s : List Char) :
    trim (space ++ s) = trim s := by
  have hstart : trimStart (space ++ s) = trimStart s := List.dropWhile_append_of_pos (List.all_eq_true.mp h)
  rw [trim, hstart, trim]

theorem trim_append_of_blank_right {space : List Char} (h : blank space = true) (s : List Char) :
    trim (s ++ space) = trim s := by
  rw [← trim_trimEnd, trimEnd_append s h, trim_trimEnd]

theorem splitOnce_of_not_mem {mark : Char} {s : List Char} (h : mark ∉ s) : splitOnce mark s = none := by
  have hdrop : s.dropWhile (· != mark) = [] := by
    refine List.dropWhile_eq_nil_iff.mpr fun c hc => bne_iff_ne.mpr ?_
    rintro rfl
    exact h hc
  rw [splitOnce, hdrop]

/-- What stands around the first occurrence of a character, if what is behind it is trimmed. -/
theorem splitOnce_trimEnd {mark : Char} (hmark : isBlank mark = false) :
    (splitOnce mark (trimEnd s)).map (fun (front, back) => (front, trim back))
      = (splitOnce mark s).map fun (front, back) => (front, trim back) := by
  obtain ⟨space, hspace, hs⟩ := exists_trimEnd_append s
  have hnot : mark ∉ space := by
    intro hmem
    rw [List.all_eq_true.mp hspace mark hmem] at hmark
    cases hmark
  by_cases hmem : mark ∈ trimEnd s
  · obtain ⟨front, back, hparts, hfront⟩ := List.eq_append_cons_of_mem hmem
    rw [hparts] at hs
    rw [hparts, hs, List.append_assoc, List.cons_append, splitOnce_append hfront, splitOnce_append hfront]
    show some (front, trim back) = some (front, trim (back ++ space))
    rw [← trim_trimEnd (back ++ space), trimEnd_append _ hspace, trim_trimEnd]
  · have hnone : mark ∉ s := by
      rw [hs, List.mem_append]
      exact fun h => h.elim hmem hnot
    rw [splitOnce_of_not_mem hmem, splitOnce_of_not_mem hnone]

end TrimEnd

/-! ## What opens a list -/

section TakeWhile

variable {α : Type} {p q : α → Bool}

theorem takeWhile_congr {l : List α} (h : ∀ x ∈ l, p x = q x) : l.takeWhile p = l.takeWhile q := by
  induction l with
  | nil => rfl
  | cons x l ih =>
    rw [List.forall_mem_cons] at h
    rw [List.takeWhile_cons, List.takeWhile_cons, h.1, ih h.2]

theorem takeWhile_concat {x : α} (hx : p x = false) (l : List α) : (l ++ [x]).takeWhile p = l.takeWhile p := by
  induction l with
  | nil => rw [List.nil_append, List.takeWhile_cons, hx]; rfl
  | cons y l ih => rw [List.cons_append, List.takeWhile_cons, List.takeWhile_cons, ih]

end TakeWhile

/-! ## Tidy lines -/

/-- The lines without white space at their ends, and without empty lines at either end. -/
def tidyLines (lines : List (List Char)) : List (List Char) := dropEmptyEnds (lines.map trimEnd)

/-- A function of lines that sees neither white space at the ends of the lines nor empty lines at either end. -/
structure Tidied {β : Type} (F : List (List Char) → β) : Prop where
  ends : ∀ lines, F (lines.map trimEnd) = F lines
  before : ∀ lines, F ([] :: lines) = F lines
  after : ∀ lines, F (lines ++ [[]]) = F lines

section Principle

variable {β : Type} {F : List (List Char) → β}

theorem dropWhile_isEmpty_of (h : ∀ lines, F ([] :: lines) = F lines) (lines : List (List Char)) :
    F (lines.dropWhile List.isEmpty) = F lines := by
  induction lines with
  | nil => rfl
  | cons line rest ih =>
    cases line with
    | nil => exact ih.trans (h rest).symm
    | cons c more => rfl

/-- Empty lines at either end go one by one. -/
theorem Tidied.dropEmptyEnds (h : Tidied F) (lines : List (List Char)) : F (dropEmptyEnds lines) = F lines := by
  have hback (lines : List (List Char)) : F ([] :: lines).reverse = F lines.reverse := by
    rw [List.reverse_cons, h.after]
  have hend := dropWhile_isEmpty_of (F := fun lines => F lines.reverse) hback
    (lines.dropWhile List.isEmpty).reverse
  rw [List.reverse_reverse] at hend
  exact hend.trans (dropWhile_isEmpty_of h.before lines)

theorem Tidied.tidyLines (h : Tidied F) (lines : List (List Char)) : F (tidyLines lines) = F lines := by
  rw [Text.tidyLines, h.dropEmptyEnds, h.ends]

/-- **What does not see the ends of lines** gives the same for lines that are the same when tidied. -/
theorem Tidied.eq_of_tidyLines (h : Tidied F) {lines lines' : List (List Char)}
    (htidy : Text.tidyLines lines' = Text.tidyLines lines) : F lines' = F lines := by
  rw [← h.tidyLines lines', htidy, h.tidyLines]

end Principle

theorem map_trimEnd_map (lines : List (List Char)) : (lines.map trimEnd).map trimEnd = lines.map trimEnd := by
  rw [List.map_map]
  exact List.map_congr_left fun line _ => trimEnd_trimEnd line

theorem tidied_tidyLines : Tidied tidyLines where
  ends lines := by rw [tidyLines, map_trimEnd_map, tidyLines]
  before lines := rfl
  after lines := by
    rw [tidyLines, List.map_append, List.map_singleton, tidyLines, dropEmptyEnds, dropEmptyEnds]
    rw [List.dropWhile_append]
    split
    · rename_i hempty
      rw [List.isEmpty_iff.mp hempty]
      rfl
    · rw [List.reverse_append]
      rfl

end ClassCli.Text
