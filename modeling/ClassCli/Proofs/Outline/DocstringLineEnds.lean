import ClassCli.Docstring.Help
import ClassCli.Outline.Lowering
import ClassCli.Proofs.Docstring.LineEnds
import ClassCli.Proofs.Outline.StringLineEnds
import ClassCli.Proofs.Source.LineEnds

/-!
# Cleaned docstrings and line ends

A carriage return in front of a line feed is white space at the end of a line. Cleaning keeps it there, at most,
so that what a docstring says does not depend on it.

* **`tidyLines_cleandoc`** — the lines of a cleaned text, tidied.
* **`SameDocs`**, **`sameDocs_docstring?`** — docstrings that say the same, and the docstring of a body.
-/

namespace ClassCli.Outline

open Text

/-! ## Lines -/

theorem map_trimEnd_splitAt {s s' : List Char} (h : Returned s s') :
    (splitAt '\n' s').map trimEnd = (splitAt '\n' s).map trimEnd := by
  induction h with
  | nil => rfl
  | @cons c s s' h ih =>
    by_cases hc : c = '\n'
    · rw [hc, splitAt_mark, splitAt_mark, List.map_cons, List.map_cons, ih]
    · obtain ⟨piece, pieces, hs⟩ := exists_splitAt '\n' s
      obtain ⟨piece', pieces', hs'⟩ := exists_splitAt '\n' s'
      rw [hs, hs', List.map_cons, List.map_cons, List.cons.injEq] at ih
      rw [splitAt_cons hc hs, splitAt_cons hc hs', List.map_cons, List.map_cons, ih.2,
        ← trimEnd_cons_trimEnd, ih.1, trimEnd_cons_trimEnd]
  | @feed s s' h ih =>
    obtain ⟨piece', pieces', hs'⟩ := exists_splitAt '\n' s'
    rw [splitAt_cons (by decide) (splitAt_mark s'), splitAt_mark, List.map_cons, List.map_cons, ih]
    rfl

theorem returned_expandTabs {s s' : List Char} (h : Returned s s') :
    Returned (expandTabs s) (expandTabs s') := by
  induction h with
  | nil => exact .nil
  | cons c _ ih =>
    rw [expandTabs, expandTabs, List.flatMap_cons, List.flatMap_cons]
    exact (Returned.refl _).append ih
  | feed _ ih => exact .feed ih

theorem lineMargin_trimEnd (line : List Char) : lineMargin (trimEnd line) = lineMargin line := by
  rw [lineMargin, blank_trimEnd, lineMargin]
  cases h : blank line with
  | true => rfl
  | false => rw [takeWhile_trimEnd h]

/-- Taking away a common margin does not depend on white space at the ends of lines. -/
theorem map_trimEnd_dedent (lines : List (List Char)) :
    (dedent (lines.map trimEnd)).map trimEnd = (dedent lines).map trimEnd := by
  cases lines with
  | nil => rfl
  | cons first rest =>
    have hmargin : commonMargin (rest.map trimEnd) = commonMargin rest := by
      rw [commonMargin, List.filterMap_map, commonMargin]
      congr 2
      exact funext lineMargin_trimEnd
    have hfirst : trimEnd (trimStart (trimEnd first)) = trimEnd (trimStart first) := trim_trimEnd first
    rw [List.map_cons, dedent, hmargin, dedent]
    cases commonMargin rest with
    | none => rw [List.map_cons, List.map_cons, hfirst, map_trimEnd_map]
    | some margin =>
      dsimp only
      rw [List.map_cons, List.map_cons, hfirst, List.map_map, List.map_map, List.map_map]
      refine congrArg _ (List.map_congr_left fun line _ => ?_)
      exact trimEnd_drop_trimEnd line margin

/-! ## Lines of a text that was joined -/

theorem trimEnd_withoutReturn (line : List Char) : trimEnd (withoutReturn line) = trimEnd line := by
  rw [withoutReturn]
  cases hend : beforeEnd ['\r'] line with
  | none => rfl
  | some front =>
    rw [eq_append_of_beforeEnd hend]
    exact (trimEnd_append front rfl).symm

/-- An empty line at the end may go, and carriage returns at the ends of the others. -/
theorem map_trimEnd_endLines (pieces : List (List Char)) :
    pieces.map trimEnd = (endLines pieces).map trimEnd
      ∨ pieces.map trimEnd = (endLines pieces).map trimEnd ++ [[]] := by
  induction pieces with
  | nil => exact Or.inl rfl
  | cons line rest ih =>
    cases rest with
    | nil =>
      cases line with
      | nil => exact Or.inr rfl
      | cons c more => exact Or.inl rfl
    | cons next others =>
      have hline : (endLines (line :: next :: others)).map trimEnd
          = trimEnd line :: (endLines (next :: others)).map trimEnd :=
        congrArg (· :: _) (trimEnd_withoutReturn line)
      rw [hline]
      exact ih.imp (congrArg (trimEnd line :: ·)) (congrArg (trimEnd line :: ·))

theorem tidyLines_endLines (pieces : List (List Char)) : tidyLines (endLines pieces) = tidyLines pieces := by
  rw [← tidied_tidyLines.ends pieces]
  rcases map_trimEnd_endLines pieces with h | h
  · rw [h, tidied_tidyLines.ends]
  · rw [h, tidied_tidyLines.after, tidied_tidyLines.ends]

/-- The lines of a text that was joined, tidied. -/
theorem tidyLines_lines_join {pieces : List (List Char)} (h : ∀ piece ∈ pieces, '\n' ∉ piece) :
    tidyLines (lines (join ['\n'] pieces)) = tidyLines pieces := by
  cases pieces with
  | nil => rfl
  | cons first rest => rw [lines, tidyLines_endLines, splitAt_join (List.cons_ne_nil _ _) h]

/-! ## Cleaned texts -/

theorem mem_of_mem_dropEmptyEnds {lines : List (List Char)} {line : List Char} (h : line ∈ dropEmptyEnds lines) :
    line ∈ lines := by
  have hback := (List.dropWhile_suffix _).subset (List.mem_reverse.mp h)
  exact (List.dropWhile_suffix _).subset (List.mem_reverse.mp hback)

/-- What is left of a line after the indentation is taken away was on the line. -/
theorem suffix_of_mem_dedent {lines : List (List Char)} {line : List Char} (h : line ∈ dedent lines) :
    ∃ whole ∈ lines, line <:+ whole := by
  cases lines with
  | nil => cases h
  | cons first rest =>
    rw [dedent] at h
    split at h
    · rename_i margin _
      rcases List.mem_cons.mp h with rfl | h
      · exact ⟨first, List.mem_cons_self, List.dropWhile_suffix _⟩
      · obtain ⟨whole, hwhole, rfl⟩ := List.mem_map.mp h
        exact ⟨whole, List.mem_cons_of_mem _ hwhole, List.drop_suffix margin whole⟩
    · rcases List.mem_cons.mp h with rfl | h
      · exact ⟨first, List.mem_cons_self, List.dropWhile_suffix _⟩
      · exact ⟨line, List.mem_cons_of_mem _ h, List.suffix_rfl⟩

theorem not_mem_of_mem_dedent {s line : List Char} (h : line ∈ dedent (splitAt '\n' s)) : '\n' ∉ line := by
  obtain ⟨whole, hwhole, hsuffix⟩ := suffix_of_mem_dedent h
  exact fun hmem => not_mem_of_mem_splitAt hwhole (hsuffix.subset hmem)

theorem not_mem_of_mem_cleanLines {s line : List Char} (h : line ∈ cleanLines s) : '\n' ∉ line :=
  not_mem_of_mem_dedent (mem_of_mem_dropEmptyEnds h)

theorem tidyLines_lines_cleandoc (doc : String) :
    tidyLines (lines (cleandoc doc).toList) = tidyLines (dedent (splitAt '\n' (expandTabs doc.toList))) := by
  rw [cleandoc, String.toList_ofList, tidyLines_lines_join fun line hline => not_mem_of_mem_cleanLines hline]
  exact tidied_tidyLines.dropEmptyEnds _

/-- **The lines of a cleaned text**, tidied, do not depend on carriage returns in front of its line feeds. -/
theorem tidyLines_cleandoc {doc doc' : String} (h : Returned doc.toList doc'.toList) :
    tidyLines (lines (cleandoc doc').toList) = tidyLines (lines (cleandoc doc).toList) := by
  have hpieces := map_trimEnd_splitAt (returned_expandTabs h)
  rw [tidyLines_lines_cleandoc, tidyLines_lines_cleandoc, tidyLines, ← map_trimEnd_dedent, hpieces,
    map_trimEnd_dedent, tidyLines]

/-! ## Docstrings -/

/-- Two docstrings that say the same: both are there or neither, and no convention tells them apart. -/
def SameDocs : Option String → Option String → Prop :=
  Option.Rel fun doc doc' => tidyLines (lines doc'.toList) = tidyLines (lines doc.toList)

section SameDocs

variable {docstring docstring' : Option String} (h : SameDocs docstring docstring')
include h

theorem SameDocs.isSome_eq : docstring'.isSome = docstring.isSome := by
  cases h with
  | none => rfl
  | some _ => rfl

theorem SameDocs.summary_eq (convention : Docstring.Convention) :
    Docstring.summary convention docstring' = Docstring.summary convention docstring := by
  cases h with
  | none => rfl
  | some hlines =>
    unfold Docstring.summary
    rw [Option.bind_some, Option.bind_some, Docstring.Convention.summaryLine?_eq hlines]

end SameDocs

/-- Whether no escaped line feed is dropped from the docstring of a body. -/
def keepsDocstring : List Source.Stmt → Bool
  | .expression (.string parts _) :: _ => parts.all fun part => !StringLiteral.joinsLines part
  | _ => true

/-- **The docstring of a body** says the same with carriage returns, if no escaped line feed is dropped
from it. -/
theorem sameDocs_docstring? {body body' : List Source.Stmt} (h : Source.Stmts.Like .returns body body')
    (hkeeps : keepsDocstring body = true) : SameDocs (docstring? body) (docstring? body') := by
  cases h with
  | nil => exact .none
  | cons hs _ =>
    cases hs with
    | expression hx =>
      cases hx with
      | @string parts parts' _ _ hparts =>
        have hjoins : ∀ part ∈ parts, StringLiteral.joinsLines part = false := by
          intro part hpart
          rw [← Bool.not_eq_true']
          exact List.all_eq_true.mp hkeeps part hpart
        have hvalues := StringLiteral.values?_returns hparts hjoins
        rw [docstring?, docstring?]
        generalize StringLiteral.values? parts = v, StringLiteral.values? parts' = v' at hvalues ⊢
        cases hvalues with
        | none => exact .none
        | some hvalue => exact .some (tidyLines_cleandoc hvalue)
      | _ => exact .none
    | _ => exact .none

end ClassCli.Outline
