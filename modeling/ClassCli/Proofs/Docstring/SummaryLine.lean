import ClassCli.Proofs.Docstring.Described
import ClassCli.Proofs.Docstring.Indented

/-!
# The summary is free text

The summary of a docstring is its first line of free text: a line that holds something and is no markup of the
convention. Tags, rules and the titles above them are passed over. The convention with indented sections passes
over nothing, so that a docstring that opens with a section has the title of this section for its summary.

* **`Convention.isMarkup`**, **`FirstFree`** — the markup of a convention, and the first line that is none.
* **`found?_cons`** — the summary, line by line.
* **`summary_free_iff`** — where the summary is free text.
-/

namespace ClassCli.Docstring

open Text

/-! ## Free text -/

/-- Whether a line is markup, given the lines after it: the title of a section on parameters or on the result, a
line that opens with the mark of the tags, or a rule of dashes or the title above one. -/
def Convention.isMarkup (convention : Convention) (line : List Char) (following : List (List Char)) : Bool :=
  match convention with
  | .google => Indented.isTitle Indented.allTitles line
  | .epytext => (trim line).head? == some '@'
  | .rest => (trim line).head? == some ':'
  | .numpydoc => Underlined.isRule line || following.head?.any Underlined.isRule

/-- Whether a line holds something and is no markup. -/
def Convention.isFree (convention : Convention) (line : List Char) (following : List (List Char)) : Bool :=
  !blank line && !convention.isMarkup line following

/-- The first line of free text: none of the lines before it is free. -/
inductive FirstFree (convention : Convention) : List (List Char) → List Char → Prop
  | here {line : List Char} {following : List (List Char)} :
      convention.isFree line following = true → FirstFree convention (line :: following) line
  | later {line found : List Char} {following : List (List Char)} :
      convention.isFree line following = false → FirstFree convention following found →
      FirstFree convention (line :: following) found

/-- A summary as it should be: the first line of free text, trimmed. -/
def IsSummary (convention : Convention) (doc summary : String) : Prop :=
  ∃ line, FirstFree convention (lines doc.toList) line ∧ summary = String.ofList (trim line)

/-- Whether the first line that holds something is the title of an indented section. -/
def OpensWithTitle (convention : Convention) (lines : List (List Char)) : Prop :=
  convention = .google ∧ ∃ line ∈ lines.find? (!blank ·), Indented.isTitle Indented.allTitles line = true

section FirstFree

variable {convention : Convention} {lines : List (List Char)} {found : List Char}

theorem FirstFree.isFree (h : FirstFree convention lines found) :
    ∃ following, convention.isFree found following = true := by
  induction h with
  | here hfree => exact ⟨_, hfree⟩
  | later _ _ ih => exact ih

/-- Either the first line is the one, or it is not free and the one comes later. -/
theorem firstFree_cons_iff {line : List Char} :
    FirstFree convention (line :: lines) found ↔
      if convention.isFree line lines = true then found = line else FirstFree convention lines found := by
  constructor
  · intro h
    cases h with
    | here hfree => rw [if_pos hfree]
    | later hfree hlater =>
      rw [hfree, if_neg Bool.false_ne_true]
      exact hlater
  · intro h
    cases hfree : convention.isFree line lines with
    | true =>
      rw [hfree, if_pos rfl] at h
      rw [h]
      exact .here hfree
    | false =>
      rw [hfree, if_neg Bool.false_ne_true] at h
      exact .later hfree h

end FirstFree

/-! ## The summary, line by line -/

theorem isEmpty_trim (line : List Char) : (trim line).isEmpty = blank line := by
  cases hblank : blank line with
  | true => rw [trim_of_blank hblank]; rfl
  | false => exact List.isEmpty_eq_false_iff.mpr (trim_ne_nil hblank)

/-- The line that a convention takes for the summary, trimmed. -/
def Convention.found? (convention : Convention) (lines : List (List Char)) : Option (List Char) :=
  match convention with
  | .google => firstLine? none lines
  | .epytext => firstLine? (some Tagged.epytext.mark) lines
  | .rest => firstLine? (some Tagged.rest.mark) lines
  | .numpydoc => Underlined.summary? lines

theorem summaryLine?_eq_found? (convention : Convention) (doc : String) :
    convention.summaryLine? doc = (convention.found? (lines doc.toList)).map String.ofList := by
  cases convention with
  | google | epytext | rest | numpydoc => rfl

theorem firstLine?_cons (mark : Option Char) (line : List Char) (rest : List (List Char)) :
    Convention.firstLine? mark (line :: rest) =
      if (!blank line && (mark.isNone || (trim line).head? != mark)) = true then some (trim line)
      else Convention.firstLine? mark rest := by
  rw [Convention.firstLine?, List.map_cons, List.find?_cons, isEmpty_trim, Convention.firstLine?]
  cases !blank line && (mark.isNone || (trim line).head? != mark) with
  | true => rfl
  | false => rfl

section Found

variable {convention : Convention} {line : List Char} {rest : List (List Char)}

/-- **A line is the summary exactly if it is free**, unless the docstring opens with a title. -/
theorem found?_cons (h : ¬OpensWithTitle convention (line :: rest)) :
    convention.found? (line :: rest) =
      if convention.isFree line rest = true then some (trim line) else convention.found? rest := by
  cases convention with
  | google =>
    have hfree : Convention.google.isFree line rest = !blank line := by
      rw [Convention.isFree]
      cases hblank : blank line with
      | true => rfl
      | false =>
        have htitle : Indented.isTitle Indented.allTitles line = false := by
          rw [← Bool.not_eq_true]
          exact fun htitle => h ⟨rfl, line, by rw [List.find?_cons, hblank]; rfl, htitle⟩
        rw [Convention.isMarkup, htitle]
        rfl
    rw [Convention.found?, firstLine?_cons, hfree, Option.isNone_none, Bool.true_or, Bool.and_true]
    rfl
  | epytext | rest => exact firstLine?_cons _ line rest
  | numpydoc =>
    have hfree : (!blank line && !Underlined.isRule line && !Underlined.isTitle line rest) =
        Convention.numpydoc.isFree line rest := by
      rw [Underlined.isTitle, Convention.isFree, Convention.isMarkup]
      cases rest with
      | nil => cases blank line <;> cases Underlined.isRule line <;> rfl
      | cons next others =>
        rw [List.head?_cons, Option.map_some, Option.getD_some, Option.any_some]
        cases blank line <;> cases Underlined.isRule line <;> rfl
    rw [Convention.found?, Underlined.summary?, hfree]
    rfl

theorem opensWithTitle_of_later (hfree : convention.isFree line rest = false)
    (h : OpensWithTitle convention rest) : OpensWithTitle convention (line :: rest) := by
  obtain ⟨rfl, title, hfind, htitle⟩ := h
  refine ⟨rfl, ?_⟩
  rw [List.find?_cons]
  cases hblank : blank line with
  | true => exact ⟨title, hfind, htitle⟩
  | false =>
    rw [Convention.isFree, hblank, Convention.isMarkup] at hfree
    exact ⟨line, rfl, by simpa using hfree⟩

/-- **What is found** is the first line of free text, and it is found if there is one. -/
theorem found?_eq_some_iff {lines : List (List Char)} (h : ¬OpensWithTitle convention lines) {text : List Char} :
    convention.found? lines = some text ↔ ∃ line, FirstFree convention lines line ∧ text = trim line := by
  induction lines with
  | nil =>
    have hnone : convention.found? [] = none := by cases convention <;> rfl
    rw [hnone]
    constructor
    · intro hfound
      cases hfound
    · rintro ⟨line, hfirst, -⟩
      cases hfirst
  | cons line rest ih =>
    rw [found?_cons h]
    simp only [firstFree_cons_iff]
    split
    · constructor
      · rintro ⟨rfl⟩
        exact ⟨line, rfl, rfl⟩
      · rintro ⟨_, rfl, rfl⟩
        rfl
    · rename_i hfree
      exact ih (mt (opensWithTitle_of_later (Bool.eq_false_iff.mpr hfree)) h)

/-- A title that stands first is taken for the summary. -/
theorem found?_of_opensWithTitle {lines : List (List Char)} (h : OpensWithTitle convention lines) :
    ∃ title, convention.found? lines = some (trim title) ∧ Indented.isTitle Indented.allTitles title = true := by
  obtain ⟨rfl, title, hfind, htitle⟩ := h
  refine ⟨title, ?_, htitle⟩
  induction lines with
  | nil => cases hfind
  | cons line rest ih =>
    rw [List.find?_cons] at hfind
    rw [Convention.found?, firstLine?_cons, Option.isNone_none, Bool.true_or, Bool.and_true]
    cases hblank : blank line with
    | true =>
      rw [hblank] at hfind
      exact ih hfind
    | false =>
      rw [hblank] at hfind
      cases hfind
      rfl

end Found

/-! ## Summaries -/

/-- A title of an indented section is no summary. -/
theorem not_isSummary_title {title : List Char} (h : Indented.isTitle Indented.allTitles title = true)
    (doc : String) : ¬IsSummary .google doc (String.ofList (trim title)) := by
  rintro ⟨line, hfirst, htrim⟩
  obtain ⟨following, hfree⟩ := hfirst.isFree
  have hline : Indented.isTitle Indented.allTitles line = true := by
    rwa [Indented.isTitle, ← String.ofList_injective htrim, ← Indented.isTitle]
  rw [Convention.isFree, Convention.isMarkup, hline, Bool.not_true, Bool.and_false] at hfree
  cases hfree

/-- **The summary is the first line of free text**, in every convention and every docstring, unless the convention
is the one with indented sections and the docstring opens with the title of one; then the summary is no free text.
No line of free text is passed over. -/
theorem summary_free_iff (convention : Convention) (doc : String) :
    ((∀ summary, convention.summaryLine? doc = some summary → IsSummary convention doc summary) ↔
        ¬OpensWithTitle convention (lines doc.toList)) ∧
      (¬OpensWithTitle convention (lines doc.toList) →
        ∀ summary, IsSummary convention doc summary → convention.summaryLine? doc = some summary) := by
  rw [summaryLine?_eq_found?]
  refine ⟨⟨fun hall hopens => ?_, fun h summary hsummary => ?_⟩, fun h summary hsummary => ?_⟩
  · obtain ⟨title, hfound, htitle⟩ := found?_of_opensWithTitle hopens
    obtain ⟨rfl, -⟩ := hopens
    exact not_isSummary_title htitle doc (hall _ (by rw [hfound, Option.map_some]))
  · obtain ⟨text, hfound, rfl⟩ := Option.map_eq_some_iff.mp hsummary
    obtain ⟨line, hfirst, rfl⟩ := (found?_eq_some_iff h).mp hfound
    exact ⟨line, hfirst, rfl⟩
  · obtain ⟨line, hfirst, rfl⟩ := hsummary
    rw [(found?_eq_some_iff h).mpr ⟨line, hfirst, rfl⟩, Option.map_some]

/-- A docstring that opens with an underlined section, whose title and rule are passed over. -/
def underlinedDoc : String := "\nParameters\n----------\nx : int\n    A value."

theorem summary_free_iff_underlinedDoc : ¬OpensWithTitle .numpydoc (lines underlinedDoc.toList) ∧
    IsSummary .numpydoc underlinedDoc "x : int" ∧
      Convention.summaryLine? .numpydoc underlinedDoc = some "x : int" := by
  have hnot : ¬OpensWithTitle .numpydoc (lines underlinedDoc.toList) := by
    rintro ⟨hconvention, -⟩
    cases hconvention
  have hline : Convention.summaryLine? .numpydoc underlinedDoc = some "x : int" := by decide +kernel
  obtain ⟨hfree, hfound⟩ := summary_free_iff .numpydoc underlinedDoc
  have hsummary := hfree.mpr hnot "x : int" hline
  exact ⟨hnot, hsummary, hfound hnot "x : int" hsummary⟩

/-- The title of the section on parameters is taken for the summary. -/
theorem title_taken_for_summary : Convention.summaryLine? .google "Args:\n    x: A value." = some "Args:" ∧
    ¬IsSummary .google "Args:\n    x: A value." "Args:" := by
  have htitle : Indented.isTitle Indented.allTitles "Args:".toList = true := by decide
  have htrim : String.ofList (trim "Args:".toList) = "Args:" := by decide
  refine ⟨by decide +kernel, ?_⟩
  rw [← htrim]
  exact not_isSummary_title htitle _

end ClassCli.Docstring
