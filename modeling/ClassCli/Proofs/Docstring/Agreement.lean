import ClassCli.Proofs.Docstring.Indented
import ClassCli.Proofs.Docstring.Tagged
import ClassCli.Proofs.Docstring.Underlined

/-!
# The conventions agree

A docstring can be rewritten from one convention into another without a change in what is read from it.

* **`conventions_agree`** — what is read from a docstring is its content, whatever the convention.
-/

namespace ClassCli.Docstring

open Text

variable {layout : Layout} {content : Content}

/-- A plain line that comes first is the first line. -/
theorem firstLine?_eq {line : List Char} (h : PlainLine line) (mark : Option Char)
    (hmark : mark.isNone ∨ line.head? ≠ mark) (rest : List (List Char)) :
    Convention.firstLine? mark (line :: rest) = some line := by
  have htest : (!line.isEmpty && (mark.isNone || line.head? != mark)) = true := by
    rw [List.isEmpty_eq_false_iff.mpr h.ne_nil, Bool.not_false, Bool.true_and, Bool.or_eq_true, bne_iff_ne]
    exact hmark
  rw [Convention.firstLine?, List.map_cons, h.trimmed]
  exact List.find?_cons_of_pos htest

section Document

variable (hl : layout.Proper) (h : content.Plain) (convention : Convention)
include hl h

theorem summaryLine?_document :
    convention.summaryLine? (convention.document layout content) = some (String.ofList content.summary) := by
  have hlines := lines_document hl h convention
  cases convention with
  | google =>
    rw [Convention.summaryLine?, hlines]
    exact congrArg (Option.map String.ofList) (firstLine?_eq h.summary none (Or.inl rfl) _)
  | epytext =>
    rw [Convention.summaryLine?, hlines]
    exact congrArg (Option.map String.ofList)
      (firstLine?_eq h.summary (some '@') (Or.inr h.summary.untagged.1) _)
  | rest =>
    rw [Convention.summaryLine?, hlines]
    exact congrArg (Option.map String.ofList)
      (firstLine?_eq h.summary (some ':') (Or.inr h.summary.untagged.2) _)
  | numpydoc =>
    rw [Convention.summaryLine?, hlines]
    exact congrArg (Option.map String.ofList) (Underlined.summary?_layout h)

theorem documentedArgs_document :
    convention.documentedArgs (convention.document layout content) = content.args := by
  have hlines := lines_document hl h convention
  rw [Convention.documentedArgs.eq_def, hlines]
  cases convention with
  | google => exact Indented.args_layout hl h
  | epytext => exact Tagged.args_layout (Or.inl rfl) h
  | rest => exact Tagged.args_layout (Or.inr rfl) h
  | numpydoc => exact Underlined.args_layout h hl

theorem documentedReturn?_document :
    convention.documentedReturn? (convention.document layout content) = content.result? := by
  have hlines := lines_document hl h convention
  rw [Convention.documentedReturn?.eq_def, hlines]
  cases convention with
  | google => exact Indented.returns?_layout hl h
  | epytext => exact Tagged.returns?_layout (Or.inl rfl) h
  | rest => exact Tagged.returns?_layout (Or.inr rfl) h
  | numpydoc => exact Underlined.returns?_layout h hl

end Document

/-- **The conventions agree**: the summary, the parameters and the result are read as they were written
in each of them, with the lines of a description in one. -/
theorem conventions_agree (hl : layout.Proper) (h : content.Plain) (convention : Convention) :
    convention.summaryLine? (convention.document layout content) = some (String.ofList content.summary)
      ∧ convention.documentedArgs (convention.document layout content) = content.args
      ∧ convention.documentedReturn? (convention.document layout content) = content.result? :=
  ⟨summaryLine?_document hl h convention, documentedArgs_document hl h convention,
    documentedReturn?_document hl h convention⟩

/-- A layout in steps of four spaces. -/
def fourSpaces : Layout := ⟨4, 8, 4, "Table".toList⟩

/-- A docstring with colons in its descriptions and with lines that continue them. A parameter has the
name of a section. -/
def fetchContent : Content where
  summary := "Fetch rows.".toList
  params := [⟨"table".toList, ["Name: as in the schema,".toList, "or a view.".toList]⟩,
    ⟨"Returns".toList, ["Limit: zero for none.".toList]⟩]
  returns := ["All rows".toList, "of the table.".toList]

theorem conventions_agree_fetchContent : fourSpaces.Proper ∧ fetchContent.Plain ∧
    ∀ convention : Convention,
      convention.summaryLine? (convention.document fourSpaces fetchContent) = some "Fetch rows."
        ∧ convention.documentedArgs (convention.document fourSpaces fetchContent)
          = [("table", "Name: as in the schema, or a view."), ("Returns", "Limit: zero for none.")]
        ∧ convention.documentedReturn? (convention.document fourSpaces fetchContent)
          = some "All rows of the table." := by
  have hl : fourSpaces.Proper :=
    ⟨by decide, by decide, by decide, by decide +kernel, by decide, by decide⟩
  have h : fetchContent.Plain :=
    ⟨by decide +kernel, by decide +kernel, by decide +kernel, by decide +kernel⟩
  have hargs : fetchContent.args
      = [("table", "Name: as in the schema, or a view."), ("Returns", "Limit: zero for none.")] := by
    decide +kernel
  have hresult : fetchContent.result? = some "All rows of the table." := by decide +kernel
  refine ⟨hl, h, fun convention => ?_⟩
  obtain ⟨hsummary, hparams, hreturn⟩ := conventions_agree hl h convention
  exact ⟨hsummary, hparams.trans hargs, hreturn.trans hresult⟩

end ClassCli.Docstring
