import ClassCli.Text.Basic

/-!
# Cleaning docstrings

A docstring is freed of the indentation of the code around it: a tab counts as eight spaces, the
common indentation of the lines after the first goes, and empty lines at either end go.

* **`cleandoc`** — the cleaned text.
-/

namespace ClassCli.Outline

open Text

/-- The text with every tab replaced by eight spaces. -/
def expandTabs (s : List Char) : List Char :=
  s.flatMap fun c => if c = '\t' then List.replicate 8 ' ' else [c]

/-- How many characters of white space open a line, unless there is nothing else on it. -/
def lineMargin (line : List Char) : Option Nat :=
  if blank line then none else some (line.takeWhile isBlank).length

/-- The least indentation of the lines that hold anything; none if no line does. -/
def commonMargin (lines : List (List Char)) : Option Nat := (lines.filterMap lineMargin).min?

/-- The lines with the white space of the first and the common margin of the others taken away. -/
def dedent : List (List Char) → List (List Char)
  | [] => []
  | first :: rest =>
    match commonMargin rest with
    | some margin => trimStart first :: rest.map (·.drop margin)
    | none => trimStart first :: rest

/-- The lines without empty ones at either end. -/
def dropEmptyEnds (lines : List (List Char)) : List (List Char) :=
  ((lines.dropWhile List.isEmpty).reverse.dropWhile List.isEmpty).reverse

/-- The lines of a text after cleaning. -/
def cleanLines (s : List Char) : List (List Char) :=
  dropEmptyEnds (dedent (splitAt '\n' (expandTabs s)))

/-- A docstring freed of the indentation of the code around it. -/
def cleandoc (doc : String) : String := String.ofList (join ['\n'] (cleanLines doc.toList))

end ClassCli.Outline
