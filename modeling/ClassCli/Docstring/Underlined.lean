import ClassCli.Text.Basic
import ClassCli.Entries

/-!
# Docstrings with underlined titles

A title stands on a line above a rule of dashes. Inside a section the lines at the indentation of the
first one are entries, and deeper lines describe the entry above them; the section ends at the next
title or at a line that stands less deep.

* **`Underlined.args`** — the described parameters in order.
* **`Underlined.returns?`** — the description of the result.
* **`Underlined.summary?`** — the first line that is neither title nor rule.
-/

namespace ClassCli.Docstring.Underlined

open Text

/-- Whether a line is a rule of dashes. -/
def isRule (line : List Char) : Bool :=
  let line := trim line
  !line.isEmpty && line.all (· == '-')

/-- Whether a line is a title, given the lines after it. -/
def isTitle (line : List Char) (following : List (List Char)) : Bool :=
  !blank line && !isRule line && (following.head?.map isRule).getD false

/-- The first line that is neither blank nor a rule nor a title, trimmed. -/
def summary? : List (List Char) → Option (List Char)
  | [] => none
  | line :: rest =>
    if !blank line && !isRule line && !isTitle line rest then some (trim line) else summary? rest

/-- The lines after the first title of a certain name and its rule. -/
def sectionBody (title : List Char) : List (List Char) → List (List Char)
  | [] => []
  | line :: rest =>
    if trim line == title && isTitle line rest then rest.drop 1 else sectionBody title rest

/-- An entry with the lines that describe it. -/
structure Entry where
  head : List Char
  body : List (List Char)

/-- The entries of a section at the indentation `base`, or at that of the first line if none is
settled yet. Entries and their lines are kept last one first. -/
def gather : Option Nat → List Entry → List (List Char) → List Entry
  | _, found, [] => found
  | base, found, line :: rest =>
    if blank line then gather base found rest
    else if isTitle line rest then found
    else
      let depth := indentation line
      let level := base.getD depth
      if depth < level then found
      else if depth = level then gather (some level) (⟨trim line, []⟩ :: found) rest
      else match found with
        | [] => gather (some level) [] rest
        | entry :: earlier =>
          gather (some level) ({ entry with body := trim line :: entry.body } :: earlier) rest

/-- The entries of the first section with a certain title, in order. -/
def entries (title : String) (lines : List (List Char)) : List Entry :=
  (gather none [] (sectionBody title.toList lines)).reverse.map fun entry =>
    { entry with body := entry.body.reverse }

/-- The names that an entry describes: what stands before the colon, cut at commas, without stars. -/
def names (head : List Char) : List (List Char) :=
  let head := head.takeWhile (· != ':')
  ((splitAt ',' head).map fun name => (trim name).dropWhile (· == '*')).filter (!·.isEmpty)

/-- The described parameters in order. -/
def args (lines : List (List Char)) : Entries String :=
  Entries.ofPairs <| (entries "Parameters" lines).flatMap fun entry =>
    (names entry.head).map fun name =>
      (String.ofList name, String.ofList (joinWords entry.body))

/-- The description of the result: the lines below the first entry, or the entry if there are none. -/
def returns? (lines : List (List Char)) : Option String :=
  match entries "Returns" lines with
  | [] => none
  | entry :: _ =>
    let text := if entry.body.isEmpty then entry.head else joinWords entry.body
    if text.isEmpty then none else some (String.ofList text)

end ClassCli.Docstring.Underlined
