import ClassCli.Text.Identifier
import ClassCli.Entries

/-!
# Docstrings with indented sections

A section opens with a title on a line of its own and holds the lines that stand deeper than the
title; entries may also stand flush with the title and then run to a blank line or the next title.
An entry is a name, perhaps with a type in round brackets, a colon and a description that deeper
lines continue.

* **`Indented.args`** — the described parameters in order.
* **`Indented.returns?`** — the description of the result.
-/

namespace ClassCli.Docstring.Indented

open Text

/-- The titles of the section on parameters. -/
def argTitles : List String := ["Args:", "Arguments:", "Parameters:"]

/-- The titles of the section on the result. -/
def returnTitles : List String := ["Returns:", "Return:", "Yields:"]

/-- Whether a trimmed line is one of certain titles. -/
def isTitle (titles : List String) (line : List Char) : Bool :=
  titles.any fun title => title.toList == trim line

/-- Whether a trimmed line reads like the title of some section: a capital letter, letters and
spaces, and a colon. -/
def looksLikeTitle (line : List Char) : Bool :=
  match beforeEnd [':'] line with
  | some (c :: rest) => c.isUpper && rest.all fun c => c.isAlpha || c == ' '
  | _ => false

/-- The non-blank lines of the first section with one of certain titles. -/
def titled (titles : List String) : List (List Char) → Option (List (List Char))
  | [] => none
  | line :: rest =>
    if isTitle titles line then
      let depth := indentation line
      let body := rest.dropWhile blank
      if (body.head?.map indentation) == some depth then
        some (body.takeWhile fun line => !blank line && !looksLikeTitle (trim line))
      else some ((body.filter (!blank ·)).takeWhile fun line => depth < indentation line)
    else titled titles rest

/-- The text without its stretches in round brackets, each up to the nearest closing bracket. -/
def withoutBrackets : List Char → List Char
  | [] => []
  | c :: rest =>
    if c = '(' && rest.contains ')' then skip rest else c :: withoutBrackets rest
where
  /-- The same after the end of the stretch that is open. -/
  skip : List Char → List Char
    | [] => []
    | c :: rest => if c = ')' then withoutBrackets rest else skip rest

/-- Takes in a line of the section on parameters. `current` is the entry that the line may
continue. -/
def takeLine (base : Nat) (sofar : Entries String × Option String) (line : List Char) :
    Entries String × Option String :=
  let (args, current) := sofar
  match (if indentation line ≤ base then splitOnce ':' line else none) with
  | some (head, description) =>
    let name := String.ofList (trim (withoutBrackets head))
    (args.put name (String.ofList (trim description)), some name)
  | none =>
    match current with
    | some name =>
      let text := (args.get? name).getD ""
      (args.put name (String.ofList (joinWords [text.toList, line])), current)
    | none => (args, none)

/-- The described parameters in order. -/
def args (lines : List (List Char)) : Entries String :=
  match titled argTitles lines with
  | none => []
  | some section_ =>
    let base := (section_.head?.map indentation).getD 0
    (section_.foldl (takeLine base) ([], none)).1

/-- The description after a type and a colon, if the text starts with these. The type is a dotted
name, perhaps with arguments in square brackets. -/
def afterType (text : List Char) : Option (List Char) :=
  match text with
  | [] => none
  | c :: rest =>
    if !isAsciiNameStart c then none
    else
      let rest := rest.dropWhile fun c => isWord c || c == '.'
      let rest := match rest with
        | '[' :: inner =>
          match inner.dropWhile (· != ']') with
          | _ :: after => after
          | [] => rest
        | _ => rest
      match trimStart rest with
      | ':' :: description => some (trimStart description)
      | _ => none

/-- The description of the result, without its type. -/
def returns? (lines : List (List Char)) : Option String :=
  match titled returnTitles lines with
  | none => none
  | some section_ =>
    let text := joinWords section_
    let text := (afterType text).getD text
    if text.isEmpty then none else some (String.ofList text)

end ClassCli.Docstring.Indented
