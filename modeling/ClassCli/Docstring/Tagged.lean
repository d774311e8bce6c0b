import ClassCli.Text.Identifier
import ClassCli.Entries

/-!
# Docstrings with tags

A description opens with a tag on a trimmed line: a mark, a word, perhaps a name, and a colon. The
lines after it continue the description up to a blank line or the next line that starts with the
mark.

* **`Tagged.args`** — the described parameters in order.
* **`Tagged.returns?`** — the description of the result.
-/

namespace ClassCli.Docstring.Tagged

open Text

/-- The forms of tags. -/
structure Form where
  /-- The character that opens a tag. -/
  mark : Char
  /-- Whether a type may stand before the name of a parameter. -/
  typed : Bool

/-- Tags such as `@param name: description`. -/
def epytext : Form := ⟨'@', false⟩

/-- Fields such as `:param int name: description`. -/
def rest : Form := ⟨':', true⟩

/-- The trimmed text after a colon, perhaps with white space before the colon. -/
def afterColon (s : List Char) : Option (List Char) :=
  match trimStart s with
  | ':' :: description => some (trim description)
  | _ => none

/-- A name after at most two stars. -/
def starredName (s : List Char) : Option (List Char) :=
  let name := match s with
    | '*' :: '*' :: name => name
    | '*' :: name => name
    | name => name
  if name.isEmpty || !name.all isWord then none else some name

/-- The last word of a text without white space at its end. -/
def lastWord (s : List Char) : List Char := (s.reverse.takeWhile (!isBlank ·)).reverse

/-- The name and the description in a line that describes a parameter. -/
def param? (form : Form) (line : List Char) : Option (List Char × List Char) :=
  match afterStart (form.mark :: "param".toList) line with
  | some (c :: after) =>
    if !isBlank c then none
    else match splitOnce ':' after with
      | none => none
      | some (head, description) =>
        let head := trim head
        let name := if form.typed then lastWord head else head
        (starredName name).map fun name => (name, trim description)
  | _ => none

/-- The description in a line that describes the result. -/
def return? (form : Form) (line : List Char) : Option (List Char) :=
  match afterStart (form.mark :: "return".toList) line with
  | some ('s' :: after) => afterColon after
  | some after => afterColon after
  | none => none

/-- What a tag opened, with the lines that continue it. `open_` says whether the last description
can still be continued; descriptions are kept last one first. -/
def gather {α : Type} (mark : Char) (tag? : List Char → Option (α × List Char)) :
    Bool → List (α × List Char) → List (List Char) → List (α × List Char)
  | _, found, [] => found.reverse
  | open_, found, line :: lines =>
    let line := trim line
    match tag? line with
    | some entry => gather mark tag? true (entry :: found) lines
    | none =>
      if line.isEmpty || line.head? == some mark then gather mark tag? false found lines
      else match open_, found with
        | true, (tag, text) :: earlier =>
          gather mark tag? true ((tag, joinWords [text, line]) :: earlier) lines
        | _, _ => gather mark tag? open_ found lines

/-- The described parameters in order. -/
def args (form : Form) (lines : List (List Char)) : Entries String :=
  Entries.ofPairs <| (gather form.mark (param? form) false [] lines).map fun (name, text) =>
    (String.ofList name, String.ofList text)

/-- The description of the result. -/
def returns? (form : Form) (lines : List (List Char)) : Option String :=
  let tag? (line : List Char) := (return? form line).map fun text => ((), text)
  (gather form.mark tag? false [] lines).head?.map fun (_, text) => String.ofList text

end ClassCli.Docstring.Tagged
