import ClassCli.Docstring.Convention
import ClassCli.Outline.Basic

/-!
# Help texts

What a class or function says about itself, completed where the docstring is silent.

* **`summary`** — the summary line.
* **`argumentHelp`** — a text for every parameter, followed by what else is described.
* **`returnHelp`** — the text about the result.
-/

namespace ClassCli.Docstring

open Outline (Function)

/-- What stands where nothing is documented. -/
def noDocumentation : String := "--no-documentation-exists--"

/-- The text, or the filler if there is none or it is empty. -/
def orFiller : Option String → String
  | some text => if text.isEmpty then noDocumentation else text
  | none => noDocumentation

/-- The summary line of a definition with or without a docstring. -/
def summary (convention : Convention) (docstring : Option String) : String :=
  ((docstring.bind convention.summaryLine?).getD noDocumentation)

/-- Takes the texts of parameters out of what is documented. A parameter that occurs again finds
nothing left. -/
def takeHelp : List String → Entries String → Entries String → Entries String × Entries String
  | [], help, documented => (help, documented)
  | name :: names, help, documented =>
    takeHelp names (help.put name (orFiller (documented.get? name))) (documented.remove name)

/-- A text for every parameter of a function in order, followed by what else its docstring
describes. -/
def argumentHelp (convention : Convention) (f : Function) : Entries String :=
  let names := f.explicitParams.map (·.name)
  if names.isEmpty then []
  else match f.docstring with
    | none => Entries.ofPairs (names.map fun name => (name, noDocumentation))
    | some doc =>
      let (help, left) := takeHelp names [] (convention.documentedArgs doc)
      left.foldl (fun help (name, text) => help.put name text) help

/-- The text about the result of a function. -/
def returnHelp (convention : Convention) (f : Function) : String :=
  orFiller (f.docstring.bind convention.documentedReturn?)

end ClassCli.Docstring
