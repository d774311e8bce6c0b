import ClassCli.Fault
import ClassCli.Path
import ClassCli.Code.Value
import ClassCli.Text.Lowercase

/-!
# Names in generated code

Commands have two forms of their name: the one that is typed, with hyphens, and the one inside the
generated code, in lower case with underscores. Sources are imported by their path from the root of
the project.

* **`checkName`** — what keeps a name from being part of a function name.
* **`modulePath`** — the dotted name under which a file is imported.
-/

namespace ClassCli.Synthesis

open Text (lowerString)

/-- The first thing wrong with a name that is to be part of a function name. -/
def nameFault? (name : String) : Option NameFault :=
  if name.isEmpty then some .empty
  else if name.toList.any Text.isBlank then some .whitespace
  else if name.toList.contains '-' then some .hyphen
  else if name != lowerString name then some .uppercase
  else none

/-- Fails if a name cannot be part of a function name. -/
def checkName (name : String) : Except Fault Unit :=
  match nameFault? name with
  | none => .ok ()
  | some reason => .error (.identifierFormat name reason)

/-- The name of a command inside the generated code. -/
def variableName (name : String) : String := lowerString (Text.replaceIn '-' '_' name)

/-- The name of a command as it is typed. -/
def commandName (name : String) : String := Text.replaceIn '_' '-' name

/-- A text in which every percent sign is written twice. -/
def doublePercents (text : String) : String :=
  String.ofList (text.toList.flatMap fun c => if c = '%' then ['%', '%'] else [c])

/-- A help text as a Python string. Help texts are expanded at percent signs when they are shown. -/
def help (text : String) : String := Code.quote (doublePercents text)

/-! ## Imports -/

/-- A list with its last item changed. -/
def mapLast {α : Type} (f : α → α) : List α → List α
  | [] => []
  | [x] => [f x]
  | x :: y :: rest => x :: mapLast f (y :: rest)

/-- The name of a source file without its ending. -/
def withoutEnding (name : List Char) : List Char :=
  (Text.beforeEnd ['.', 'p', 'y'] name).getD name

/-- The dotted name under which a file is imported: its path from the root of the project if it lies
below that, without anything but names and without the ending. -/
def modulePath (projectRoot location : String) : String :=
  let all := Path.components location
  let relative := (Path.after (Path.components projectRoot) all).getD all
  String.ofList (Text.join ['.'] (mapLast withoutEnding (Path.names relative)))

end ClassCli.Synthesis
