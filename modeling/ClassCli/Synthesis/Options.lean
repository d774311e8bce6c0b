import ClassCli.Synthesis.Naming

/-!
# Options of arguments

How an argument is declared to the argument parser. An argument that is a truth value becomes a
switch that takes no value; any other argument is required unless it has a default.

* **`options`** — the text of the options of one declaration.
-/

namespace ClassCli.Synthesis

open Interface (Argument Kind)
open Code (quote)

/-- Whether an argument is a truth value, by its type or, without one, by its default. -/
def isSwitch (arg : Argument) : Bool :=
  match arg.kind, arg.default with
  | some .bool, _ => true
  | none, some (.bool _) => true
  | _, _ => false

/-- What giving a switch does: it turns the default around. -/
def switchAction (arg : Argument) : String :=
  if arg.default = some (.bool true) then "store_false" else "store_true"

/-- How the value of an argument is read. -/
def readingOptions (arg : Argument) : List String :=
  if isSwitch arg then ["action=" ++ quote (switchAction arg)]
  else
    (arg.kind.map fun kind => "type=" ++ kind.name).toList
      ++ (if arg.isList then ["nargs='+'"] else [])

/-- What happens if an argument is not given. -/
def absenceOptions (arg : Argument) : List String :=
  if isSwitch arg then []
  else match arg.default with
    | none => ["required=True"]
    | some .none => []
    | some value => ["default=" ++ Code.literal value]

/-- The options of the declaration of an argument. -/
def optionList (arg : Argument) : List String :=
  [quote ("--" ++ arg.name), "dest=" ++ quote arg.destination] ++ readingOptions arg
    ++ ["help=" ++ help arg.help] ++ absenceOptions arg

/-- The text of the options of the declaration of an argument. -/
def options (arg : Argument) : String := Text.joinStrings ", " (optionList arg)

end ClassCli.Synthesis
