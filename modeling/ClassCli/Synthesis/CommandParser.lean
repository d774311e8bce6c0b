import ClassCli.Marker.Registry
import ClassCli.Code.Definition
import ClassCli.Synthesis.Options

/-!
# Parsers of commands

The generated code has one function for each command that declares its arguments, and one function
for each module that registers the commands. The functions of the commands stand above the function
that calls them.

* **`argumentHelper`** — the function that declares arguments.
* **`CommandParser`** — the function that registers commands, with what stands above it.
-/

namespace ClassCli.Synthesis

open Interface (Argument Command)
open Code (Block Definition quote)

/-- The parameters of functions that set up a parser. -/
def parserParams : List (String × String) := [("parser", "ArgumentParser")]

/-- The type of what functions that set up a parser return. -/
def parserType : Option String := some "ArgumentParser"

/-- Opens a function that sets up a parser. -/
def setupFunction (name : String) : Definition := .start name parserParams parserType

/-- The declaration of an argument. -/
def argumentLine (arg : Argument) : String := "parser.add_argument(" ++ options arg ++ ")"

/-- The function that declares arguments; the stem is part of its name. -/
def argumentHelper (stem : String) (args : List Argument) : Except Fault Definition := do
  checkName stem
  return (setupFunction ("add_" ++ stem ++ "_args")).appendLines
    (args.map argumentLine ++ ["return parser"])

/-- Whether a command hands a parameter over to an external configuration loader. -/
def usesHydra (command : Command) : Bool := (command.flag? Marker.hydraName).isSome

/-- The function that registers the commands of a module. -/
structure CommandParser where
  /-- The name of the module in lower case. -/
  module : String
  /-- What is imported above the functions. -/
  imports : List String
  definition : Definition
  deriving Repr, Inhabited

namespace CommandParser

/-- Opens the function of a module. -/
def start (moduleName : String) (imports : List String) : Except Fault CommandParser := do
  let module := Text.lowerString moduleName
  checkName module
  return ⟨module, imports, setupFunction ("setup_" ++ module ++ "_parser")⟩

/-- The name of the function. -/
def name (p : CommandParser) : String := p.definition.name

/-- The lines that register a command whose arguments a certain function declares. -/
def commandLines (command : Command) (helperName : String) : List String :=
  let parser := variableName command.name ++ "_parser"
  [parser ++ " = command_subparser.add_parser(" ++ quote (commandName command.name) ++ ", help="
      ++ help command.help ++ ")",
    parser ++ " = " ++ helperName ++ "(" ++ parser ++ ")"]
    ++ if usesHydra command then [parser ++ " = add_hydra_parser(" ++ parser ++ ")"] else []

/-- Registers commands. The function of each command is put above the lines that were there before,
below the `position` lines of the commands before it. -/
def register (module : String) : Definition → Nat → List Command → Except Fault Definition
  | definition, _, [] => .ok definition
  | definition, position, command :: rest => do
    let helper ← argumentHelper (module ++ "_" ++ variableName command.name) command.args
    let above := helper.block.separate.lines
    let definition := (definition.appendLines (commandLines command helper.name)).putAbove above
      position
    register module definition (position + above.length) rest

/-- The line that opens the registration of commands. -/
def openingLine : String :=
  "command_subparser = parser.add_subparsers(dest='command', title='command')"

/-- Registers commands and puts the imports above everything. -/
def addCommands (p : CommandParser) (commands : List Command) : Except Fault CommandParser := do
  let definition ← register p.module (p.definition.appendLine openingLine) 0 commands
  let definition := definition.appendLine "return parser"
  return { p with
    definition := if p.imports.isEmpty then definition
      else definition.putAbove (Block.ofTexts p.imports).separate.lines }

/-- The lines of the function and of what stands above it. -/
def block (p : CommandParser) : Block := p.definition.block

end CommandParser

end ClassCli.Synthesis
