import ClassCli.Synthesis.CommandParser

/-!
# The setup file

The setup file declares the whole command line. Its function `setup_parser` registers the commands of
the only module directly, and those of several modules under the names of their modules.

* **`setupParser`** — the lines of the file.
-/

namespace ClassCli.Synthesis

open Interface (Collection Module)
open Code (Block Definition quote)

/-- The import of the argument parser. -/
def argparseImport : String := "from argparse import ArgumentParser"

/-- Whether some command hands a parameter over to an external configuration loader. -/
def anyHydra (collection : Collection) : Bool :=
  collection.modules.any fun m => m.commands.any usesHydra

/-- The imports of the setup file. -/
def setupImports (runtime : String) (collection : Collection) : List String :=
  argparseImport
    :: if anyHydra collection then ["from " ++ runtime ++ ".api.hydra import add_hydra_parser"]
      else []

/-- The function that registers the commands of a module, with the constructor's arguments among
those of every command. -/
def moduleParser (imports : List String) (m : Module) : Except Fault CommandParser := do
  (← CommandParser.start m.name imports).addCommands m.inheritArgs.commands

/-- The lines that register a module under its name. -/
def moduleLines (m : Module) (setupName : String) : List String :=
  let parser := Text.lowerString m.name ++ "_parser"
  [parser ++ " = module_subparser.add_parser(name=" ++ quote m.name ++ ", help=" ++ help m.help
      ++ ")",
    parser ++ " = " ++ setupName ++ "(" ++ parser ++ ")"]

/-- Registers modules. The functions of each are put above, below the `position` lines of the modules
before it; the first one brings the imports. -/
def registerModules : Definition → Nat → List String → List Module → Except Fault Definition
  | definition, _, _, [] => .ok definition
  | definition, position, imports, m :: rest => do
    let p ← moduleParser imports m
    let above := p.block.separate.lines
    let definition := (definition.appendLines (moduleLines m p.name)).putAbove above position
    registerModules definition (position + above.length) [] rest

/-- The line that opens the registration of modules. -/
def moduleOpeningLine : String :=
  "module_subparser = parser.add_subparsers(dest='module', title='module')"

/-- The lines of the setup file. -/
def setupParser (runtime : String) (collection : Collection) : Except Fault Block := do
  let imports := setupImports runtime collection
  let start := setupFunction "setup_parser"
  match collection.modules with
  | [] =>
    return ((start.appendLine "return parser").putAbove (Block.ofTexts imports).separate.lines).block
  | [m] =>
    let p ← moduleParser imports m
    let definition := start.appendLines ["parser = " ++ p.name ++ "(parser)", "return parser"]
    return (definition.putAbove p.block.separate.lines).block
  | modules =>
    let definition ← registerModules (start.appendLine moduleOpeningLine) 0 imports modules
    return (definition.appendLine "return parser").block

end ClassCli.Synthesis
