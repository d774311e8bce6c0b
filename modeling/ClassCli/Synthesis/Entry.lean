import ClassCli.Synthesis.Setup

/-!
# The entry point

The entry point builds the parser, reads the command line and calls the chosen method. Its function
`execute` matches the names of module and command; an object is only constructed once its command is
known, so that without a command no argument of the constructor is needed.

* **`createParser`**, **`execute`**, **`mainFunction`**, **`mainGuard`** — the parts of the file.
-/

namespace ClassCli.Synthesis

open Interface (Collection Command Module)
open Code (Block Case Definition Line Match Pattern callArgs quote)

/-! ## The parser -/

/-- What the program says about itself. -/
def description (collection : Collection) : String :=
  match collection.modules with
  | [] => ""
  | [m] => m.help
  | _ => "Command-line interface for python modules: " ++ Text.joinStrings ", " collection.names

/-- The function that builds the parser. -/
def createParser (collection : Collection) : Block :=
  ((Definition.start "create_parser" [] parserType).appendLines
    ["parser = ArgumentParser(description=" ++ help (description collection) ++ ")",
      "parser = setup_parser(parser)", "return parser"]).block

/-! ## Dispatch -/

/-- The call of the constructor of a module. -/
def construction (m : Module) : String :=
  "module = " ++ m.name ++ "(" ++ callArgs m.args ++ ")"

/-- The call of the method of a command. -/
def invocation (command : Command) : String :=
  match command.flag? Marker.hydraName with
  | none => "module." ++ command.name ++ "(" ++ callArgs command.args ++ ")"
  | some flag =>
    let settings := flag.values.map fun (key, value) => key ++ "=" ++ Code.literal value
    "hydra_wrapper("
      ++ Text.joinStrings ", " (["module." ++ command.name, "args", "create_parser()"] ++ settings)
      ++ ")"

/-- The case for whatever no other case is for. -/
def nothingMatched : Case := .of .anything (Block.single "return False").lines

/-- The case of a command: the object is constructed and the method called. -/
def commandCase (m : Module) (command : Command) : Case :=
  .of (.str (commandName command.name)) (Block.ofTexts [construction m, invocation command]).lines

/-- The match over the commands of a module. -/
def commandMatch (m : Module) : Match :=
  ⟨"args['command']", m.commands.map (commandCase m) ++ [nothingMatched]⟩

/-- The match over modules. -/
def moduleMatch (modules : List Module) : Match :=
  ⟨"args['module']", modules.map (fun m => .of (.str m.name) (commandMatch m).block.lines)
    ++ [nothingMatched]⟩

/-- The body of `execute` before its last line. -/
def dispatch (collection : Collection) : Noted (List Line) :=
  match collection.modules with
  | [] => ⟨[], [.nothingToDispatch]⟩
  | [m] => ⟨(commandMatch m).block.lines, []⟩
  | modules => ⟨(moduleMatch modules).block.lines, []⟩

/-- The import of a class. -/
def classImport (projectRoot : String) (m : Module) : String :=
  "from " ++ modulePath projectRoot m.location ++ " import " ++ m.name

/-- Adds a line unless it is there already. -/
def addNew (block : Block) (line : String) : Block :=
  if block.containsText line then block else block.appendLine line

/-- The imports of the entry point. -/
def entryImports (runtime projectRoot parserFile : String) (collection : Collection) : Block :=
  let classes := (collection.modules.map (classImport projectRoot)).foldl addNew
    (Block.single argparseImport)
  let setup := classes.appendLine
    ("from " ++ modulePath projectRoot parserFile ++ " import setup_parser")
  if anyHydra collection then
    setup.appendLine ("from " ++ runtime ++ ".api.hydra import hydra_wrapper")
  else setup

/-- The function that calls the chosen method, below the imports. -/
def execute (runtime projectRoot parserFile : String) (collection : Collection) : Noted Block := do
  let body ← dispatch collection
  let definition := Definition.start "execute" [("args", "dict")] (some "bool")
  let block := (definition.block.append body).appendLine "return True"
  let imports := entryImports runtime projectRoot parserFile collection
  return (block.insert imports.separate.lines 0).setCursor 0

/-! ## The main function -/

/-- The function that reads the command line and calls `execute`. -/
def mainFunction : Block :=
  let opening := (Definition.start "main" [] none).block.appendLines
    ["parser = create_parser()", "args = parser.parse_args()", "args_dict = vars(args)",
      "if not execute(args_dict):"]
  (opening.indent.appendLine "parser.print_usage()").dedent.dedent

/-- The call of the main function if the file is run as a program. -/
def mainGuard : Block := (Block.single "if __name__ == '__main__':").indent.appendLine "main()"

end ClassCli.Synthesis
