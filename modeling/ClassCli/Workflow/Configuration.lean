import ClassCli.Extraction
import ClassCli.Path
import ClassCli.Synthesis

/-!
# What a run is asked for

How interfaces are extracted and generated, and where results go.

* **`Configuration`** — the settings of a run.
* **`Output`** — where an extracted collection goes.
* **`Layout`** — where the generated files go.
-/

namespace ClassCli.Workflow

open Docstring (Convention)

/-- The settings of a run. -/
structure Configuration where
  convention : Convention := .google
  /-- Whether methods with parameters must have a docstring. -/
  strict : Bool := false
  /-- Whether generated files are formatted. -/
  pretty : Bool := false
  /-- The directory that generated imports start from. -/
  projectRoot : String
  /-- The package of the markers and of the runtime helpers. -/
  package : String := Marker.defaultNamespace
  deriving Repr, Inhabited

namespace Configuration

/-- How interfaces are extracted. -/
def extraction (c : Configuration) : Extraction.Settings where
  convention := c.convention
  registry := .builtin c.package
  strict := c.strict

/-- Where generated code finds what it imports. -/
def surroundings (c : Configuration) : Synthesis.Surroundings where
  projectRoot := c.projectRoot
  runtime := c.package

end Configuration

/-- Where an extracted collection goes. -/
inductive Output where
  | print
  /-- It is only kept for what follows. -/
  | keep
  | file (path : String)
  deriving DecidableEq, Repr, Inhabited

/-- The path that stands for printing. -/
def printPath : String := "."

/-- The output that a path stands for: the current directory stands for printing. -/
def Output.ofPath? : Option String → Output
  | none => .keep
  | some path => if Path.same path printPath then .print else .file path

/-- Where the generated files go. -/
structure Layout where
  setupParser : String
  entryPoint : String
  packageMarker : String
  deriving DecidableEq, Repr, Inhabited

/-- The generated files in a directory. -/
def Layout.inDirectory (directory : String) : Layout where
  setupParser := Path.join (Path.join directory "utils") "parser.py"
  entryPoint := Path.join directory "__main__.py"
  packageMarker := Path.join directory "__init__.py"

end ClassCli.Workflow
