import ClassCli.CommandLine.Failure
import ClassCli.Glob

/-!
# Input files

An input is a file, a directory, which stands for the source files in it, or a pattern. The files of one
input come in ascending order, those of an earlier input first, and a path is not taken twice.

* **`expand`** — the files of several inputs.
-/

namespace ClassCli.CommandLine

variable {m : Type → Type} [Monad m]

/-- The extension of source files. -/
def sourceExtension : String := "py"

/-- The source files in a directory. -/
def sourcesIn (host : Host m) (directory : String) : m (List String) := do
  let names ← host.names directory
  let sources := (names.map (Path.join directory)).filter fun path =>
    Path.extension? path == some sourceExtension
  Glob.keepM host.hasFile sources

/-- The files that fit a pattern. -/
def filesFitting (host : Host m) (glob : Glob) : m (List String) := do
  Glob.keepM host.hasFile (← glob.paths host)

/-- The files of one input. -/
def filesOf (host : Host m) (input : String) : ExceptT Failure m (List String) := do
  match ← host.kind? input with
  | some .file => return [input]
  | some .directory => ExceptT.lift (sourcesIn host input)
  | none =>
    match Glob.ofText input with
    | .ok glob => ExceptT.lift (filesFitting host glob)
    | .error fault => throw (.invalidPattern input fault)

/-- Adds a path unless one with the same components is there. -/
def addNew (files : List String) (file : String) : List String :=
  if files.any (Path.same file) then files else files ++ [file]

/-- Adds the files of one input. -/
def addInput (host : Host m) (files : List String) (input : String) :
    ExceptT Failure m (List String) := do
  let found ← filesOf host input
  if found.isEmpty then host.tell (.nothingMatched input)
  return (Path.inOrder found).foldl addNew files

/-- The files of several inputs; there must be at least one. -/
def expand (host : Host m) (inputs : List String) : ExceptT Failure m (List String) := do
  let files ← inputs.foldlM (addInput host) []
  if files.isEmpty then throw .noInput else return files

end ClassCli.CommandLine
