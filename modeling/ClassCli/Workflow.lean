import ClassCli.Outline.Lowering
import ClassCli.Workflow.Configuration
import ClassCli.Workflow.Files

/-!
# Runs

The three things that the program is used for: extracting a collection from files, generating a program
from a kept collection, and both at once. A session holds the collection that was extracted or loaded
last; it stays as it is when a run fails before there is a new one.

* **`parseCode`**, **`writeCode`**, **`generateParser`** — the three runs.
-/

namespace ClassCli.Workflow

open Host (onPath)
open Interface (Collection)
open Outline (Node)

variable {m : Type → Type} [Monad m]

/-- A computation that can fail and that holds a collection, also after it has failed. -/
abbrev Session (m : Type → Type) := ExceptT Fault (StateT Collection m)

/-- What does not touch the collection that is held. -/
def Session.lift {α : Type} (x : ExceptT Fault m α) : Session m α := ExceptT.mk (StateT.lift x.run)

/-! ## Extraction -/

/-- The outline of a file. -/
def readOutline (host : Host m) (file : String) : ExceptT Fault m (List Node) := do
  let source ← onPath file (host.readText file)
  match Outline.outline? source with
  | .ok outline => return outline
  | .error line => throw (.malformedSource file line)

/-- The collection with the modules of one more file. -/
def extractFile (host : Host m) (configuration : Configuration) (collection : Collection)
    (file : String) : ExceptT Fault m Collection := do
  let outline ← readOutline host file
  host.settle (Extraction.extract configuration.extraction collection outline file)

/-- The collection of several files. -/
def extractFiles (host : Host m) (configuration : Configuration) (files : List String) :
    ExceptT Fault m Collection :=
  files.foldlM (extractFile host configuration) {}

/-- Hands over a collection to where it should go. -/
def deliver (host : Host m) (collection : Collection) : Output → ExceptT Fault m Unit
  | .print => host.print (collection.toJson.pretty ++ "\n")
  | .keep => pure ()
  | .file path => discard (save host collection path)

/-- Extracts the collection of files, holds it and hands it over. -/
def parseCode (host : Host m) (configuration : Configuration) (files : List String)
    (output : Output) : Session m Collection := do
  let collection ← Session.lift (extractFiles host configuration files)
  set collection
  Session.lift (deliver host collection output)
  return collection

/-! ## Generation -/

/-- Generates a program from a collection and writes it to a directory. -/
def writeGenerated (host : Host m) (configuration : Configuration) (collection : Collection)
    (directory : String) : ExceptT Fault m Layout := do
  let layout := Layout.inDirectory directory
  let code ← host.settle
    (Synthesis.generate configuration.surroundings collection layout.setupParser)
  match Path.parent? layout.setupParser with
  | some utils => createDirectory host utils
  | none => pure ()
  discard (createFile host layout.setupParser code.setupParser.text)
  discard (createFile host layout.entryPoint code.entryPoint.text)
  discard (createFile host layout.packageMarker "")
  if configuration.pretty then host.format [layout.setupParser, layout.entryPoint]
  return layout

/-- Loads a collection from a file, holds it and generates its program. -/
def writeCode (host : Host m) (configuration : Configuration) (file directory : String) :
    Session m Layout := do
  let collection ← Session.lift (load host file)
  set collection
  Session.lift (writeGenerated host configuration collection directory)

/-- Extracts the collection of files, holds it and generates its program. -/
def generateParser (host : Host m) (configuration : Configuration) (files : List String)
    (directory : String) : Session m Layout := do
  let collection ← parseCode host configuration files .keep
  Session.lift (writeGenerated host configuration collection directory)

end ClassCli.Workflow
