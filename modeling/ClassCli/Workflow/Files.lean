import ClassCli.Host
import ClassCli.Path
import ClassCli.Persistence

/-!
# Writing and reading files

Files are written so that nothing is replaced without leave, and collections are kept in files.

* **`createDirectory`** — a directory with those it is in.
* **`createFile`** — a file with its directory, unless one is there that must stay.
* **`save`**, **`load`** — a collection in a file.
-/

namespace ClassCli.Workflow

open Host (onPath)
open Interface (Collection)

variable {m : Type → Type} [Monad m]

/-- Whether making a directory has come to a good end: an existing directory is as good as a new
one. -/
def orPresent (host : Host m) (path : String) : Except FileFault Unit → m (Except FileFault Unit)
  | .ok () => return .ok ()
  | .error fault => do
    if ← host.hasDirectory path then return .ok () else return .error fault

/-- Makes the first of several directories, each of which is in the next one, and before it those of
the others that are missing. -/
def makeLineage (host : Host m) : List String → m (Except FileFault Unit)
  | [] => return .ok ()
  | path :: above => do
    match ← host.makeDirectory path with
    | .error .notFound =>
      match ← makeLineage host above with
      | .ok () => orPresent host path (← host.makeDirectory path)
      | .error fault => return .error fault
    | result => orPresent host path result

/-- Makes a directory and those it is in, as far as they are missing. -/
def createDirectory (host : Host m) (path : String) : ExceptT Fault m Unit :=
  onPath path (makeLineage host (Path.lineage path))

/-- Whether a file may be written: nothing is there, or it may be replaced. It is a fault if that cannot be
asked. -/
def mayWrite (host : Host m) (path : String) : ExceptT Fault m Bool := do
  match ← host.kind? path with
  | none => return true
  | some _ => onPath path (host.confirm path)

/-- Writes a file, with the directory it is in, if it may be written; tells whether it was. -/
def createFile (host : Host m) (path text : String) : ExceptT Fault m Bool := do
  if ← mayWrite host path then
    match Path.parent? path with
    | some directory => if directory.isEmpty then pure () else createDirectory host directory
    | none => pure ()
    onPath path (host.writeText path text)
    return true
  else return false

/-- Keeps a collection in a file whose name tells the format; tells whether the file was written. A
name without an extension is only given notice of. -/
def save (host : Host m) (collection : Collection) (path : String) : ExceptT Fault m Bool := do
  match ← ExceptT.mk (pure (Persistence.formatOf path)) with
  | some format => createFile host path (Persistence.render format collection)
  | none =>
    host.tell (.extensionMissing path)
    return false

/-- The collection that is kept in a file. -/
def load (host : Host m) (path : String) : ExceptT Fault m Collection := do
  let format ← ExceptT.mk (pure (Persistence.requiredFormat path))
  let text ← onPath path (host.readText path)
  ExceptT.mk (pure (Persistence.read format text))

end ClassCli.Workflow
