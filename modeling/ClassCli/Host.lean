import ClassCli.Attempt

/-!
# Hosts

What the program needs from the computer it runs on: files and directories, someone who decides whether
a file may be replaced, a formatter for generated files, and places for notices and output. The rest of
the program is written for every host.

* **`Host`** — the operations.
* **`Host.forced`** — the host on which every file may be replaced.
* **`Host.guarded`** — the host with a gate of its own in front of its files.
* **`Host.settle`** — hands over the notices of a computation and goes on with its result.
-/

namespace ClassCli

/-- What stands at a path. -/
inductive EntryKind where
  | file
  | directory
  deriving DecidableEq, Repr, Inhabited

/-- The operations that the program needs from outside. -/
structure Host (m : Type → Type) where
  /-- What stands at a path, if anything. -/
  kind? : String → m (Option EntryKind)
  /-- The text of a file. -/
  readText : String → m (Except FileFault String)
  /-- Writes a text to a file, which need not be there. -/
  writeText : String → String → m (Except FileFault Unit)
  /-- Makes one directory. -/
  makeDirectory : String → m (Except FileFault Unit)
  /-- The names in a directory; none if there is no such directory. -/
  names : String → m (List String)
  /-- What stands in a directory at any depth: for each entry the names that lead to it. -/
  inside : String → m (List (List String))
  /-- Whether the file at a path may be replaced, if that could be asked. -/
  confirm : String → m (Except FileFault Bool)
  /-- Formats files. -/
  format : List String → m Unit
  /-- Takes a notice. -/
  tell : Notice → m Unit
  /-- Takes a piece of the output. -/
  print : String → m Unit

namespace Host

variable {m : Type → Type} [Monad m] {α : Type}

/-- The host on which every file may be replaced without asking. -/
def forced (host : Host m) : Host m := { host with confirm := fun _ => pure (.ok true) }

/-- The operations of a host, with a gate of its own that allows a file to be replaced or not or cannot put its
question. The run can also be broken off. -/
def guarded {ε : Type} (host : Host m) (gate : String → ExceptT ε m (Except FileFault Bool)) :
    Host (ExceptT ε m) where
  kind? path := ExceptT.lift (host.kind? path)
  readText path := ExceptT.lift (host.readText path)
  writeText path text := ExceptT.lift (host.writeText path text)
  makeDirectory path := ExceptT.lift (host.makeDirectory path)
  names path := ExceptT.lift (host.names path)
  inside path := ExceptT.lift (host.inside path)
  confirm := gate
  format paths := ExceptT.lift (host.format paths)
  tell notice := ExceptT.lift (host.tell notice)
  print text := ExceptT.lift (host.print text)

/-- The host that takes only some of the notices. -/
def telling (host : Host m) (shown : Notice → Bool) : Host m :=
  { host with tell := fun notice => if shown notice then host.tell notice else pure () }

/-- Whether a path leads to a file. -/
def hasFile (host : Host m) (path : String) : m Bool := do
  return (← host.kind? path) == some .file

/-- Whether a path leads to a directory. -/
def hasDirectory (host : Host m) (path : String) : m Bool := do
  return (← host.kind? path) == some .directory

/-- Hands over notices in order. -/
def tellAll (host : Host m) : List Notice → m Unit
  | [] => pure ()
  | notice :: rest => do
    host.tell notice
    tellAll host rest

/-- Hands over the notices of a computation and goes on with its result. -/
def settle (host : Host m) (x : Attempt α) : ExceptT Fault m α := ExceptT.mk do
  tellAll host x.run.notices
  return x.run.value

/-- Makes a fault with the file at a path a fault of the program. -/
def onPath (path : String) (x : m (Except FileFault α)) : ExceptT Fault m α :=
  ExceptT.mk do return (← x).mapError (.file path)

end Host

end ClassCli
