import ClassCli.FileTree
import ClassCli.Formatter
import ClassCli.Host
import ClassCli.Question

/-!
# Workspaces

A host without a computer: a tree of files, the lines that a user will type, and a transcript of what
happened. Paths are followed from the top of the tree.

* **`Workspace.host`** — the host, given who is asked and what formats.
* **`Workspace.deciding`**, **`Workspace.typing`** — asking a rule and asking the user.
-/

namespace ClassCli

/-- Something that a workspace has seen. -/
inductive Event where
  | noticed (notice : Notice)
  /-- A rule was asked whether a file may be replaced. -/
  | asked (path : String)
  | printed (text : String)
  /-- A question was put to the user. -/
  | prompted (text : String)
  | formatted (paths : List String)
  deriving DecidableEq, Repr, Inhabited

/-- Files, lines to be typed, and what happened so far. -/
structure Workspace where
  tree : FileTree := .empty
  input : List String := []
  transcript : List Event := []
  deriving Repr, Inhabited

namespace Workspace

/-- Adds to the transcript. -/
def record (event : Event) : StateM Workspace Unit :=
  modify fun w => { w with transcript := w.transcript ++ [event] }

/-- Reads from the tree. -/
def look {α : Type} (f : FileTree → α) : StateM Workspace α := do return f (← get).tree

/-- Changes the tree, or leaves it as it is. -/
def change (f : FileTree → Except FileFault FileTree) : StateM Workspace (Except FileFault Unit) := do
  let w ← get
  match f w.tree with
  | .ok tree =>
    set { w with tree := tree }
    return .ok ()
  | .error fault => return .error fault

/-- The next line that the user types. -/
def readLine : StateM Workspace (Option String) := do
  let w ← get
  match w.input with
  | [] => return none
  | line :: rest =>
    set { w with input := rest }
    return some line

/-- What stands at a path of a tree. -/
def kindIn (path : String) (tree : FileTree) : Option EntryKind :=
  match tree.find path with
  | .ok (.file _) => some .file
  | .ok (.directory _) => some .directory
  | .error _ => none

/-- What stands below the directory at a path of a tree. -/
def insideOf (path : String) (tree : FileTree) : List (List String) :=
  match tree.find path with
  | .ok found => found.inside
  | .error _ => []

/-- Lets a rule decide whether a file may be replaced. -/
def deciding (rule : String → Bool) (path : String) : StateM Workspace Bool := do
  record (.asked path)
  return rule path

/-- Lets the user decide whether a file may be replaced. -/
def typing (path : String) : StateM Workspace Bool :=
  Question.ask (fun text => record (.prompted text)) readLine (fun notice => record (.noticed notice))
    path

/-- Tells how a run of a formatter ends. -/
def reporting (program : String) (outcome : Formatter.Outcome) (_ : List String) :
    StateM Workspace Unit :=
  (outcome.notices program).forM fun notice => record (.noticed notice)

/-- The host that works on a workspace. -/
def host (confirm : String → StateM Workspace Bool) (format : List String → StateM Workspace Unit) :
    Host (StateM Workspace) where
  kind? path := look (kindIn path)
  readText path := look (·.readText path)
  writeText path text := change (·.writeText path text)
  makeDirectory path := change (·.makeDirectory path)
  names path := look (·.names path)
  inside path := look (insideOf path)
  confirm path := do return .ok (← confirm path)
  format := format
  tell notice := record (.noticed notice)
  print text := record (.printed text)

end Workspace

end ClassCli
