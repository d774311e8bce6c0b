import ClassCli.Entries
import ClassCli.Fault
import ClassCli.Path

/-!
# Trees of files

A directory holds files and further directories, each under a name. A path is followed from the top of
the tree, component by component; every component but the last one must be a directory, and a path that
ends in a slash must be one itself.

* **`FileTree.get?`**, **`FileTree.put`** — what stands at a position, and putting something there.
* **`FileTree.find`** — what a path leads to.
* **`FileTree.writeText`**, **`FileTree.makeDirectory`** — the tree after a change.
-/

namespace ClassCli

/-- A file or a directory. -/
inductive FileTree where
  | file (text : String)
  | directory (entries : List (String × FileTree))
  deriving Repr, Inhabited

namespace FileTree

/-- A place in a tree: the names that lead to it. -/
abbrev Position := List String

/-- A tree without files. -/
def empty : FileTree := .directory []

/-- Whether this is a directory. -/
def isDirectory : FileTree → Bool
  | .directory _ => true
  | .file _ => false

/-! ## Positions -/

/-- What stands at a position. -/
def get? : FileTree → Position → Option FileTree
  | tree, [] => some tree
  | .file _, _ :: _ => none
  | .directory entries, name :: rest =>
    match Entries.get? name entries with
    | some tree => get? tree rest
    | none => none

/-- Puts a tree at a position, in the place of what is there. Nothing is put below a file. -/
def put : FileTree → Position → FileTree → FileTree
  | _, [], new => new
  | .file text, _ :: _, _ => .file text
  | .directory entries, name :: rest, new =>
    .directory (Entries.put name (put ((Entries.get? name entries).getD empty) rest new) entries)

@[simp] theorem get?_nil (tree : FileTree) : tree.get? [] = some tree := by cases tree <;> rfl

@[simp] theorem put_nil (tree new : FileTree) : tree.put [] new = new := by cases tree <;> rfl

mutual

/-- The positions of everything below a tree, each directory before what it holds. -/
def inside : FileTree → List Position
  | .file _ => []
  | .directory entries => insideAll entries

/-- The positions of entries and of everything below them. -/
def insideAll : List (String × FileTree) → List Position
  | [] => []
  | (name, tree) :: rest => ([name] :: (inside tree).map (name :: ·)) ++ insideAll rest

end

/-! ## Paths -/

/-- The greatest number of bytes in one name. -/
def nameLimit : Nat := 255

/-- The least number of bytes that is too many for a path. -/
def pathLimit : Nat := 4096

/-- The pieces of a path between slashes. -/
def pieces (path : String) : Except FileFault (List (List Char)) :=
  if path.toList.contains '\x00' then .error .endInName
  else if path.isEmpty then .error .notFound
  else if pathLimit ≤ path.utf8ByteSize then .error .nameTooLong
  else .ok (Text.splitAt '/' path.toList)

/-- Goes on from a position, which must be that of a directory, along one piece of a path. -/
def step (tree : FileTree) (here : Position) (piece : List Char) : Except FileFault Position :=
  match tree.get? here with
  | some (.directory entries) =>
    match Path.ofPiece piece with
    | some .parent => .ok here.dropLast
    | some (.normal name) =>
      let name := String.ofList name
      if nameLimit < name.utf8ByteSize then .error .nameTooLong
      else if Entries.has name entries then .ok (here ++ [name])
      else .error .notFound
    | _ => .ok here
  | some (.file _) => .error .notDirectory
  | none => .error .notFound

/-- Goes along pieces of a path from the top of the tree. -/
def follow (tree : FileTree) (pieces : List (List Char)) : Except FileFault Position :=
  pieces.foldlM (step tree) []

/-- What a path leads to. -/
def find (tree : FileTree) (path : String) : Except FileFault FileTree :=
  (pieces path).bind fun pieces => (follow tree pieces).bind fun position =>
    match tree.get? position with
    | some found => .ok found
    | none => .error .notFound

/-- Whether a path leads to a file. -/
def hasFile (tree : FileTree) (path : String) : Bool :=
  match tree.find path with
  | .ok (.file _) => true
  | _ => false

/-- The text of the file that a path leads to. -/
def readText (tree : FileTree) (path : String) : Except FileFault String :=
  match tree.find path with
  | .ok (.file text) => .ok text
  | .ok (.directory _) => .error .isDirectory
  | .error fault => .error fault

/-- The names in the directory that a path leads to. -/
def names (tree : FileTree) (path : String) : List String :=
  match tree.find path with
  | .ok (.directory entries) => Entries.keys entries
  | _ => []

/-! ## Changes -/

/-- Where a path would put something: a directory and a name in it. A path that ends in the name of no
entry, or that is the top of the tree, has no name. -/
structure Target where
  directory : Position
  name? : Option String
  /-- Whether the path ends in a slash. -/
  slash : Bool
  deriving DecidableEq, Repr, Inhabited

/-- Where a path would put something. -/
def target (tree : FileTree) (path : String) : Except FileFault Target :=
  (pieces path).bind fun pieces =>
    match pieces.reverse.dropWhile List.isEmpty with
    | [] => .ok ⟨[], none, true⟩
    | last :: before =>
      (follow tree (before.reverse ++ [[]])).bind fun directory =>
        let slash := pieces.getLast?.any List.isEmpty
        match Path.ofPiece last with
        | some (.normal name) =>
          let name := String.ofList name
          if nameLimit < name.utf8ByteSize then .error .nameTooLong
          else .ok ⟨directory, some name, slash⟩
        | _ => .ok ⟨directory, none, slash⟩

/-- Writes a text to a file, which may be there or not; its directory must be there. -/
def writeText (tree : FileTree) (path text : String) : Except FileFault FileTree :=
  (target tree path).bind fun target =>
    match target.name?, target.slash with
    | some name, false =>
      let position := target.directory ++ [name]
      match tree.get? position with
      | some (.directory _) => .error .isDirectory
      | _ => .ok (tree.put position (.file text))
    | _, _ => .error .isDirectory

/-- Makes a directory; the directory that it is in must be there. -/
def makeDirectory (tree : FileTree) (path : String) : Except FileFault FileTree :=
  (target tree path).bind fun target =>
    match target.name? with
    | some name =>
      let position := target.directory ++ [name]
      match tree.get? position with
      | some _ => .error .exists
      | none => .ok (tree.put position empty)
    | none => .error .exists

end FileTree

end ClassCli
