import ClassCli.Text.Basic

/-!
# Paths of files

A path is a text whose components are separated by slashes. Repeated slashes and components that name
the directory itself do not count, except for a leading one, which stays a component.

* **`Path.components`** — what a path consists of; two paths are the same if these are.
* **`Path.join`**, **`Path.parent?`**, **`Path.extension?`** — the parts of a path.
-/

namespace ClassCli.Path

open Text

/-- A component of a path. -/
inductive Component where
  | root
  | current
  | parent
  | normal (name : List Char)
  deriving DecidableEq, Repr, Inhabited

/-- The component that a piece between slashes names, if it counts. -/
def ofPiece : List Char → Option Component
  | [] => none
  | ['.'] => none
  | ['.', '.'] => some .parent
  | name => some (.normal name)

/-- The component that a path starts with: the root before a slash, or a directory's own name. -/
def ofFirst (piece : List Char) (alone : Bool) : Option Component :=
  match piece with
  | [] => if alone then none else some .root
  | ['.'] => some .current
  | piece => ofPiece piece

/-- The components of a path. -/
def components (path : String) : List Component :=
  match splitAt '/' path.toList with
  | [] => []
  | first :: rest => (ofFirst first rest.isEmpty).toList ++ rest.filterMap ofPiece

/-- Whether two paths have the same components. -/
def same (p q : String) : Bool := components p == components q

/-- Whether a path starts at the root. -/
def isAbsolute (path : String) : Bool := path.toList.head? == some '/'

/-- The names among components. -/
def names (components : List Component) : List (List Char) :=
  components.filterMap fun
    | .normal name => some name
    | _ => none

/-- What is left of components behind others that they start with. -/
def after : List Component → List Component → Option (List Component)
  | [], rest => some rest
  | _ :: _, [] => none
  | c :: cs, d :: ds => if c = d then after cs ds else none

/-! ## Building and taking apart -/

/-- A path behind another one. A path from the root replaces what is before it. -/
def join (base path : String) : String :=
  if isAbsolute path then path
  else if base.isEmpty || base.toList.getLast? == some '/' then base ++ path
  else base ++ "/" ++ path

/-- The last component, if it is a name. -/
def fileName? (path : String) : Option (List Char) :=
  match (components path).getLast? with
  | some (.normal name) => some name
  | _ => none

/-- What stands after the last point of a name, unless that is its first character. -/
def extensionOf (name : List Char) : Option (List Char) :=
  let reversed := name.reverse
  match reversed.dropWhile (· != '.') with
  | _ :: _ :: _ => some (reversed.takeWhile (· != '.')).reverse
  | _ => none

/-- The extension of the last component. -/
def extension? (path : String) : Option String :=
  ((fileName? path).bind extensionOf).map String.ofList

/-- Drops trailing pieces that do not count; pieces are given last one first. -/
def dropIdle : List (List Char) → List (List Char)
  | [] => []
  | [first] => [first]
  | piece :: rest => if (ofPiece piece).isNone then dropIdle rest else piece :: rest

/-- The path without its last component. -/
def parent? (path : String) : Option String :=
  match dropIdle (splitAt '/' path.toList).reverse with
  | [] | [[]] => none
  | [_] => some ""
  | _ :: before =>
    match dropIdle before with
    | [[]] => some "/"
    | pieces => some (String.ofList (Text.join ['/'] pieces.reverse))

/-- A path and those it is inside, nearest first, at most as many as `limit`. -/
def lineageWithin : Nat → String → List String
  | 0, _ => []
  | limit + 1, path =>
    if path.isEmpty then []
    else path :: ((parent? path).map (lineageWithin limit)).getD []

/-- A path and those it is inside, nearest first. Every one is shorter than the one before it, so that
there are no more than the path has characters. -/
def lineage (path : String) : List String := lineageWithin path.length path

/-! ## Order -/

/-- The rank of a component among those of other kinds. -/
def Component.rank : Component → Nat
  | .root => 0
  | .current => 1
  | .parent => 2
  | .normal _ => 3

/-- Compares texts by their characters. -/
def compareNames : List Char → List Char → Ordering
  | [], [] => .eq
  | [], _ :: _ => .lt
  | _ :: _, [] => .gt
  | c :: cs, d :: ds => (compare c.toNat d.toNat).then (compareNames cs ds)

/-- Compares components: by kind, names by their characters. -/
def Component.compare : Component → Component → Ordering
  | .normal a, .normal b => compareNames a b
  | a, b => Ord.compare a.rank b.rank

/-- Compares paths component by component. -/
def compareComponents : List Component → List Component → Ordering
  | [], [] => .eq
  | [], _ :: _ => .lt
  | _ :: _, [] => .gt
  | c :: cs, d :: ds => (c.compare d).then (compareComponents cs ds)

/-- Whether a path does not come after another. -/
def notAfter (p q : String) : Bool :=
  (compareComponents (components p) (components q)) != .gt

/-- Puts a path into a list in ascending order, before those that have the same components. -/
def insertInOrder (path : String) : List String → List String
  | [] => [path]
  | other :: rest =>
    if notAfter path other then path :: other :: rest else other :: insertInOrder path rest

/-- The paths in ascending order; those with the same components stay in the order they are in. -/
def inOrder : List String → List String
  | [] => []
  | path :: rest => insertInOrder path (inOrder rest)

end ClassCli.Path
