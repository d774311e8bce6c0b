import ClassCli.Glob.Pattern
import ClassCli.Host
import ClassCli.Path

/-!
# Paths that fit a pattern

A pattern of a path is a pattern for each of its components. A component without wildcards names one
entry; one with wildcards is compared with the entries of a directory; two stars stand for everything
that is below a directory.

* **`Glob.ofText`** — the pattern of a text.
* **`Glob.paths`** — the paths that fit.
-/

namespace ClassCli

/-- A pattern for paths. -/
structure Glob where
  /-- The directory in which the search starts. -/
  start : String
  components : List Glob.Pattern
  /-- Whether only directories fit. -/
  directoriesOnly : Bool
  deriving Repr, Inhabited

namespace Glob

/-! ## Reading -/

/-- The pieces of a text between slashes; a slash at the end has no piece behind it. -/
def piecesOf (text : List Char) : List (List Char) :=
  let pieces := Text.splitAt '/' text
  if pieces.getLast? = some [] then pieces.dropLast else pieces

/-- The pattern of a text. The whole text must be right as well as each of its components. -/
def ofText (text : String) : Except PatternFault Glob := do
  let chars := text.toList
  let _ ← Pattern.ofText chars
  let absolute := Path.isAbsolute text
  let relative := if absolute then chars.drop 1 else chars
  let components ← (piecesOf relative).mapM Pattern.ofText
  return {
    start := if absolute then "/" else "."
    components := if relative.isEmpty then [[]] else components
    directoriesOnly := chars.getLast? == some '/' }

/-! ## Searching -/

variable {m : Type → Type} [Monad m] {α β : Type}

/-- Joins the lists that belong to the members of a list. -/
def gather (f : α → m (List β)) : List α → m (List β)
  | [] => pure []
  | x :: xs => do
    let first ← f x
    let others ← gather f xs
    return first ++ others

/-- The members of a list that pass a test. -/
def keepM (test : α → m Bool) : List α → m (List α)
  | [] => pure []
  | x :: xs => do
    let keep ← test x
    let others ← keepM test xs
    return if keep then x :: others else others

/-- The path of an entry of a directory; the current directory is not named. -/
def entryOf (directory name : String) : String :=
  if Path.same directory "." then name else Path.join directory name

/-- The names under which a directory knows itself and the one it is in. -/
def dotNames : List String := [".", ".."]

/-- Whether a name fits a pattern. -/
def fitsName (pattern : Pattern) (name : String) : Bool := pattern.fits name.toList

/-- The paths of everything below a directory. -/
def everythingIn (host : Host m) (directory : String) : m (List String) := do
  return (← host.inside directory).map (·.foldl entryOf directory)

/-- Whether the last name of a path fits a pattern. -/
def lastFits (pattern : Pattern) (path : String) : Bool :=
  (Path.fileName? path).any pattern.fits

/-- The entries of a directory that fit a pattern. The names of the directory itself and of the one it
is in only fit a pattern that starts with a point. -/
def entriesIn (host : Host m) (pattern : Pattern) (directory : String) : m (List String) := do
  let names ← host.names directory
  let isThere ← host.hasDirectory directory
  let dots := if isThere && pattern.head? == some (.char '.') then dotNames else []
  return (names.filter (fitsName pattern)).map (entryOf directory)
    ++ (dots.filter (fitsName pattern)).map (Path.join directory)

/-- The path of an entry with a certain name, if it is there. -/
def entryNamed (host : Host m) (name directory : String) : m (List String) := do
  let path := entryOf directory name
  let isThere ←
    if dotNames.contains name then host.hasDirectory directory
    else (·.isSome) <$> host.kind? path
  return if isThere then [path] else []

/-- The paths that go on from a path along patterns; `deep` tells that the last pattern was two stars,
so that everything below the path is meant. -/
def search (host : Host m) : Bool → List Pattern → String → m (List String)
  | false, [], path => return [path]
  | true, [], path => do keepM host.hasDirectory (← everythingIn host path)
  | deep, pattern :: rest, path => do
    if pattern = [.anyDepth] then search host true rest path
    else
      let next ←
        if deep then (·.filter (lastFits pattern)) <$> everythingIn host path
        else
          match pattern.plain? with
          | some name => entryNamed host (String.ofList name) path
          | none => entriesIn host pattern path
      gather (search host false rest) next

/-- The paths that fit a pattern. -/
def paths (host : Host m) (glob : Glob) : m (List String) := do
  let found ← search host false glob.components glob.start
  if glob.directoriesOnly then keepM host.hasDirectory found else return found

end Glob

end ClassCli
