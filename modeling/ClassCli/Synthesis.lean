import ClassCli.Attempt
import ClassCli.Synthesis.Entry

/-!
# Generated programs

A collection becomes two files: the setup file, which declares the command line, and the entry point,
which reads it and calls the chosen method.

* **`generate`** — the two files of a collection.
-/

namespace ClassCli.Synthesis

open Interface (Collection)
open Code (Block)

/-- Where generated code finds what it imports. -/
structure Surroundings where
  projectRoot : String
  /-- The package of the runtime helpers. -/
  runtime : String := Marker.defaultNamespace
  deriving Repr, Inhabited

/-- The two generated files. -/
structure Generated where
  setupParser : Block
  entryPoint : Block
  deriving Repr, Inhabited

/-- A notice for every name that an earlier one equals in lower case; `seen` holds the earlier ones. -/
def repeatedFrom : List String → List String → List Notice
  | _, [] => []
  | seen, name :: rest =>
    let lowered := Text.lowerString name
    if seen.contains lowered then .moduleRepeated name :: repeatedFrom seen rest
    else repeatedFrom (lowered :: seen) rest

/-- The entry point: imports and dispatch, the parser, the main function and its call. -/
def entryPoint (surroundings : Surroundings) (parserFile : String) (collection : Collection) :
    Noted Block := do
  let top ← execute surroundings.runtime surroundings.projectRoot parserFile collection
  let upper := top.separate.append (createParser collection).lines
  return (mainFunction.insert upper.separate.lines 0).separate.append mainGuard.lines

/-- The two files of a collection; the setup file will have a certain path. -/
def generate (surroundings : Surroundings) (collection : Collection) (parserFile : String) :
    Attempt Generated := do
  .ofNoted ⟨(), repeatedFrom [] collection.names⟩
  let setup ← .ofExcept (setupParser surroundings.runtime collection)
  let entry ← .ofNoted (entryPoint surroundings parserFile collection)
  return ⟨setup, entry⟩

end ClassCli.Synthesis
