import ClassCli.Attempt
import ClassCli.Extraction.Arguments
import ClassCli.Marker.Resolution

/-!
# Extraction of interfaces

Every class of an outline that does not stand inside another class becomes a module: its constructor
gives the arguments of the module and its public methods become the commands. Markers are looked up
among the names that are bound where the class is defined.

* **`moduleOf`** — the module of one class.
* **`modulesOf`** — the modules of an outline.
* **`extract`** — adds the modules of an outline to a collection, or none of them if one fails.
-/

namespace ClassCli.Extraction

open Docstring (Convention)
open Interface (Argument Collection Command Module)
open Marker (Bindings Registry)
open Outline (ClassHead Function Node)

/-- How interfaces are extracted. -/
structure Settings where
  convention : Convention := .google
  registry : Registry := Registry.builtin Marker.defaultNamespace
  /-- Whether methods with parameters must have a docstring. -/
  strict : Bool := false
  deriving Repr, Inhabited

/-! ## Methods -/

mutual

/-- Adds the functions that a statement of a class body defines; one defined again takes the place of
the earlier one. -/
def addMethods (found : Entries Function) : Node → Entries Function
  | .functionDef f _ => Entries.put f.name f found
  | .compound body => addAllMethods found body
  | _ => found

/-- Adds the functions that the statements of a class body define. -/
def addAllMethods (found : Entries Function) : List Node → Entries Function
  | [] => found
  | node :: rest => addAllMethods (addMethods found node) rest

end

/-- The functions that a class body defines, by name. -/
def methods (body : List Node) : Entries Function := addAllMethods [] body

/-- The name of the constructor. -/
def constructorName : String := "__init__"

/-- Whether a method can be called from the command line. -/
def isPublic (name : String) : Bool := name.toList.head? != some '_'

/-- Whether a method has parameters and no docstring. -/
def lacksDocstring (f : Function) : Bool := f.docstring.isNone && !f.explicitParams.isEmpty

/-- The arguments of a method of a class. -/
def checkedArguments (settings : Settings) (className : String) (f : Function)
    (attached : List String) : Attempt (List Argument) :=
  if settings.strict && lacksDocstring f then
    .fail (.missingDocumentation className f.name) [.docstringMissing className f.name]
  else .ofNoted (arguments settings.convention f attached)

/-- The command of a method of a class. -/
def commandOf (settings : Settings) (scope : Bindings) (className : String) (f : Function) :
    Attempt Command := do
  let flags ← .ofNoted (Marker.flags scope settings.registry f)
  let args ← checkedArguments settings className f (settings.registry.attached flags)
  return { name := f.name, help := Docstring.summary settings.convention f.docstring, args, flags }

/-! ## Classes -/

/-- Adds what a method contributes to the module of its class. -/
def addMethod (settings : Settings) (scope : Bindings) (m : Module) (f : Function) :
    Attempt Module := do
  if f.name = constructorName then
    return { m with args := ← checkedArguments settings m.name f [] }
  else if isPublic f.name then
    let command ← commandOf settings scope m.name f
    return { m with commands := m.commands ++ [command] }
  else return m

/-- The module of a class without its methods. -/
def heading (settings : Settings) (location : String) (head : ClassHead) : Module where
  name := head.name
  help := if head.docstring.isSome then Docstring.summary settings.convention head.docstring else ""
  location := location

/-- The module of a class. -/
def moduleOf (settings : Settings) (scope : Bindings) (location : String) (head : ClassHead)
    (body : List Node) : Attempt Module :=
  (methods body).values.foldlM (addMethod settings scope) (heading settings location head)

/-! ## Files -/

mutual

/-- The modules of one statement, and the names in scope after it. What a function binds stays in the
function. -/
def modulesOf (settings : Settings) (location : String) (scope : Bindings) :
    Node → Attempt (List Module × Bindings)
  | .classDef head body => do
    let m ← moduleOf settings scope location head body
    return ([m], scope.bind head.name none)
  | .functionDef head body => do
    let (found, _) ← modulesOfAll settings location scope body
    return (found, scope.bind head.name none)
  | .compound body => modulesOfAll settings location scope body
  | node => return ([], scope.record node)

/-- The modules of statements in order, and the names in scope after them. -/
def modulesOfAll (settings : Settings) (location : String) (scope : Bindings) :
    List Node → Attempt (List Module × Bindings)
  | [] => return ([], scope)
  | node :: rest => do
    let (first, scope) ← modulesOf settings location scope node
    let (others, scope) ← modulesOfAll settings location scope rest
    return (first ++ others, scope)

end

/-- The collection with the modules of one more file. -/
def extract (settings : Settings) (collection : Collection) (outline : List Node)
    (location : String) : Attempt Collection := do
  let (found, _) ← modulesOfAll settings location {} outline
  return collection ++ ⟨found⟩

end ClassCli.Extraction
