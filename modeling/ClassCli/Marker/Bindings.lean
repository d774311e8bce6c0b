import ClassCli.Entries
import ClassCli.Outline.Basic

/-!
# Names in scope

What the names of a scope refer to after some of its statements: something imported, with its
qualified name, or something defined there.

* **`Bindings.record`**, **`Bindings.recordAll`** — what statements bind; later bindings replace
  earlier ones.
* **`Bindings.qualify?`** — the qualified name of a dotted reference.
-/

namespace ClassCli.Marker

open Outline (Node)
open Source (ImportedName)

/-- The names of a scope and the modules of which everything has been imported. -/
structure Bindings where
  /-- What a name was imported from; nothing for a name that is defined in the scope. -/
  origins : Entries (Option String) := []
  wildcards : List String := []
  deriving Repr, Inhabited

namespace Bindings

/-- Binds a name. -/
def bind (scope : Bindings) (name : String) (origin : Option String) : Bindings :=
  { scope with origins := Entries.put name origin scope.origins }

/-- The part of a dotted name before its first point. -/
def firstPart (dotted : String) : String :=
  String.ofList (dotted.toList.takeWhile (· != '.'))

/-- Binds what a whole module is imported as: another name, or the first part of its own. -/
def bindModule (scope : Bindings) (imported : ImportedName) : Bindings :=
  match imported.asName with
  | some name => scope.bind name (some imported.name)
  | none => scope.bind (firstPart imported.name) (some (firstPart imported.name))

/-- Binds a name imported from a module. -/
def bindMember (module : String) (scope : Bindings) (imported : ImportedName) : Bindings :=
  scope.bind (imported.asName.getD imported.name) (some (module ++ "." ++ imported.name))

mutual

/-- What a statement binds. -/
def record (scope : Bindings) : Node → Bindings
  | .importNames names => names.foldl bindModule scope
  | .importFrom module names wildcard =>
    let scope := if wildcard then { scope with wildcards := scope.wildcards ++ [module] } else scope
    names.foldl (bindMember module) scope
  | .classDef head _ => scope.bind head.name none
  | .functionDef head _ => scope.bind head.name none
  | .assign targets => targets.foldl (fun scope name => scope.bind name none) scope
  | .compound body => recordAll scope body
  | .other => scope

/-- What statements bind, one after the other. -/
def recordAll (scope : Bindings) : List Node → Bindings
  | [] => scope
  | node :: rest => recordAll (record scope node) rest

end

/-- Whether a name is bound. -/
def isBound (scope : Bindings) (name : String) : Bool := Entries.has name scope.origins

/-- The qualified name of a dotted reference whose first part was imported. -/
def qualify? (scope : Bindings) (dotted : String) : Option String :=
  let after := dotted.toList.dropWhile (· != '.')
  match Entries.get? (firstPart dotted) scope.origins with
  | some (some origin) => some (origin ++ String.ofList after)
  | _ => none

theorem recordAll_append (scope : Bindings) (before after : List Node) :
    recordAll scope (before ++ after) = recordAll (recordAll scope before) after := by
  induction before generalizing scope with
  | nil => rfl
  | cons node rest ih => simp [recordAll, ih]

end Bindings

end ClassCli.Marker
