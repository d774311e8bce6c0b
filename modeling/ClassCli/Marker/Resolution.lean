import ClassCli.Marker.Bindings
import ClassCli.Marker.Registry
import ClassCli.Notice

/-!
# Markers on methods

A decorator is a marker if it refers to one through the imports of its file. A same-named function
that is defined locally or imported from elsewhere does not count.

* **`markerOf?`** — the marker that a decorator refers to.
* **`settings`** — the values that a decorator gives to the parameters of a marker.
* **`flags`** — the settings of all markers on a method.
-/

namespace ClassCli.Marker

open Interface (Flag)
open Outline (Expr Function)

/-- What a decorator refers to, whether it is called or not. -/
def callee : Expr → Expr
  | .call f _ _ => f
  | x => x

/-- Whether everything has been imported from a module that exports the markers. -/
def importsAll (scope : Bindings) (registry : Registry) : Bool :=
  scope.wildcards.any registry.exports

/-- The marker that a decorator refers to: by a qualified name, or by a bare name that only an import
of everything can have bound. -/
def markerOf? (scope : Bindings) (registry : Registry) (decorator : Expr) : Option Spec :=
  match (callee decorator).dotted? with
  | none => none
  | some dotted =>
    match scope.qualify? dotted with
    | some qualified => registry.lookup? qualified
    | none =>
      if !dotted.toList.contains '.' && !scope.isBound dotted && importsAll scope registry then
        registry.get? dotted
      else none

/-- Stores given values one after the other; each must be for a parameter and a literal. -/
def assign (spec : Spec) : Entries Literal → List (String × Expr) → Except MarkerFault (Entries Literal)
  | values, [] => .ok values
  | values, (name, x) :: rest =>
    if !Entries.has name spec.params then .error (.unexpectedKeyword name)
    else match x.literal? with
      | none => .error (.notLiteral x.describe)
      | some value => assign spec (Entries.put name value values) rest

/-- The values of all parameters of a marker: first the defaults, then what the positional arguments
and then the keywords of the decorator say. -/
def settings (spec : Spec) : Expr → Except MarkerFault (Entries Literal)
  | .call _ args keywords =>
    if spec.params.length < args.length then
      .error (.tooManyArguments spec.params.length args.length)
    else assign spec spec.params ((Entries.keys spec.params).zip args ++ keywords)
  | _ => .ok spec.params

/-- The flag of one decorator, if it is a marker with usable settings. -/
def flag? (scope : Bindings) (registry : Registry) (method : String) (decorator : Expr) :
    Noted (Option Flag) :=
  match markerOf? scope registry decorator with
  | none => ⟨none, []⟩
  | some spec =>
    match settings spec decorator with
    | .ok values => ⟨some ⟨spec.name, values⟩, []⟩
    | .error reason => ⟨none, [.markerIgnored spec.name method reason]⟩

/-- The settings of all markers on a method, in the order of the decorators. -/
def flags (scope : Bindings) (registry : Registry) (f : Function) : Noted (List Flag) :=
  let found := f.decorators.map (flag? scope registry f.name)
  ⟨found.filterMap (·.value), found.flatMap (·.notices)⟩

end ClassCli.Marker
