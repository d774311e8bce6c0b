import ClassCli.Interface.Basic

/-!
# Registered markers

A marker is a decorator with a meaning for the command line. Markers belong to a namespace, a package
of Python that exports them from its top level and from its module `decorator`.

* **`Registry.lookup?`** — the marker with a certain qualified name.
* **`Registry.attached`** — the parameters that markers fill in.
-/

namespace ClassCli.Marker

open Interface (Flag)

/-- What is known about a marker. -/
structure Spec where
  name : String
  /-- The parameters with their defaults, in the order of their declaration. -/
  params : Entries Literal
  /-- The parameter whose value names the parameter of the method that the marker fills in. -/
  attaches : Option String
  deriving Repr, Inhabited

/-- The name of the marker that hands a parameter over to an external configuration loader. -/
def hydraName : String := "add_hydra"

/-- The marker that hands a parameter over to an external configuration loader. -/
def hydra : Spec where
  name := hydraName
  params := [("config_var_name", .str "cfg"), ("version_base", .none), ("config_path", .none),
    ("config_name", .none)]
  attaches := some "config_var_name"

/-- The package from which markers are imported unless another one is chosen. -/
def defaultNamespace : String := "argsmith"

/-- The markers of a namespace. -/
structure Registry where
  home : String
  specs : Entries Spec
  deriving Repr, Inhabited

namespace Registry

/-- The markers that every namespace has. -/
def builtin (home : String) : Registry := ⟨home, [(hydra.name, hydra)]⟩

/-- The marker with a certain name. -/
def get? (registry : Registry) (name : String) : Option Spec := Entries.get? name registry.specs

/-- The module of a namespace that exports its markers beside the namespace itself. -/
def decoratorModule (registry : Registry) : String := registry.home ++ ".decorator"

/-- The marker with a certain qualified name, which is its name behind the namespace, with or without
the module `decorator` between them. -/
def lookup? (registry : Registry) (qualified : String) : Option Spec :=
  match Text.afterStart (registry.home.toList ++ ['.']) qualified.toList with
  | none => none
  | some rest =>
    let name := (Text.afterStart "decorator.".toList rest).getD rest
    registry.get? (String.ofList name)

/-- Whether a module exports the markers. -/
def exports (registry : Registry) (module : String) : Bool :=
  module == registry.home || module == registry.decoratorModule

/-- The parameter of a method that a flag fills in. -/
def attachedBy? (registry : Registry) (flag : Flag) : Option String :=
  match (registry.get? flag.name).bind (·.attaches) with
  | none => none
  | some key =>
    match flag.values.get? key with
    | some (.str name) => some name
    | _ => none

/-- The parameters of a method that its flags fill in. -/
def attached (registry : Registry) (flags : List Flag) : List String :=
  flags.filterMap registry.attachedBy?

end Registry

end ClassCli.Marker
