import ClassCli.Literal
import ClassCli.Entries
import ClassCli.Text.Basic

/-!
# Descriptions of command-line interfaces

A collection describes a program: one module per class, one command per public method, one argument
per parameter. It is what extraction produces and what code is generated from.

* **`Argument`**, **`Flag`**, **`Command`**, **`Module`**, **`Collection`** — the parts.
* **`Module.inheritArgs`** — hands the constructor's arguments down to every command.
-/

namespace ClassCli.Interface

/-- The type of a single argument value. -/
inductive Kind where
  | int
  | float
  | str
  | bool
  deriving DecidableEq, Repr, Inhabited

namespace Kind

/-- The name of a type in Python. -/
def name : Kind → String
  | .int => "int"
  | .float => "float"
  | .str => "str"
  | .bool => "bool"

/-- All types, in the order in which messages list them. -/
def all : List Kind := [.int, .float, .str, .bool]

/-- The type with a certain name. -/
def ofName? (text : String) : Option Kind := all.find? (·.name == text)

@[simp] theorem ofName?_name (kind : Kind) : ofName? kind.name = some kind := by
  cases kind <;> decide

end Kind

/-- Whether an argument takes one value or a list of values. -/
inductive Multiplicity where
  | single
  | list
  deriving DecidableEq, Repr, Inhabited

namespace Multiplicity

/-- The name of a multiplicity. -/
def name : Multiplicity → String
  | .single => "single"
  | .list => "list"

/-- The multiplicity with a certain name. -/
def ofName? (text : String) : Option Multiplicity := [single, list].find? (·.name == text)

@[simp] theorem ofName?_name (multiplicity : Multiplicity) :
    ofName? multiplicity.name = some multiplicity := by
  cases multiplicity <;> decide

end Multiplicity

/-- A parameter that can be given on the command line. -/
structure Argument where
  /-- The form seen from outside, with hyphens. -/
  name : String
  /-- The name under which the value is stored. -/
  destination : String
  kind : Option Kind := none
  multiplicity : Option Multiplicity := none
  help : String := ""
  /-- The default; an explicit `None` is a default too. -/
  default : Option Literal := none
  deriving DecidableEq, Repr, Inhabited

namespace Argument

/-- The argument of a parameter. -/
def ofParameter (parameter : String) : Argument :=
  { name := Text.replaceIn '_' '-' parameter, destination := parameter }

/-- Whether the argument takes a list of values. -/
def isList (arg : Argument) : Bool := arg.multiplicity == some .list

end Argument

/-- The settings of a marker on a method. -/
structure Flag where
  name : String
  values : Entries Literal := []
  deriving DecidableEq, Repr, Inhabited

/-- A method that can be called from the command line. -/
structure Command where
  name : String
  help : String := ""
  args : List Argument := []
  flags : List Flag := []
  deriving DecidableEq, Repr, Inhabited

/-- The flag of a certain marker. -/
def Command.flag? (command : Command) (name : String) : Option Flag :=
  command.flags.find? (·.name == name)

/-- A class. -/
structure Module where
  name : String
  help : String := ""
  /-- The parameters of the constructor. -/
  args : List Argument := []
  commands : List Command := []
  /-- The file that the class was read from. -/
  location : String
  deriving DecidableEq, Repr, Inhabited

/-- The module with the constructor's arguments added to those of every command. -/
def Module.inheritArgs (m : Module) : Module :=
  { m with commands := m.commands.map fun c => { c with args := c.args ++ m.args } }

/-- All classes of a program, in the order in which they were met. -/
structure Collection where
  modules : List Module := []
  deriving DecidableEq, Repr, Inhabited

namespace Collection

/-- The names of the modules. -/
def names (c : Collection) : List String := c.modules.map (·.name)

/-- The names of the modules with their locations. -/
def locations (c : Collection) : List (String × String) :=
  c.modules.map fun m => (m.name, m.location)

/-- The modules of one collection followed by those of another. -/
def append (c d : Collection) : Collection := ⟨c.modules ++ d.modules⟩

instance : Append Collection := ⟨append⟩

end Collection

/-! ## Equality by value -/

/-- Whether two optional values are both absent or equal by a test. -/
def sameOption {α : Type} (same : α → α → Bool) : Option α → Option α → Bool
  | none, none => true
  | some x, some y => same x y
  | _, _ => false

/-- Whether two lists are equal item by item by a test. -/
def sameList {α : Type} (same : α → α → Bool) : List α → List α → Bool
  | [], [] => true
  | x :: xs, y :: ys => same x y && sameList same xs ys
  | _, _ => false

/-- Whether two arguments are equal, floating-point numbers compared by value. -/
def Argument.same (a b : Argument) : Bool :=
  a.name == b.name && a.destination == b.destination && a.kind == b.kind
    && a.multiplicity == b.multiplicity && a.help == b.help
    && sameOption Literal.same a.default b.default

/-- Whether two flags hold the same values, in whatever order. -/
def Flag.same (a b : Flag) : Bool :=
  a.name == b.name && a.values.length == b.values.length
    && a.values.all fun (key, value) => sameOption Literal.same (some value) (b.values.get? key)

/-- Whether two commands are equal by value. -/
def Command.same (a b : Command) : Bool :=
  a.name == b.name && a.help == b.help && sameList Argument.same a.args b.args
    && sameList Flag.same a.flags b.flags

/-- Whether two modules are equal by value. -/
def Module.same (a b : Module) : Bool :=
  a.name == b.name && a.help == b.help && sameList Argument.same a.args b.args
    && sameList Command.same a.commands b.commands && a.location == b.location

/-- Whether two collections are equal by value. -/
def Collection.same (a b : Collection) : Bool := sameList Module.same a.modules b.modules

end ClassCli.Interface
