import ClassCli.Docstring.Help
import ClassCli.Interface.Basic
import ClassCli.Notice
import ClassCli.Outline.TypeExpr

/-!
# Arguments of methods

Every parameter that a caller of a method passes becomes an argument. The defaults of a method stand
beside the last of its positional parameters, and a default that is no literal is dropped. The type and
multiplicity of an argument are those that the annotation of its parameter gives.

* **`typing`** — reads an annotation.
* **`defaulted`** — the parameters with their defaults.
* **`arguments`** — the arguments of a method.
-/

namespace ClassCli.Extraction

open Docstring (Convention)
open Interface (Argument Kind Multiplicity)
open Outline (Expr Function Param TypeExpr)

/-! ## Types -/

/-- The names of types whose values are lists of values. -/
def sequenceNames : List String :=
  ["list", "List", "tuple", "Tuple", "set", "Set", "Sequence", "Iterable"]

/-- Whether a name is that of a type whose values are lists. -/
def isSequence (name : String) : Bool := sequenceNames.contains name

/-- The type of the items of a sequence, by its first argument. -/
def itemKind (args : List TypeExpr) : Option Kind :=
  (args.head?.bind (·.baseName?)).bind Kind.ofName?

/-- The type and multiplicity of an argument with a certain annotation. -/
def typing : TypeExpr → Option Kind × Option Multiplicity
  | .name text =>
    let base := TypeExpr.lastPart text
    if isSequence base then (none, some .list) else (Kind.ofName? base, none)
  | .subscript base [] =>
    if isSequence (TypeExpr.lastPart base) then (none, some .list) else (none, none)
  | .subscript base (first :: rest) =>
    let base := TypeExpr.lastPart base
    if base = "Optional" then typing first
    else if isSequence base then (itemKind (first :: rest), some .list)
    else (none, none)
  | .other _ => (none, none)

/-! ## Parameters and defaults -/

/-- The places before the defaults, which stand beside the last places. -/
def alignRight {α : Type} (places : Nat) (values : List α) : List (Option α) :=
  List.replicate (places - values.length) none ++ (values.map some).take places

/-- The parameters that a caller passes, with their defaults. -/
def defaulted (f : Function) : List (Param × Option Expr) :=
  let p := f.parameters
  ((p.args.zip (alignRight p.args.length p.defaults)).drop f.receiverCount)
    ++ p.keywordOnly.zip p.keywordDefaults

/-- The literal that a default stands for. -/
def defaultOf (method parameter : String) : Option Expr → Noted (Option Literal)
  | none => ⟨none, []⟩
  | some x =>
    match x.literal? with
    | some value => ⟨some value, []⟩
    | none => ⟨none, [.defaultDropped method parameter x.describe]⟩

/-- The argument of a parameter. -/
def argument (method : String) (help : Entries String) (param : Param) (default : Option Expr) :
    Noted Argument := do
  let value ← defaultOf method param.name default
  let (kind, multiplicity) := (param.typeHint.map typing).getD (none, none)
  return { Argument.ofParameter param.name with
    kind, multiplicity, default := value
    help := (Entries.get? param.name help).getD Docstring.noDocumentation }

/-- The arguments of a method, those left out that a marker fills in. -/
def arguments (convention : Convention) (f : Function) (attached : List String) :
    Noted (List Argument) :=
  let help := Docstring.argumentHelp convention f
  ((defaulted f).filter fun (param, _) => !attached.contains param.name).mapM
    fun (param, default) => argument f.name help param default

end ClassCli.Extraction
