import ClassCli.Literal
import ClassCli.Outline.TypeExpr
import ClassCli.Source.Tree

/-!
# Outlines of modules

The outline of a Python module keeps its classes and functions, the names that it imports or
assigns, and the nesting of its blocks. Expressions keep what a decorator or a default can need.

* **`Node`** — the statements of an outline.
* **`Function.explicitParams`** — the parameters that a caller of a method passes.
* **`Expr.literal?`** — the value of an expression that needs no code to be run.
-/

namespace ClassCli.Outline

open Source (ImportedName)

/-! ## Expressions -/

/-- An expression in a decorator or a default. -/
inductive Expr where
  | name (text : String)
  | attribute (value : Expr) (field : String)
  | call (callee : Expr) (args : List Expr) (keywords : List (String × Expr))
  | literal (value : Literal)
  | list (items : List Expr)
  /-- Anything else, as source text. -/
  | other (text : String)
  deriving Repr, Inhabited

namespace Expr

mutual

/-- The value of an expression that is a literal or a list of such expressions. -/
def literal? : Expr → Option Literal
  | .literal value => some value
  | .list items => (literals? items).map .list
  | _ => none

/-- The values of all items, if each has one. -/
def literals? : List Expr → Option (List Literal)
  | [] => some []
  | x :: xs =>
    match literal? x, literals? xs with
    | some v, some vs => some (v :: vs)
    | _, _ => none

end

/-- The dotted name that a chain of attributes of a name spells. -/
def dotted? : Expr → Option String
  | .name text => some text
  | .attribute value field => (dotted? value).map (· ++ "." ++ field)
  | _ => none

/-- A short form for messages. -/
def describe : Expr → String
  | .other text => text
  | .call callee _ _ => describe callee ++ "(...)"
  | x =>
    match dotted? x with
    | some spelled => spelled
    | none =>
      match literal? x with
      | some value => value.inspect
      | none => "<expression>"

end Expr

/-! ## Definitions -/

/-- A named parameter. -/
structure Param where
  name : String
  typeHint : Option TypeExpr
  deriving Repr, Inhabited

/-- The parameters of a function. -/
structure Parameters where
  /-- Positional parameters, positional-only ones among them. -/
  args : List Param := []
  /-- The defaults of the last positional parameters. -/
  defaults : List Expr := []
  keywordOnly : List Param := []
  /-- One place for each keyword-only parameter. -/
  keywordDefaults : List (Option Expr) := []
  /-- What takes further positional arguments. -/
  rest : Option Param := none
  /-- What takes further keyword arguments. -/
  keywordRest : Option Param := none
  deriving Repr, Inhabited

/-- What a function shows of itself. -/
structure Function where
  name : String
  parameters : Parameters
  decorators : List Expr
  returns : Option TypeExpr
  docstring : Option String
  /-- The line of the definition, decorators aside. -/
  line : Nat
  deriving Repr, Inhabited

namespace Function

/-- Whether one of the decorators is a certain bare name. -/
def hasDecorator (f : Function) (name : String) : Bool :=
  f.decorators.any fun
    | .name text => text == name
    | _ => false

/-- Whether a method takes no receiver. -/
def isStatic (f : Function) : Bool := f.hasDecorator "staticmethod"

/-- How many of the first positional parameters are the receiver. -/
def receiverCount (f : Function) : Nat :=
  if !f.isStatic && !f.parameters.args.isEmpty then 1 else 0

/-- The positional parameters without the receiver. -/
def positional (f : Function) : List Param := f.parameters.args.drop f.receiverCount

/-- The parameters without the receiver, positional ones first. -/
def explicitParams (f : Function) : List Param := f.positional ++ f.parameters.keywordOnly

end Function

/-- What a class shows of itself. -/
structure ClassHead where
  name : String
  decorators : List Expr
  docstring : Option String
  /-- The line of the definition, decorators aside. -/
  line : Nat
  deriving Repr, Inhabited

/-! ## Statements -/

/-- A statement of an outline. -/
inductive Node where
  | classDef (head : ClassHead) (body : List Node)
  | functionDef (head : Function) (body : List Node)
  | importNames (names : List ImportedName)
  | importFrom (module : String) (names : List ImportedName) (wildcard : Bool)
  /-- The names that an assignment binds. -/
  | assign (targets : List String)
  /-- The statements in the blocks of a compound statement. -/
  | compound (body : List Node)
  | other
  deriving Repr, Inhabited

end ClassCli.Outline
