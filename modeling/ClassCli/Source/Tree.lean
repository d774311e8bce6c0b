/-!
# Trees of Python source

The tree of a module as it is written. Expressions keep the structure that a default, a decorator or
an assignment target can need; every other expression is kept as its source text. Statements keep
what they define, import, assign or contain.

* **`Expr`** — expressions, with targets of assignments among them.
* **`Param`** — the forms that a parameter of a function can take.
* **`Stmt`** — statements; a compound statement is the list of its suites in source order.
-/

namespace ClassCli.Source

/-! ## Expressions -/

/-- An expression. -/
inductive Expr where
  | name (text : String)
  | attribute (object : Expr) (field : String)
  | subscript (text : String)
  /-- A call; an argument is an expression, a keyword argument or other text. -/
  | call (callee : Expr) (arguments : List Expr)
  /-- A call whose only argument is a generator without brackets of its own. -/
  | generatorCall (callee : Expr) (generator : String)
  /-- A keyword argument; it stands in calls only. -/
  | keyword (name : String) (value : Expr)
  | integer (text : String)
  | float (text : String)
  /-- One string literal, or several next to each other. -/
  | string (parts : List String) (text : String)
  | truth (value : Bool)
  | none
  | list (items : List Expr)
  | tuple (items : List Expr)
  /-- An expression in round brackets. -/
  | group (inner : Expr)
  /-- A sign or complement before an operand. -/
  | unary (operator : String) (operand : Expr) (text : String)
  /-- A name, attribute or subscript after a star. -/
  | splat (text : String)
  | other (text : String)
  deriving Repr, Inhabited

namespace Expr

mutual

/-- Whether an expression may stand to the left of an assignment. -/
def isTarget : Expr → Bool
  | .name _ | .attribute .. | .subscript _ | .splat _ => true
  | .group inner => isTarget inner
  | .list items | .tuple items => areTargets items
  | _ => false

/-- Whether all expressions may stand to the left of an assignment. -/
def areTargets : List Expr → Bool
  | [] => true
  | x :: xs => isTarget x && areTargets xs

end

/-- Whether a star before the expression makes a splat: it is a name, an attribute or a subscript. -/
def isPlace : Expr → Bool
  | .name _ | .attribute .. | .subscript _ => true
  | _ => false

end Expr

/-! ## Parameters -/

/-- A parameter of a function. Annotations are kept as source text. -/
inductive Param where
  | plain (name : String) (typeHint : Option String) (default : Option Expr)
  /-- A tuple of names without a default. -/
  | tuple
  /-- A starred parameter; it has no name if something other than a name is starred. -/
  | star (name : Option String) (typeHint : Option String)
  /-- A star by itself. -/
  | bareStar
  /-- The mark after parameters that are positional only. -/
  | slash
  | doubleStar (name : Option String) (typeHint : Option String)
  deriving Repr, Inhabited

/-! ## Statements -/

/-- A name in an import, with the name it is bound to if that is another one. -/
structure ImportedName where
  name : String
  asName : Option String
  deriving DecidableEq, Repr, Inhabited

/-- A statement. -/
inductive Stmt where
  | classDef (decorators : List Expr) (name : String) (body : List Stmt) (line : Nat)
  | functionDef (decorators : List Expr) (name : String) (params : List Param)
      (returns : Option String) (body : List Stmt) (line : Nat)
  | importNames (names : List ImportedName)
  | importFrom (module : String) (names : List ImportedName) (wildcard : Bool)
  /-- A statement that is an expression or a list of them, given by the first. -/
  | expression (first : Expr)
  /-- An assignment, given by its left sides from left to right. -/
  | assign (targets : List Expr)
  /-- A compound statement, given by its suites. -/
  | compound (suites : List (List Stmt))
  | other
  deriving Repr, Inhabited

end ClassCli.Source
