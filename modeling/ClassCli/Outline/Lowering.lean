import ClassCli.Decimal.Reading
import ClassCli.Outline.Basic
import ClassCli.Outline.StringLiteral
import ClassCli.Outline.Cleandoc
import ClassCli.Source.StmtReading

/-!
# From source trees to outlines

Lowering keeps of every statement what an outline holds. A compound statement becomes the sequence of
the statements in its suites, clause after clause; without any it counts as any other statement.

* **`lowerExpr`** — the outline of an expression.
* **`lowerParams`** — parameters sorted into positional and keyword-only ones.
* **`lowerStmt`** — the outline of a statement.
* **`outline?`** — the outline of a source text.
-/

namespace ClassCli.Outline

open Text
open Decimal (Binary64 DecimalText decimalText? digitValue spelledNat?)

/-! ## Numbers -/

/-- The number that an integer literal denotes. -/
def integerNat? (text : String) : Option Nat :=
  let s := asciiLower (text.toList.filter (· != '_'))
  match afterStart ['0', 'x'] s, afterStart ['0', 'o'] s, afterStart ['0', 'b'] s with
  | some digits, _, _ => spelledNat? 16 digits
  | _, some digits, _ => spelledNat? 8 digits
  | _, _, some digits => spelledNat? 2 digits
  | _, _, _ => spelledNat? 10 s

/-- The value of an integer literal that fits in 64 bits. -/
def integer? (text : String) : Option Int64 :=
  match integerNat? text with
  | some n => if n < 0x8000000000000000 then some (Int64.ofNat n) else none
  | none => none

/-- The value of a floating-point literal. -/
def float? (text : String) : Option Binary64 :=
  (decimalText? (text.toList.filter (· != '_'))).map DecimalText.value

/-! ## Expressions -/

/-- The literal inside an expression that is one. -/
def number? : Expr → Option Literal
  | .literal (.int i) => some (.int i)
  | .literal (.float x) => some (.float x)
  | _ => none

/-- The value of a signed number. -/
def signed? (operator : String) (operand : Expr) : Option Literal :=
  match operator, number? operand with
  | "-", some (.int i) => some (.int (-i))
  | "-", some (.float x) => some (.float x.neg)
  | "+", some value => some value
  | _, _ => none

/-- A literal if there is a value, and the text otherwise. -/
def literalOr {α : Type} (text : String) (wrap : α → Literal) : Option α → Expr
  | some value => .literal (wrap value)
  | none => .other text

mutual

/-- The outline of an expression. -/
def lowerExpr : Source.Expr → Expr
  | .name text => .name text
  | .attribute object field => .attribute (lowerExpr object) field
  | .call callee arguments =>
    .call (lowerExpr callee) (lowerArgs arguments) (lowerKeywords arguments)
  | .generatorCall callee generator => .call (lowerExpr callee) [.other generator] []
  | .integer text => literalOr text .int (integer? text)
  | .float text => literalOr text .float (float? text)
  | .string parts text => literalOr text .str (StringLiteral.values? parts)
  | .truth value => .literal (.bool value)
  | .none => .literal .none
  | .list items | .tuple items => .list (lowerExprs items)
  | .group inner => lowerExpr inner
  | .unary operator operand text => literalOr text id (signed? operator (lowerExpr operand))
  | .keyword _ value => lowerExpr value
  | .subscript text | .splat text | .other text => .other text

/-- The outlines of expressions. -/
def lowerExprs : List Source.Expr → List Expr
  | [] => []
  | x :: xs => lowerExpr x :: lowerExprs xs

/-- The outlines of the arguments of a call that are not passed by keyword. -/
def lowerArgs : List Source.Expr → List Expr
  | [] => []
  | .keyword _ _ :: xs => lowerArgs xs
  | x :: xs => lowerExpr x :: lowerArgs xs

/-- The arguments of a call that are passed by keyword. -/
def lowerKeywords : List Source.Expr → List (String × Expr)
  | [] => []
  | .keyword name value :: xs => (name, lowerExpr value) :: lowerKeywords xs
  | _ :: xs => lowerKeywords xs

end

/-! ## Parameters -/

/-- A parameter with its annotation read. -/
def namedParam (name : String) (typeHint : Option String) : Param :=
  ⟨name, typeHint.map TypeExpr.parse⟩

/-- A parameter with its default, added to the positional ones or, after a star, to the keyword-only
ones. -/
def Parameters.add (keywordOnly : Bool) (param : Param) (default : Option Expr)
    (ps : Parameters) : Parameters :=
  if keywordOnly then
    { ps with keywordOnly := ps.keywordOnly ++ [param]
              keywordDefaults := ps.keywordDefaults ++ [default] }
  else
    { ps with args := ps.args ++ [param], defaults := ps.defaults ++ default.toList }

/-- Sorts parameters; `keywordOnly` says whether a star has come before. -/
def sortParams : Bool → Parameters → List Source.Param → Parameters
  | _, ps, [] => ps
  | keywordOnly, ps, .plain name typeHint default :: rest =>
    let param := namedParam name typeHint
    sortParams keywordOnly (ps.add keywordOnly param (default.map lowerExpr)) rest
  | _, ps, .star name typeHint :: rest =>
    sortParams true { ps with rest := name.map (namedParam · typeHint) } rest
  | keywordOnly, ps, .doubleStar name typeHint :: rest =>
    sortParams keywordOnly { ps with keywordRest := name.map (namedParam · typeHint) } rest
  | _, ps, .bareStar :: rest => sortParams true ps rest
  | keywordOnly, ps, .tuple :: rest | keywordOnly, ps, .slash :: rest =>
    sortParams keywordOnly ps rest

/-- The parameters of a function. -/
def lowerParams (params : List Source.Param) : Parameters := sortParams false {} params

/-! ## Statements -/

mutual

/-- The names that a target binds. -/
def targetNames : Source.Expr → List String
  | .name text => [text]
  | .tuple items | .list items => targetNamesAll items
  | .group inner => targetNames inner
  | _ => []

/-- The names that several targets bind. -/
def targetNamesAll : List Source.Expr → List String
  | [] => []
  | x :: xs => targetNames x ++ targetNamesAll xs

end

/-- The docstring of a body: the cleaned value of the string that opens it. -/
def docstring? : List Source.Stmt → Option String
  | .expression (.string parts _) :: _ => (StringLiteral.values? parts).map cleandoc
  | _ => none

/-- A compound statement with these statements in its suites. -/
def compoundOf (body : List Node) : Node := if body.isEmpty then .other else .compound body

mutual

/-- The outline of a statement. -/
def lowerStmt : Source.Stmt → Node
  | .classDef decorators name body line =>
    .classDef ⟨name, decorators.map lowerExpr, docstring? body, line⟩ (lowerBlock body)
  | .functionDef decorators name params returns body line =>
    let returns := returns.map TypeExpr.parse
    .functionDef
      ⟨name, lowerParams params, decorators.map lowerExpr, returns, docstring? body, line⟩
      (lowerBlock body)
  | .importNames names => .importNames names
  | .importFrom module names wildcard => .importFrom module names wildcard
  | .expression _ => .other
  | .assign targets => .assign (targetNamesAll targets)
  | .compound suites => compoundOf (lowerSuites suites)
  | .other => .other

/-- The outlines of the statements of a block. -/
def lowerBlock : List Source.Stmt → List Node
  | [] => []
  | stmt :: stmts => lowerStmt stmt :: lowerBlock stmts

/-- The outlines of the statements of all suites, one suite after the other. -/
def lowerSuites : List (List Source.Stmt) → List Node
  | [] => []
  | suite :: suites => lowerBlock suite ++ lowerSuites suites

end

/-- The outline of a source text, or the line of the first fault. -/
def outline? (source : String) : Except Nat (List Node) := (Source.readModule source).map lowerBlock

end ClassCli.Outline
