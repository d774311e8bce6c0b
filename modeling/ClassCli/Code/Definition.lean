import ClassCli.Code.Block
import ClassCli.Code.Value

/-!
# Functions and matches as blocks

* **`Definition`** — a function definition; lines go into its body.
* **`Match`** — a match statement with one suite for each case.
-/

namespace ClassCli.Code

/-! ## Functions -/

/-- A function definition with the lines written so far. -/
structure Definition where
  name : String
  block : Block
  deriving Repr, Inhabited

/-- A parameter with its annotation, which is left out if it is empty. -/
def parameter (name typeHint : String) : String :=
  if typeHint.isEmpty then name else name ++ ": " ++ typeHint

/-- The first line of a function definition. -/
def header (name : String) (params : List (String × String)) (returns : Option String) : String :=
  let signature := Text.joinStrings ", " (params.map fun (name, typeHint) => parameter name typeHint)
  let result := match returns with
    | some typeHint => " -> " ++ typeHint
    | none => ""
  "def " ++ name ++ "(" ++ signature ++ ")" ++ result ++ ":"

namespace Definition

/-- Opens a function definition; what is written next belongs to its body. -/
def start (name : String) (params : List (String × String)) (returns : Option String) :
    Definition :=
  ⟨name, (Block.single (header name params returns)).indent⟩

/-- Writes a line at the cursor. -/
def appendLine (definition : Definition) (text : String) : Definition :=
  { definition with block := definition.block.appendLine text }

/-- Writes lines at the cursor. -/
def appendLines (definition : Definition) (texts : List String) : Definition :=
  { definition with block := definition.block.appendLines texts }

/-- Puts lines above the definition, below the first `index` lines that are already there. -/
def putAbove (definition : Definition) (content : List Line) (index : Nat := 0) : Definition :=
  { definition with block := definition.block.insert content index }

end Definition

/-! ## Matches -/

/-- What a case of a match tests. -/
inductive Pattern where
  | str (value : String)
  | int (value : Int)
  /-- Whatever is left. -/
  | anything
  deriving DecidableEq, Repr, Inhabited

/-- The pattern as it is written. -/
def Pattern.shown : Pattern → String
  | .str value => quote value
  | .int value => Literal.integerText value
  | .anything => "_"

/-- One case of a match: a pattern and what is done then. -/
structure Case where
  pattern : Pattern
  body : List Line
  deriving DecidableEq, Repr, Inhabited

namespace Case

/-- A case whose suite is moved to level 0. -/
def of (pattern : Pattern) (body : List Line) : Case := ⟨pattern, (Block.append {} body).lines⟩

/-- The lines of a case. -/
def block (c : Case) : Block :=
  (Block.single ("case " ++ c.pattern.shown ++ ":")).indent.append c.body

end Case

/-- A match statement. -/
structure Match where
  subject : String
  cases : List Case
  deriving DecidableEq, Repr, Inhabited

/-- The lines of a match statement. -/
def Match.block (m : Match) : Block :=
  m.cases.foldl (fun block c => block.append c.block.lines)
    (Block.single ("match " ++ m.subject ++ ":")).indent

end ClassCli.Code
