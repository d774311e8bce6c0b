import ClassCli.Source.Token
import ClassCli.Source.Tree

/-!
# Reading tokens

A reader takes a list of tokens and gives a result with the tokens that are left, or the tokens at
which it got stuck.

A line end matters only where a statement could end. Everywhere else it is passed over, unless the
next line stands further left than the block it would have to continue.
-/

namespace ClassCli.Source

/-- The tokens from some place in the text on. -/
abbrev Tokens := List Token

/-- Where an expression is read. -/
structure Place where
  /-- The indentation of the block around it. -/
  level : Nat
  /-- Whether a line end after an operand ends the expression. -/
  endsLine : Bool
  /-- Whether `if` after an operand opens a conditional expression. -/
  conditional : Bool
  deriving DecidableEq, Repr, Inhabited

/-- Passes over a line end unless the next line stands left of the block. -/
def skipBreak (level : Nat) : Tokens → Tokens
  | ⟨.lineBreak indent, gap, joins, line⟩ :: rest =>
    if level ≤ indent then rest else ⟨.lineBreak indent, gap, joins, line⟩ :: rest
  | ts => ts

namespace Place

/-- The tokens as seen where an operand has to start. -/
def start (p : Place) (ts : Tokens) : Tokens := skipBreak p.level ts

/-- The tokens as seen after an operand. -/
def next (p : Place) (ts : Tokens) : Tokens :=
  if p.endsLine then ts else skipBreak p.level ts

/-- The place inside brackets. -/
def inside (p : Place) : Place := ⟨p.level, false, true⟩

/-- The place of a part of a comprehension. -/
def inClause (p : Place) : Place := ⟨p.level, false, false⟩

/-- The end of a statement's line. -/
def statement (level : Nat) : Place := ⟨level, true, true⟩

/-- The head of a compound statement. -/
def head (level : Nat) : Place := ⟨level, false, true⟩

end Place

/-! ## Single tokens -/

/-- The first lexeme. -/
def lexeme? : Tokens → Lexeme
  | [] => .finish
  | t :: _ => t.lexeme

/-- Whether a certain symbol comes next. -/
def atSymbol (mark : String) (ts : Tokens) : Bool := lexeme? ts == .symbol mark

/-- Whether a certain word comes next. -/
def atWord (word : String) (ts : Tokens) : Bool := lexeme? ts == .word word

/-- Takes a certain symbol. -/
def symbol (mark : String) (ts : Tokens) : Except Tokens (Unit × Tokens) :=
  if atSymbol mark ts then .ok ((), ts.drop 1) else .error ts

/-- Takes a certain word. -/
def word (text : String) (ts : Tokens) : Except Tokens (Unit × Tokens) :=
  if atWord text ts then .ok ((), ts.drop 1) else .error ts

/-- Takes any word as a name. -/
def identifier (ts : Tokens) : Except Tokens (String × Tokens) :=
  match ts with
  | ⟨.word text, _, _, _⟩ :: rest => .ok (text, rest)
  | _ => .error ts

/-- The joined line ends before the next token. -/
def joinsAhead : Tokens → List String
  | [] => []
  | t :: _ => t.joins

/-- The joined line ends before the next token as expressions: inside brackets each counts as an
item of its own. -/
def joinItems (ts : Tokens) : List Expr := (joinsAhead ts).map .other

/-- Whether the next token ends a statement. -/
def atStatementEnd (ts : Tokens) : Bool :=
  match lexeme? ts with
  | .lineBreak _ | .finish => true
  | .symbol mark => mark == ";"
  | _ => false

/-- Whether the next token cannot start an expression, so that an optional one is absent. -/
def atExpressionEnd (ts : Tokens) : Bool :=
  match lexeme? ts with
  | .lineBreak _ | .finish | .fieldClose | .fieldColon | .conversion _ => true
  | .symbol mark => mark ∈ [")", "]", "\x7d", ",", ":", ";", "="]
  | _ => false

/-! ## Lists -/

/-- One or more items with commas between them and perhaps one after the last; `ends` tells where
no further item follows a comma. -/
def commaList {α : Type} (item : Tokens → Except Tokens (α × Tokens)) (ends : Tokens → Bool)
    (after : Tokens → Tokens) : Nat → Tokens → Except Tokens (List α × Tokens)
  | 0, ts => .error ts
  | fuel + 1, ts => do
    let (x, rest) ← item ts
    let following := after rest
    if atSymbol "," following then
      let rest := following.drop 1
      if ends (after rest) then .ok ([x], rest)
      else
        let (xs, rest) ← commaList item ends after fuel rest
        .ok (x :: xs, rest)
    else .ok ([x], rest)

/-- Items up to a closing bracket, with commas between them and perhaps one after the last. Joined
line ends between items count as items. -/
def bracketItems (item : Tokens → Except Tokens (Expr × Tokens)) (close : String) :
    Nat → Tokens → Except Tokens (List Expr × Tokens)
  | 0, ts => .error ts
  | fuel + 1, ts =>
    if atSymbol close ts then .ok (joinItems ts, ts.drop 1)
    else do
      let (x, rest) ← item ts
      let here := joinItems ts ++ x :: joinItems rest
      if atSymbol "," rest then
        let (xs, rest) ← bracketItems item close fuel (rest.drop 1)
        .ok (here ++ xs, rest)
      else if atSymbol close rest then .ok (here, rest.drop 1)
      else .error rest

end ClassCli.Source
