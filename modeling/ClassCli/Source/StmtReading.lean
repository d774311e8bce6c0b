import ClassCli.Source.SimpleReading
import ClassCli.Source.PatternReading
import ClassCli.Source.Lexer

/-!
# Reading statements and modules

Blocks follow the layout: the statements of a suite stand further right than the line that opens it,
and a line further left than the block ends it. A suite may be missing. A word such as `else` goes on
with a compound statement only where that statement can go on.

Where reading fails, the place reported is the line of the innermost statement that could not be
read, or the line of the token at fault if that stands further down inside closed brackets.

* **`readModule`** — the statements of a source text, or the line of the first fault.
-/

namespace ClassCli.Source

/-! ## Where reading failed -/

/-- The line of the next token. -/
def lineHere : Tokens → Nat
  | [] => 1
  | t :: _ => t.line

/-- How many brackets a stretch of one logical line opens beyond those it closes. -/
def openBrackets : Nat → Tokens → Nat
  | depth, [] => depth
  | depth, t :: ts =>
    match t.lexeme with
    | .lineBreak _ => depth
    | .symbol mark =>
      if mark ∈ ["(", "[", "\x7b"] then openBrackets (depth + 1) ts
      else if mark ∈ [")", "]", "\x7d"] then openBrackets (depth - 1) ts
      else openBrackets depth ts
    | _ => openBrackets depth ts

/-- Whether a token is the end of a line or of the input. -/
def Token.isBreak (t : Token) : Bool :=
  match t.lexeme with
  | .lineBreak _ | .finish => true
  | _ => false

/-- The line reported for a statement that starts at `start` and got stuck at `stuck`. -/
def faultLine (start stuck : Tokens) : Nat :=
  let seen := Token.consumed start stuck ++ stuck.take 1
  if seen.any Token.isBreak || 0 < openBrackets 0 start then lineHere start else lineHere stuck

/-- Reports the line of a failure in the statement that starts at `start`. -/
def located {α : Type} (start : Tokens) (r : Except Tokens α) : Except Nat α :=
  r.mapError (faultLine start)

/-! ## Lines of simple statements -/

/-- The joined line ends before the next token as statements of their own. -/
def joinStmts (ts : Tokens) : List Stmt := (joinsAhead ts).map fun _ => .other

/-- A line of simple statements, up to its end. -/
def simpleLine (level : Nat) : Nat → Tokens → Except Nat (List Stmt × Tokens)
  | 0, ts => .error (lineHere ts)
  | fuel + 1, ts => do
    let (stmt, rest) ← located ts (simpleStatement (.statement level) ts)
    if atSymbol ";" rest then
      let following := rest.drop 1
      let between := joinStmts rest
      if atStatementEnd following && !atSymbol ";" following then
        .ok (stmt :: between, following)
      else
        let (stmts, rest) ← simpleLine level fuel following
        .ok (stmt :: between ++ joinStmts following ++ stmts, rest)
    else if atStatementEnd rest then .ok ([stmt], rest)
    else .error (faultLine ts rest)

/-! ## Suites and clauses -/

/-- A reader of the block that stands at a given indentation. -/
abbrev BlockReader := Nat → Tokens → Except Nat (List Stmt × Tokens)

/-- What follows the colon of a clause: a deeper block, nothing, or simple statements. -/
def suite (block : BlockReader) (level : Nat) (ts : Tokens) : Except Nat (List Stmt × Tokens) :=
  match ts with
  | ⟨.lineBreak indent, _, _, _⟩ :: rest =>
    if level < indent then block indent rest else .ok ([], ts)
  | _ => simpleLine level ts.length ts

/-- The colon after the head of a clause, and its suite. -/
def colonSuite (block : BlockReader) (level : Nat) (start ts : Tokens) :
    Except Nat (List Stmt × Tokens) := do
  let ((), rest) ← located start (symbol ":" (skipBreak level ts))
  suite block level rest

/-- The tokens from a word on, if it opens the next line of a statement at the given indentation. -/
def clauseAhead (level : Nat) (opener : String) (ts : Tokens) : Option Tokens :=
  match ts with
  | ⟨.lineBreak indent, _, _, _⟩ :: rest =>
    if level ≤ indent && atWord opener rest then some rest else none
  | _ => none

/-- A clause that consists of a word and a suite, if it comes next. -/
def wordClause (block : BlockReader) (level : Nat) (opener : String) (ts : Tokens) :
    Except Nat (List (List Stmt) × Tokens) :=
  match clauseAhead level opener ts with
  | none => .ok ([], ts)
  | some start => do
    let (body, rest) ← colonSuite block level start (start.drop 1)
    .ok ([body], rest)

/-- A clause that consists of a word, an expression and a suite. -/
def conditionClause (block : BlockReader) (level : Nat) (start : Tokens) :
    Except Nat (List Stmt × Tokens) := do
  let (_, rest) ← located start (expression (.head level) (start.drop 1))
  colonSuite block level start rest

/-- The clauses that a word opens, as many as follow each other. -/
def repeated (clause : Tokens → Except Nat (List Stmt × Tokens)) (level : Nat) (opener : String) :
    Nat → Tokens → Except Nat (List (List Stmt) × Tokens)
  | 0, ts => .ok ([], ts)
  | fuel + 1, ts =>
    match clauseAhead level opener ts with
    | none => .ok ([], ts)
    | some start => do
      let (body, rest) ← clause start
      let (bodies, rest) ← repeated clause level opener fuel rest
      .ok (body :: bodies, rest)

/-! ## Compound statements -/

/-- A conditional statement. -/
def ifStatement (block : BlockReader) (level : Nat) (ts : Tokens) :
    Except Nat (Stmt × Tokens) := do
  let (body, rest) ← conditionClause block level ts
  let (others, rest) ← repeated (conditionClause block level) level "elif" rest.length rest
  let (last, rest) ← wordClause block level "else" rest
  .ok (.compound (body :: others ++ last), rest)

/-- A loop with a condition. -/
def whileStatement (block : BlockReader) (level : Nat) (ts : Tokens) :
    Except Nat (Stmt × Tokens) := do
  let (body, rest) ← conditionClause block level ts
  let (last, rest) ← wordClause block level "else" rest
  .ok (.compound (body :: last), rest)

/-- The head of a loop over items, from the word `for` on. -/
def forHead (level : Nat) (ts : Tokens) : Except Tokens (Unit × Tokens) := do
  let p := Place.head level
  let ((), rest) ← word "for" ts
  let (_, rest) ←
    commaList (target p) (fun ts => atWord "in" (p.start ts)) p.next rest.length (p.start rest)
  let ((), rest) ← word "in" (p.start rest)
  dropped p rest

/-- A loop over items; `start` is the first token of the statement and `ts` the word `for`. -/
def forStatement (block : BlockReader) (level : Nat) (start ts : Tokens) :
    Except Nat (Stmt × Tokens) := do
  let ((), rest) ← located start (forHead level ts)
  let (body, rest) ← colonSuite block level start rest
  let (last, rest) ← wordClause block level "else" rest
  .ok (.compound (body :: last), rest)

/-- A statement that manages contexts. -/
def withStatement (block : BlockReader) (level : Nat) (start ts : Tokens) :
    Except Nat (Stmt × Tokens) := do
  let ((), rest) ← located start (dropped (.head level) (ts.drop 1))
  let (body, rest) ← colonSuite block level start rest
  .ok (.compound [body], rest)

/-- The head of a handler of exceptions, after the word that opens it. -/
def handlerHead (level : Nat) (ts : Tokens) : Except Tokens (Unit × Tokens) := do
  let p := Place.head level
  let ts := p.start ts
  if atSymbol ":" ts then .ok ((), ts)
  else
    let (_, rest) ← expression p (if atSymbol "*" ts then ts.drop 1 else ts)
    if atSymbol "," (p.next rest) then
      let (_, rest) ← expression p ((p.next rest).drop 1)
      .ok ((), rest)
    else .ok ((), rest)

/-- A handler of exceptions. -/
def handler (block : BlockReader) (level : Nat) (start : Tokens) :
    Except Nat (List Stmt × Tokens) := do
  let ((), rest) ← located start (handlerHead level (start.drop 1))
  colonSuite block level start rest

/-- A statement with handlers of exceptions. Without any it needs a final clause. -/
def tryStatement (block : BlockReader) (level : Nat) (ts : Tokens) :
    Except Nat (Stmt × Tokens) := do
  let (body, rest) ← colonSuite block level ts (ts.drop 1)
  let (handlers, rest) ← repeated (handler block level) level "except" rest.length rest
  let (otherwise, rest) ←
    if handlers.isEmpty then pure ([], rest) else wordClause block level "else" rest
  let (last, rest) ← wordClause block level "finally" rest
  if handlers.isEmpty && last.isEmpty then .error (faultLine ts rest)
  else .ok (.compound (body :: handlers ++ otherwise ++ last), rest)

/-! ## Matching -/

/-- The head of a case, after the word `case`. -/
def caseHead (level : Nat) (ts : Tokens) : Except Tokens (Unit × Tokens) := do
  let p := Place.head level
  let (_, rest) ← commaList (pattern p)
    (fun ts => atSymbol ":" ts || atWord "if" ts) p.next ts.length (p.start ts)
  if atWord "if" (p.next rest) then
    let (_, rest) ← expression p ((p.next rest).drop 1)
    .ok ((), rest)
  else .ok ((), rest)

/-- A case. -/
def caseClause (block : BlockReader) (level : Nat) (start : Tokens) :
    Except Nat (Stmt × Tokens) := do
  let ((), rest) ← located start (word "case" start)
  let ((), rest) ← located start (caseHead level rest)
  let (body, rest) ← colonSuite block level start rest
  .ok (.compound [body], rest)

/-- The cases of a block at the given indentation. -/
def cases (block : BlockReader) (level : Nat) : Nat → Tokens → Except Nat (List Stmt × Tokens)
  | 0, ts => .error (lineHere ts)
  | fuel + 1, ts => do
    let (first, rest) ← caseClause block level ts
    match rest with
    | ⟨.lineBreak indent, _, _, _⟩ :: following =>
      if level ≤ indent && lexeme? following != .finish then
        let (others, rest) ← cases block level fuel following
        .ok (first :: others, rest)
      else .ok ([first], rest)
    | _ => .ok ([first], rest)

/-- The head of a matching statement with its colon, if the line ends there. -/
def matchHead? (level : Nat) (ts : Tokens) : Option Tokens :=
  let p := Place.head level
  let head := do
    let ((), rest) ← dropped p (ts.drop 1)
    symbol ":" (p.next rest)
  match head with
  | .ok ((), rest) => if atStatementEnd rest && !atSymbol ";" rest then some rest else none
  | .error _ => none

/-- A matching statement after its head. -/
def matchBody (block : BlockReader) (level : Nat) (ts : Tokens) : Except Nat (Stmt × Tokens) :=
  match ts with
  | ⟨.lineBreak indent, _, _, _⟩ :: rest =>
    if level < indent then do
      let (clauses, rest) ← cases block indent rest.length rest
      .ok (.compound [clauses], rest)
    else .ok (.compound [], ts)
  | _ => .ok (.compound [], ts)

/-! ## Definitions -/

/-- The parameters of a type, in square brackets, if there are any. -/
def typeParams (p : Place) (ts : Tokens) : Except Tokens (Unit × Tokens) :=
  if atSymbol "[" (p.start ts) then do
    let one (ts : Tokens) : Except Tokens (Unit × Tokens) := do
      let (_, rest) ← typeText p.inside ts
      if atSymbol ":" rest then
        let (_, rest) ← typeText p.inside (rest.drop 1)
        .ok ((), rest)
      else .ok ((), rest)
    let rest := (p.start ts).drop 1
    let (_, rest) ← commaList one (atSymbol "]") id rest.length rest
    symbol "]" rest
  else .ok ((), ts)

/-- An annotation after a colon, if there is one. -/
def typeHint? (p : Place) (ts : Tokens) : Except Tokens (Option String × Tokens) :=
  if atSymbol ":" ts then do
    let (text, rest) ← typeText p (ts.drop 1)
    .ok (some text, rest)
  else .ok (none, ts)

/-- A default after an equals sign, if there is one. -/
def default? (p : Place) (ts : Tokens) : Except Tokens (Option Expr × Tokens) :=
  if atSymbol "=" ts then do
    let (x, rest) ← expression p (ts.drop 1)
    .ok (some x, rest)
  else .ok (none, ts)

/-- What a star makes a parameter of: a name, or an attribute or subscript that names nothing. -/
def starred (p : Place) (ts : Tokens) : Except Tokens (Option String × Tokens) := do
  let (x, rest) ← (readersFor ts).postfixed p ts
  match x with
  | .name text => .ok (some text, rest)
  | x => if x.isPlace then .ok (none, rest) else .error ts

/-- A parameter of a function. -/
def param (p : Place) (ts : Tokens) : Except Tokens (Param × Tokens) :=
  match lexeme? ts with
  | .symbol "/" => .ok (.slash, ts.drop 1)
  | .symbol "*" =>
    if atSymbol "," (ts.drop 1) || atSymbol ")" (ts.drop 1) then .ok (.bareStar, ts.drop 1)
    else do
      let (name, rest) ← starred p (ts.drop 1)
      let (typeHint, rest) ← typeHint? p rest
      .ok (.star name typeHint, rest)
  | .symbol "**" => do
    let (name, rest) ← starred p (ts.drop 1)
    let (typeHint, rest) ← typeHint? p rest
    .ok (.doubleStar name typeHint, rest)
  | .symbol "(" => do
    let (x, rest) ← (readersFor ts).round p ts
    if !x.isTarget then .error ts
    else
      let (default, after) ← default? p rest
      .ok (if default.isSome then .plain (Token.spelled ts rest) none default else .tuple, after)
  | .word name => do
    let (typeHint, rest) ← typeHint? p (ts.drop 1)
    let (default, rest) ← default? p rest
    .ok (.plain name typeHint default, rest)
  | _ => .error ts

/-- The parameters of a function, in round brackets. -/
def params (p : Place) (ts : Tokens) : Except Tokens (List Param × Tokens) := do
  let p := p.inside
  let ((), rest) ← symbol "(" ts
  if atSymbol ")" rest then .ok ([], rest.drop 1)
  else
    let (xs, rest) ← commaList (param p) (atSymbol ")") id rest.length rest
    let ((), rest) ← symbol ")" rest
    .ok (xs, rest)

/-- The head of a function after the word `def`: its name, its parameters and what it returns. -/
def functionHead (p : Place) (ts : Tokens) :
    Except Tokens ((String × List Param × Option String) × Tokens) := do
  let (name, rest) ← identifier (p.start ts)
  let ((), rest) ← typeParams p rest
  let (xs, rest) ← params p (p.start rest)
  if atSymbol "->" (p.next rest) then
    let (returns, rest) ← typeText p ((p.next rest).drop 1)
    .ok ((name, xs, some returns), rest)
  else .ok ((name, xs, none), rest)

/-- A function; `start` is the first token of the definition and `ts` the word `def`. -/
def functionStatement (block : BlockReader) (level : Nat) (decorators : List Expr)
    (start ts : Tokens) : Except Nat (Stmt × Tokens) := do
  let ((name, xs, returns), rest) ← located start (functionHead (.head level) (ts.drop 1))
  let (body, rest) ← colonSuite block level start rest
  .ok (.functionDef decorators name xs returns body (lineHere start), rest)

/-- The head of a class after the word `class`: its name. -/
def classHead (p : Place) (ts : Tokens) : Except Tokens (String × Tokens) := do
  let (name, rest) ← identifier (p.start ts)
  let ((), rest) ← typeParams p rest
  if atSymbol "(" (p.start rest) then
    let (bases, after) ← (readersFor rest).arguments p .none (p.start rest)
    match bases with
    | .call .. => .ok (name, after)
    | _ => .error rest
  else .ok (name, rest)

/-- A class. -/
def classStatement (block : BlockReader) (level : Nat) (decorators : List Expr) (ts : Tokens) :
    Except Nat (Stmt × Tokens) := do
  let (name, rest) ← located ts (classHead (.head level) (ts.drop 1))
  let (body, rest) ← colonSuite block level ts rest
  .ok (.classDef decorators name body (lineHere ts), rest)

/-- A decorator up to the end of its line. A joined line end directly after the sign stands for the
whole of it. -/
def decorator (level : Nat) (ts : Tokens) : Except Tokens (Expr × Tokens) := do
  let ((), rest) ← symbol "@" ts
  let (x, after) ← expression (.statement level) rest
  match after with
  | ⟨.lineBreak _, _, _, _⟩ :: _ =>
    .ok (((joinItems rest).head?).getD x, skipBreak level after)
  | _ => .error after

/-- Decorators, as many as follow each other. -/
def decorators (level : Nat) : Nat → Tokens → Except Tokens (List Expr × Tokens)
  | 0, ts => .error ts
  | fuel + 1, ts =>
    if atSymbol "@" ts then do
      let (x, rest) ← decorator level ts
      let (xs, rest) ← decorators level fuel rest
      .ok (x :: xs, rest)
    else .ok ([], ts)

/-- A definition with decorators. -/
def decorated (block : BlockReader) (level : Nat) (ts : Tokens) : Except Nat (Stmt × Tokens) := do
  let (xs, rest) ← located ts (decorators level ts.length ts)
  if atWord "class" rest then classStatement block level xs rest
  else if atWord "def" rest then functionStatement block level xs rest rest
  else if atWord "async" rest && atWord "def" (rest.drop 1) then
    functionStatement block level xs rest (rest.drop 1)
  else .error (faultLine ts rest)

/-! ## Blocks and modules -/

/-- A single compound statement or definition as a list. -/
def single (r : Except Nat (Stmt × Tokens)) : Except Nat (List Stmt × Tokens) :=
  r.map fun (stmt, rest) => ([stmt], rest)

/-- A statement, or a line of simple ones. -/
def statement (block : BlockReader) (level : Nat) (ts : Tokens) :
    Except Nat (List Stmt × Tokens) :=
  let simple := simpleLine level ts.length ts
  match lexeme? ts with
  | .word "if" => single (ifStatement block level ts)
  | .word "while" => single (whileStatement block level ts)
  | .word "for" => single (forStatement block level ts ts)
  | .word "try" => single (tryStatement block level ts)
  | .word "with" => single (withStatement block level ts ts)
  | .word "def" => single (functionStatement block level [] ts ts)
  | .word "class" => single (classStatement block level [] ts)
  | .symbol "@" => single (decorated block level ts)
  | .word "async" =>
    let rest := ts.drop 1
    if atWord "def" rest then single (functionStatement block level [] ts rest)
    else if atWord "for" rest then single (forStatement block level ts rest)
    else if atWord "with" rest then single (withStatement block level ts rest)
    else simple
  | .word "match" =>
    match matchHead? level ts with
    | some rest => single (matchBody block level rest)
    | none => simple
  | _ => simple

/-- The statements of a block at the given indentation, up to a line that stands further left.
`opening` says that no statement of the block has been read yet; joined line ends there belong to
what is around the block. -/
def statements : Nat → Bool → BlockReader
  | 0, _, _, ts => .error (lineHere ts)
  | fuel + 1, opening, level, ts =>
    let joined := if opening then [] else joinStmts ts
    match ts with
    | [] => .ok (joined, ts)
    | ⟨.finish, _, _, _⟩ :: _ => .ok (joined, ts)
    | ⟨.lineBreak indent, _, _, _⟩ :: rest =>
      if level ≤ indent then statements fuel opening level rest else .ok ([], ts)
    | _ => do
      let (stmts, rest) ← statement (statements fuel true) level ts
      let (others, rest) ← statements fuel false level rest
      .ok (joined ++ stmts ++ others, rest)

/-- The statements of a module, or the line of the first fault. -/
def readModule (source : String) : Except Nat (List Stmt) :=
  let ts := Lexer.tokens source
  (statements (ts.length + 1) false 0 ts).map Prod.fst

end ClassCli.Source
