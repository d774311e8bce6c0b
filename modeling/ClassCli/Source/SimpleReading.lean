import ClassCli.Source.ExprReading

/-!
# Reading simple statements

Simple statements fill a line, several of them with semicolons in between. The words `print`, `exec`
and `type` open statements of their own only where an expression does not fit.

* **`simpleStatement`** — one simple statement.
* **`atStatementEnd`** tells whether it has been read to its end.
-/

namespace ClassCli.Source

/-! ## Names in imports -/

/-- The rest of a dotted name after its first part. -/
def dottedRest (p : Place) : Nat → Tokens → Except Tokens (Unit × Tokens)
  | 0, ts => .error ts
  | fuel + 1, ts =>
    if atSymbol "." (p.next ts) then do
      let (_, rest) ← identifier (p.start ((p.next ts).drop 1))
      dottedRest p fuel rest
    else .ok ((), ts)

/-- A dotted name, as it is written. -/
def dottedName (p : Place) (ts : Tokens) : Except Tokens (String × Tokens) := do
  let ts := p.start ts
  let (_, rest) ← identifier ts
  let ((), rest) ← dottedRest p (rest.length + 1) rest
  .ok (Token.spelled ts rest, rest)

/-- An imported name, perhaps bound to another one. -/
def importedName (p : Place) (ts : Tokens) : Except Tokens (ImportedName × Tokens) := do
  let (name, rest) ← dottedName p ts
  if atWord "as" (p.next rest) then
    let (asName, rest) ← identifier (p.start ((p.next rest).drop 1))
    .ok (⟨name, some asName⟩, rest)
  else .ok (⟨name, none⟩, rest)

/-- Imported names with commas between them. -/
def importedNames (p : Place) (ts : Tokens) : Except Tokens (List ImportedName × Tokens) :=
  commaList (importedName p) (fun ts => atStatementEnd ts || atSymbol ")" ts) p.next ts.length
    (p.start ts)

/-- Imported names, perhaps in round brackets. -/
def importList (p : Place) (ts : Tokens) : Except Tokens (List ImportedName × Tokens) := do
  let ts := p.start ts
  if atSymbol "(" ts then
    let (names, rest) ← importedNames p.inside (ts.drop 1)
    let ((), rest) ← symbol ")" rest
    .ok (names, rest)
  else importedNames p ts

/-- The points that open a relative module path. -/
def leadingPoints : Nat → Tokens → Tokens
  | 0, ts => ts
  | fuel + 1, ts =>
    if atSymbol "." ts || atSymbol "..." ts then leadingPoints fuel (ts.drop 1) else ts

/-- The module path of an import, as it is written. -/
def modulePath (p : Place) (ts : Tokens) : Except Tokens (String × Tokens) := do
  let ts := p.start ts
  let rest := leadingPoints ts.length ts
  if rest.length < ts.length && atWord "import" (p.start rest) then
    .ok (Token.spelled ts rest, rest)
  else
    let (_, rest) ← dottedName p rest
    .ok (Token.spelled ts rest, rest)

/-- An import from a module, after the word `from`. -/
def importFrom (p : Place) (ts : Tokens) : Except Tokens (Stmt × Tokens) := do
  if atWord "__future__" (p.start ts) then
    let ((), rest) ← word "import" (p.start ((p.start ts).drop 1))
    let (_, rest) ← importList p rest
    .ok (.other, rest)
  else
    let (module, rest) ← modulePath p ts
    let ((), rest) ← word "import" (p.start rest)
    if atSymbol "*" (p.start rest) then .ok (.importFrom module [] true, (p.start rest).drop 1)
    else
      let (names, rest) ← importList p rest
      .ok (.importFrom module names false, rest)

/-! ## Types -/

/-- A type, as it is written. -/
def typeText (p : Place) (ts : Tokens) : Except Tokens (String × Tokens) := do
  let ts := p.start ts
  let (_, rest) ← expression p (if atSymbol "**" ts then ts.drop 1 else ts)
  .ok (Token.spelled ts rest, rest)

/-! ## Expressions and assignments as statements -/

/-- The operators of augmented assignments. -/
def augmentedSymbols : List String :=
  ["+=", "-=", "*=", "/=", "@=", "//=", "%=", "**=", ">>=", "<<=", "&=", "^=", "|="]

/-- Whether an augmented assignment comes next. -/
def atAugmented (ts : Tokens) : Bool :=
  match lexeme? ts with
  | .symbol mark => mark ∈ augmentedSymbols
  | _ => false

/-- Several expressions as one. -/
def gathered : List Expr → Expr
  | [x] => x
  | xs => .tuple xs

/-- What a statement starts with: `yield` or expressions with commas between them. -/
def statementExprs (p : Place) (ts : Tokens) : Except Tokens (List Expr × Tokens) := do
  let ts := p.start ts
  if atWord "yield" ts then
    let (x, rest) ← yieldExpr (readersFor ts).expression p ts
    .ok ([x], rest)
  else expressions (readersFor ts).expression p ts

/-- The left sides of the assignments in a statement, from left to right; the first one has been
read. What follows an augmented assignment is read and dropped. -/
def assignments (p : Place) : Nat → List Expr → Tokens → Except Tokens (List Expr × Tokens)
  | 0, _, ts => .error ts
  | fuel + 1, xs, ts =>
    let x := gathered xs
    if atSymbol "=" ts || atSymbol ":" ts || atAugmented ts then
      if !x.isTarget then .error ts
      else if atAugmented ts then do
        let (ys, rest) ← statementExprs p (ts.drop 1)
        let (_, rest) ← assignments p fuel ys rest
        .ok ([], rest)
      else do
        let ((), rest) ←
          if atSymbol ":" ts then do
            let (_, rest) ← typeText p (ts.drop 1)
            pure ((), rest)
          else pure ((), ts)
        if atSymbol "=" rest then
          let (ys, rest) ← statementExprs p (rest.drop 1)
          let (targets, rest) ← assignments p fuel ys rest
          .ok (x :: targets, rest)
        else .ok ([x], rest)
    else .ok ([], ts)

/-- A statement that is an expression, a list of them or an assignment. -/
def expressionStatement (p : Place) (ts : Tokens) : Except Tokens (Stmt × Tokens) := do
  let (xs, rest) ← statementExprs p ts
  let (targets, after) ← assignments p (rest.length + 1) xs rest
  match targets, xs with
  | [], x :: _ =>
    -- an augmented assignment binds nothing new
    .ok (if after.length = rest.length then .expression x else .other, after)
  | _, _ => .ok (.assign targets, after)

/-! ## Statements that a word opens -/

/-- Expressions that are read and dropped. -/
def dropped (p : Place) (ts : Tokens) : Except Tokens (Unit × Tokens) := do
  let (_, rest) ← expressions (readersFor ts).expression p ts
  .ok ((), rest)

/-- Expressions that may be absent. -/
def droppedIfAny (p : Place) (ts : Tokens) : Except Tokens (Unit × Tokens) :=
  if atStatementEnd ts || atWord "from" ts then .ok ((), ts) else dropped p ts

/-- Names with commas between them. -/
def names (p : Place) (ts : Tokens) : Except Tokens (List String × Tokens) :=
  commaList (fun ts => identifier (p.start ts)) (fun _ => false) p.next ts.length ts

/-- The old form of `print`, after that word. -/
def printStatement (p : Place) (ts : Tokens) : Except Tokens (Stmt × Tokens) := do
  let ts := p.start ts
  if atSymbol ">>" ts then
    let ((), rest) ← dropped p (ts.drop 1)
    .ok (.other, rest)
  else
    let ((), rest) ← dropped p ts
    .ok (.other, rest)

/-- The old form of `exec`, after that word. -/
def execStatement (p : Place) (ts : Tokens) : Except Tokens (Stmt × Tokens) := do
  let ts := p.start ts
  let (_, rest) ←
    if atString ts then stringPart (readersFor ts).expression p ts else identifier ts
  if atWord "in" (p.next rest) then
    let ((), rest) ← dropped p ((p.next rest).drop 1)
    .ok (.other, rest)
  else .ok (.other, rest)

/-- The definition of a type by another, after the word `type`. -/
def typeStatement (p : Place) (ts : Tokens) : Except Tokens (Stmt × Tokens) := do
  let (_, rest) ← typeText p ts
  let ((), rest) ← symbol "=" (p.start rest)
  let (_, rest) ← typeText p rest
  .ok (.other, rest)

/-- The first of two readings if it reaches the end of a statement, the second otherwise. -/
def orElse (first second : Except Tokens (Stmt × Tokens)) : Except Tokens (Stmt × Tokens) :=
  match first with
  | .ok (stmt, rest) => if atStatementEnd rest then .ok (stmt, rest) else second
  | .error _ => second

/-- A statement of which only the end matters. -/
def plain (r : Except Tokens (Unit × Tokens)) : Except Tokens (Stmt × Tokens) :=
  r.map fun ((), rest) => (.other, rest)

/-- One simple statement. -/
def simpleStatement (p : Place) (ts : Tokens) : Except Tokens (Stmt × Tokens) :=
  let rest := ts.drop 1
  match lexeme? ts with
  | .word "import" => do
    let (names, rest) ← importedNames p rest
    .ok (.importNames names, rest)
  | .word "from" => importFrom p rest
  | .word "pass" | .word "break" | .word "continue" => .ok (.other, rest)
  | .word "assert" | .word "del" => plain (dropped p rest)
  | .word "return" => plain (droppedIfAny p rest)
  | .word "raise" => do
    let ((), rest) ← droppedIfAny p rest
    if atWord "from" rest then
      let (_, rest) ← expression p (rest.drop 1)
      .ok (.other, rest)
    else .ok (.other, rest)
  | .word "global" | .word "nonlocal" => do
    let (_, rest) ← names p rest
    .ok (.other, rest)
  | .word "print" => orElse (expressionStatement p ts) (printStatement p rest)
  | .word "exec" => orElse (expressionStatement p ts) (execStatement p rest)
  | .word "type" => orElse (typeStatement p rest) (expressionStatement p ts)
  | _ => expressionStatement p ts

end ClassCli.Source
