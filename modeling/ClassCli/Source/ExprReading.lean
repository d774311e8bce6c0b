import ClassCli.Source.Reading

/-!
# Reading expressions

Operators are read as one flat chain: an expression that holds any operator is kept as its source
text, so how tightly operators bind does not show, and only the places where each may stand matter.
Every reader here takes the reader of complete expressions as an argument; `expression` closes the
circle with a bound on the depth.

* **`expression`** — an expression.
* **`expressions`** — one or more expressions with commas between them.
* **`target`** — a place that an assignment or a loop can bind.
-/

namespace ClassCli.Source

/-- A reader of complete expressions. -/
abbrev ExprReader := Place → Tokens → Except Tokens (Expr × Tokens)

/-! ## Lists of expressions -/

/-- One or more expressions with commas between them. -/
def expressions (e : ExprReader) (p : Place) (ts : Tokens) :
    Except Tokens (List Expr × Tokens) :=
  commaList (e p) atExpressionEnd p.next ts.length (p.start ts)

/-- One or more expressions, as one. -/
def expressionList (e : ExprReader) (p : Place) (ts : Tokens) :
    Except Tokens (Expr × Tokens) := do
  let (xs, rest) ← expressions e p ts
  match xs with
  | [x] => .ok (x, rest)
  | _ => .ok (.other (Token.spelled (p.start ts) rest), rest)

/-- The expression `yield`, with what it hands out. -/
def yieldExpr (e : ExprReader) (p : Place) (ts : Tokens) : Except Tokens (Expr × Tokens) := do
  let ((), rest) ← word "yield" ts
  if atWord "from" rest then
    let (_, rest) ← e p (rest.drop 1)
    .ok (.other (Token.spelled ts rest), rest)
  else if atExpressionEnd rest then .ok (.other (Token.spelled ts rest), rest)
  else
    let (_, rest) ← expressions e p rest
    .ok (.other (Token.spelled ts rest), rest)

/-! ## Strings -/

/-- The pieces of a format string or of a format specification up to its end. -/
def formatPieces (field : Tokens → Except Tokens (Unit × Tokens)) (isEnd : Lexeme → Bool) :
    Nat → Tokens → Except Tokens (Unit × Tokens)
  | 0, ts => .error ts
  | fuel + 1, ts =>
    if isEnd (lexeme? ts) then .ok ((), ts.drop 1)
    else match lexeme? ts with
      | .formatText _ => formatPieces field isEnd fuel (ts.drop 1)
      | .fieldOpen => do
        let ((), rest) ← field (ts.drop 1)
        formatPieces field isEnd fuel rest
      | _ => .error ts

/-- A replacement field after its opening brace: an expression, perhaps an equals sign, a conversion
and a format specification. -/
def formatField (e : ExprReader) (p : Place) : Nat → Tokens → Except Tokens (Unit × Tokens)
  | 0, ts => .error ts
  | fuel + 1, ts => do
    let (_, rest) ← if atWord "yield" ts then yieldExpr e p ts else expressionList e p ts
    let rest := if atSymbol "=" rest then rest.drop 1 else rest
    let rest := match lexeme? rest with
      | .conversion _ => rest.drop 1
      | _ => rest
    match lexeme? rest with
    | .fieldClose => .ok ((), rest.drop 1)
    | .fieldColon =>
      formatPieces (formatField e p fuel) (· == .fieldClose) rest.length (rest.drop 1)
    | _ => .error rest

/-- Whether a lexeme closes a format string. -/
def closesFormat : Lexeme → Bool
  | .formatClose _ => true
  | _ => false

/-- One string literal: its source text. -/
def stringPart (e : ExprReader) (p : Place) (ts : Tokens) : Except Tokens (String × Tokens) :=
  match lexeme? ts with
  | .string text => .ok (text, ts.drop 1)
  | .formatOpen _ => do
    let field := formatField e p.inside ts.length
    let ((), rest) ← formatPieces field closesFormat ts.length (ts.drop 1)
    .ok (Token.spelled ts rest, rest)
  | _ => .error ts

/-- Whether a string literal comes next. -/
def atString (ts : Tokens) : Bool :=
  match lexeme? ts with
  | .string _ | .formatOpen _ => true
  | _ => false

/-- One or more string literals next to each other. -/
def stringParts (e : ExprReader) (p : Place) : Nat → Tokens → Except Tokens (List String × Tokens)
  | 0, ts => .error ts
  | fuel + 1, ts => do
    let (part, rest) ← stringPart e p ts
    if atString (p.next rest) then
      let (parts, rest) ← stringParts e p fuel (p.next rest)
      .ok (part :: parts, rest)
    else .ok ([part], rest)

/-! ## Brackets -/

/-- An item of a list, a tuple or a set: a starred expression, `yield` or an expression. -/
def element (e : ExprReader) (p : Place) (ts : Tokens) : Except Tokens (Expr × Tokens) :=
  if atSymbol "*" ts then do
    let (x, rest) ← e p (ts.drop 1)
    let text := Token.spelled ts rest
    .ok (if x.isPlace then .splat text else .other text, rest)
  else if atWord "yield" ts then yieldExpr e p ts
  else e p ts

/-- Whether a clause of a comprehension comes next. -/
def atComprehension (ts : Tokens) : Bool :=
  atWord "for" ts || (atWord "async" ts && atWord "for" (ts.drop 1))

/-- Whether an item can no longer follow a comma in a clause of a comprehension. -/
def endsClause (ts : Tokens) : Bool := atExpressionEnd ts || atComprehension ts || atWord "if" ts

/-- The clauses of a comprehension, of which the first is a loop. `target` reads what a loop binds. -/
def comprehension (e : ExprReader) (target : Tokens → Except Tokens (Expr × Tokens)) (p : Place) :
    Nat → Tokens → Except Tokens (Unit × Tokens)
  | 0, ts => .error ts
  | fuel + 1, ts =>
    if atComprehension ts then do
      let rest := if atWord "async" ts then ts.drop 2 else ts.drop 1
      let (_, rest) ← commaList target (atWord "in") id rest.length rest
      let ((), rest) ← word "in" rest
      let (_, rest) ← commaList (e p.inClause) endsClause id rest.length rest
      comprehension e target p fuel rest
    else if atWord "if" ts then do
      let (_, rest) ← e p.inClause (ts.drop 1)
      comprehension e target p fuel rest
    else .ok ((), ts)

/-- What is read besides expressions inside brackets: the targets that loops bind. -/
structure Readers where
  /-- Complete expressions. -/
  expression : ExprReader
  /-- Places that a loop can bind. -/
  target : Place → Tokens → Except Tokens (Expr × Tokens)

namespace Readers

/-- The clauses of a comprehension and its closing bracket. -/
def clauses (r : Readers) (p : Place) (close : String) (ts : Tokens) :
    Except Tokens (Unit × Tokens) := do
  let ((), rest) ← comprehension r.expression (r.target p) p ts.length ts
  symbol close rest

/-- What opens with a round bracket: a tuple, an expression in brackets or a generator. -/
def round (r : Readers) (p : Place) (ts : Tokens) : Except Tokens (Expr × Tokens) := do
  let p := p.inside
  let ((), inner) ← symbol "(" ts
  if atSymbol ")" inner then .ok (.tuple (joinItems inner), inner.drop 1)
  else
    let (x, rest) ← element r.expression p inner
    if atComprehension rest then
      let ((), rest) ← r.clauses p ")" rest
      .ok (.other (Token.spelled ts rest), rest)
    else if atSymbol ")" rest then
      -- a joined line end comes first among what the brackets hold
      .ok (.group (((joinItems inner).head?).getD x), rest.drop 1)
    else if atSymbol "," rest then
      let here := joinItems inner ++ x :: joinItems rest
      let (xs, rest) ← bracketItems (element r.expression p) ")" rest.length (rest.drop 1)
      .ok (.tuple (here ++ xs), rest)
    else .error rest

/-- What opens with a square bracket: a list or a comprehension. -/
def square (r : Readers) (p : Place) (ts : Tokens) : Except Tokens (Expr × Tokens) := do
  let p := p.inside
  let ((), inner) ← symbol "[" ts
  if atSymbol "]" inner then .ok (.list (joinItems inner), inner.drop 1)
  else
    let (x, rest) ← element r.expression p inner
    if atComprehension rest then
      let ((), rest) ← r.clauses p "]" rest
      .ok (.other (Token.spelled ts rest), rest)
    else
      let here := joinItems inner ++ x :: joinItems rest
      if atSymbol "]" rest then .ok (.list here, rest.drop 1)
      else if atSymbol "," rest then
        let (xs, rest) ← bracketItems (element r.expression p) "]" rest.length (rest.drop 1)
        .ok (.list (here ++ xs), rest)
      else .error rest

/-- An entry of a dictionary: a key with its value, or another dictionary spread out. -/
def entry (r : Readers) (p : Place) (ts : Tokens) : Except Tokens (Expr × Tokens) :=
  if atSymbol "**" ts then r.expression p (ts.drop 1)
  else do
    let (_, rest) ← r.expression p ts
    let ((), rest) ← symbol ":" rest
    r.expression p rest

/-- What opens with a brace: a dictionary, a set or a comprehension of either. -/
def curly (r : Readers) (p : Place) (ts : Tokens) : Except Tokens (Expr × Tokens) := do
  let p := p.inside
  let ((), inner) ← symbol "\x7b" ts
  let whole (rest : Tokens) : Expr := .other (Token.spelled ts rest)
  if atSymbol "\x7d" inner then .ok (whole (inner.drop 1), inner.drop 1)
  else if atSymbol "," inner then
    let ((), rest) ← symbol "\x7d" (inner.drop 1)
    .ok (whole rest, rest)
  else
    let (isEntry, rest) ←
      if atSymbol "**" inner then do
        let (_, rest) ← r.entry p inner
        pure (true, rest)
      else do
        let (_, rest) ← element r.expression p inner
        if atSymbol ":" rest then
          let (_, rest) ← r.expression p (rest.drop 1)
          pure (true, rest)
        else pure (false, rest)
    if atComprehension rest then
      let ((), rest) ← r.clauses p "\x7d" rest
      .ok (whole rest, rest)
    else if atSymbol "\x7d" rest then .ok (whole (rest.drop 1), rest.drop 1)
    else if atSymbol "," rest then
      let item := if isEntry then r.entry p else element r.expression p
      let (_, rest) ← bracketItems item "\x7d" rest.length (rest.drop 1)
      .ok (whole rest, rest)
    else .error rest

/-! ## Calls and subscripts -/

/-- The words that cannot name a keyword argument because they open expressions. -/
def reservedInCalls : List String := ["not", "lambda", "None", "True", "False"]

/-- An argument of a call. -/
def argument (r : Readers) (p : Place) (ts : Tokens) : Except Tokens (Expr × Tokens) :=
  match lexeme? ts with
  | .symbol "**" => do
    let (_, rest) ← r.expression p (ts.drop 1)
    .ok (.other (Token.spelled ts rest), rest)
  | .symbol "*" => do
    let (_, rest) ← r.expression p (ts.drop 1)
    .ok (.other (Token.spelled ts rest), rest)
  | .word name =>
    if atSymbol "=" (ts.drop 1) && !(name ∈ reservedInCalls) then do
      let (value, rest) ← r.expression p (ts.drop 2)
      .ok (.keyword name value, rest)
    else r.expression p ts
  | _ => r.expression p ts

/-- The arguments of a call from their opening bracket on: the call itself is put together by
`arguments`, or by `generator` if a generator without brackets of its own is the only argument. -/
def arguments (r : Readers) (p : Place) (callee : Expr) (ts : Tokens) :
    Except Tokens (Expr × Tokens) := do
  let p := p.inside
  let ((), inner) ← symbol "(" ts
  if atSymbol "," inner then
    let ((), rest) ← symbol ")" (inner.drop 1)
    .ok (.call callee (joinItems inner ++ joinItems (inner.drop 1)), rest)
  else if atSymbol ")" inner then .ok (.call callee (joinItems inner), inner.drop 1)
  else
    let (x, rest) ← r.argument p inner
    if atComprehension rest then
      let ((), rest) ← r.clauses p ")" rest
      .ok (.generatorCall callee (Token.spelled ts rest), rest)
    else
      let here := joinItems inner ++ x :: joinItems rest
      if atSymbol ")" rest then .ok (.call callee here, rest.drop 1)
      else if atSymbol "," rest then
        let (xs, rest) ← bracketItems (r.argument p) ")" rest.length (rest.drop 1)
        .ok (.call callee (here ++ xs), rest)
      else .error rest

/-- An expression where one may be absent. -/
def optional (r : Readers) (p : Place) (ts : Tokens) : Except Tokens (Unit × Tokens) :=
  if atExpressionEnd ts then .ok ((), ts) else do
    let (_, rest) ← r.expression p ts
    .ok ((), rest)

/-- An index or a slice. -/
def index (r : Readers) (p : Place) (ts : Tokens) : Except Tokens (Expr × Tokens) := do
  let (x, rest) ←
    if atSymbol ":" ts then pure (Expr.other "", ts) else r.expression p ts
  if atSymbol ":" rest then
    let ((), rest) ← r.optional p (rest.drop 1)
    if atSymbol ":" rest then
      let ((), rest) ← r.optional p (rest.drop 1)
      .ok (.other "", rest)
    else .ok (.other "", rest)
  else .ok (x, rest)

/-- The indices of a subscript from the opening bracket on. -/
def indices (r : Readers) (p : Place) (ts : Tokens) : Except Tokens (Unit × Tokens) := do
  let p := p.inside
  let ((), inner) ← symbol "[" ts
  let (_, rest) ← commaList (r.index p) (atSymbol "]") id inner.length inner
  symbol "]" rest

/-! ## Operands -/

/-- An operand without anything after it. -/
def atom (r : Readers) (p : Place) (ts : Tokens) : Except Tokens (Expr × Tokens) :=
  match lexeme? ts with
  | .word "None" => .ok (.none, ts.drop 1)
  | .word "True" => .ok (.truth true, ts.drop 1)
  | .word "False" => .ok (.truth false, ts.drop 1)
  | .word text => .ok (.name text, ts.drop 1)
  | .integer text => .ok (.integer text, ts.drop 1)
  | .float text => .ok (.float text, ts.drop 1)
  | .string _ | .formatOpen _ => do
    let (parts, rest) ← stringParts r.expression p ts.length ts
    .ok (.string parts (Token.spelled ts rest), rest)
  | .symbol "..." => .ok (.other "...", ts.drop 1)
  | .symbol "(" => r.round p ts
  | .symbol "[" => r.square p ts
  | .symbol "\x7b" => r.curly p ts
  | _ => .error ts

/-- Attributes, calls and subscripts after an operand that starts at `origin`. -/
def trailers (r : Readers) (p : Place) (origin : Tokens) :
    Nat → Expr → Tokens → Except Tokens (Expr × Tokens)
  | 0, _, ts => .error ts
  | fuel + 1, x, ts =>
    match lexeme? (p.next ts) with
    | .symbol "." => do
      let (name, rest) ← identifier (p.start ((p.next ts).drop 1))
      trailers r p origin fuel (.attribute x name) rest
    | .symbol "(" => do
      let (call, rest) ← r.arguments p x (p.next ts)
      trailers r p origin fuel call rest
    | .symbol "[" => do
      let ((), rest) ← r.indices p (p.next ts)
      trailers r p origin fuel (.subscript (Token.spelled origin rest)) rest
    | _ => .ok (x, ts)

/-- An operand with its attributes, calls and subscripts. -/
def postfixed (r : Readers) (p : Place) (ts : Tokens) : Except Tokens (Expr × Tokens) := do
  let (x, rest) ← r.atom p ts
  r.trailers p ts (ts.length + 1) x rest

/-- The words that cannot start an operand after `await`, which then is a name itself. -/
def operatorWords : List String := ["and", "or", "if", "else", "in", "is", "not", "as", "for"]

/-- Whether an operand can start here. -/
def atOperand (ts : Tokens) : Bool :=
  match lexeme? ts with
  | .word text => !(text ∈ operatorWords)
  | .integer _ | .float _ | .string _ | .formatOpen _ => true
  | .symbol mark => mark ∈ ["(", "[", "\x7b", "-", "+", "~", "*", "..."]
  | _ => false

/-- An operand with the signs, the star or the `await` before it. -/
def primary (r : Readers) (p : Place) : Nat → Tokens → Except Tokens (Expr × Tokens)
  | 0, ts => .error ts
  | fuel + 1, ts =>
    let ts := p.start ts
    let signed (mark : String) : Except Tokens (Expr × Tokens) := do
      let (x, rest) ← primary r p fuel (ts.drop 1)
      .ok (.unary mark x (Token.spelled ts rest), rest)
    match lexeme? ts with
    | .symbol "+" => signed "+"
    | .symbol "-" => signed "-"
    | .symbol "~" => signed "~"
    | .symbol "*" => do
      let (x, rest) ← r.postfixed p (p.start (ts.drop 1))
      let text := Token.spelled ts rest
      .ok (if x.isPlace then .splat text else .other text, rest)
    | .word "await" =>
      if atOperand (ts.drop 1) then do
        let (_, rest) ← primary r p fuel (ts.drop 1)
        .ok (.other (Token.spelled ts rest), rest)
      else r.postfixed p ts
    | _ => r.postfixed p ts

/-! ## Chains of operators -/

/-- The operators between operands that are symbols. -/
def operatorSymbols : List String :=
  ["<", "<=", "==", "!=", ">=", ">", "<>", "+", "-", "*", "@", "/", "%", "//", "**", "|", "&", "^",
    "<<", ">>"]

/-- The tokens after an operator between operands, if one comes next. -/
def afterOperator (ts : Tokens) : Option Tokens :=
  match lexeme? ts with
  | .symbol mark => if mark ∈ operatorSymbols then some (ts.drop 1) else none
  | .word "in" => some (ts.drop 1)
  | .word "not" => if atWord "in" (ts.drop 1) then some (ts.drop 2) else none
  | .word "is" => if atWord "not" (ts.drop 1) then some (ts.drop 2) else some (ts.drop 1)
  | _ => none

/-- The operators and operands after an operand. -/
def chain (r : Readers) (p : Place) : Nat → Tokens → Except Tokens (Unit × Tokens)
  | 0, ts => .error ts
  | fuel + 1, ts =>
    match afterOperator (p.next ts) with
    | none => .ok ((), ts)
    | some rest => do
      let (_, rest) ← r.primary p (rest.length + 1) rest
      chain r p fuel rest

/-- Keeps an expression if nothing followed it, and its whole text otherwise. -/
def whole (origin : Tokens) (x : Expr) (before after : Tokens) : Expr :=
  if after.length = before.length then x else .other (Token.spelled origin after)

/-- A parameter of a `lambda`: a name or a starred name, perhaps with a default. -/
def lambdaParam (r : Readers) (p : Place) (ts : Tokens) : Except Tokens (Unit × Tokens) :=
  match lexeme? ts with
  | .symbol "/" => .ok ((), ts.drop 1)
  | .symbol "*" =>
    if atSymbol "," (ts.drop 1) || atSymbol ":" (ts.drop 1) then .ok ((), ts.drop 1)
    else do
      let (_, rest) ← r.postfixed p (ts.drop 1)
      .ok ((), rest)
  | .symbol "**" => do
    let (_, rest) ← r.postfixed p (ts.drop 1)
    .ok ((), rest)
  | .symbol "(" => do
    let (x, rest) ← r.round p ts
    if !x.isTarget then .error ts
    else if atSymbol "=" rest then
      let (_, rest) ← r.expression p (rest.drop 1)
      .ok ((), rest)
    else .ok ((), rest)
  | .word _ =>
    if atSymbol "=" (ts.drop 1) then do
      let (_, rest) ← r.expression p (ts.drop 2)
      .ok ((), rest)
    else .ok ((), ts.drop 1)
  | _ => .error ts

/-- A part of an expression between the connecting words: a negation, a `lambda`, a named expression
or a chain of operators. -/
def part (r : Readers) (p : Place) : Nat → Tokens → Except Tokens (Expr × Tokens)
  | 0, ts => .error ts
  | fuel + 1, ts =>
    let ts := p.start ts
    match lexeme? ts with
    | .word "not" => do
      let (_, rest) ← part r p fuel (ts.drop 1)
      .ok (.other (Token.spelled ts rest), rest)
    | .word "lambda" => do
      let rest := p.start (ts.drop 1)
      let ((), rest) ←
        if atSymbol ":" rest then pure ((), rest)
        else do
          let (_, rest) ← commaList (r.lambdaParam p) (atSymbol ":") p.start rest.length rest
          pure ((), p.start rest)
      let ((), rest) ← symbol ":" rest
      let (_, rest) ← r.expression p rest
      .ok (.other (Token.spelled ts rest), rest)
    | lexeme =>
      let named := match lexeme with
        | .word _ => atSymbol ":=" (ts.drop 1)
        | _ => false
      if named then do
        let (_, rest) ← r.expression p (ts.drop 2)
        .ok (.other (Token.spelled ts rest), rest)
      else do
        let (x, rest) ← r.primary p (ts.length + 1) ts
        let ((), after) ← r.chain p (ts.length + 1) rest
        .ok (whole ts x rest after, after)

/-- The connecting words and the parts after a part. -/
def connected (r : Readers) (p : Place) : Nat → Tokens → Except Tokens (Unit × Tokens)
  | 0, ts => .error ts
  | fuel + 1, ts =>
    let here := p.next ts
    match lexeme? here with
    | .word "and" | .word "or" | .word "as" => do
      let (_, rest) ← r.part p (here.length + 1) (here.drop 1)
      connected r p fuel rest
    | .word "if" =>
      if p.conditional then do
        let (_, rest) ← r.expression { p with endsLine := false } (here.drop 1)
        let ((), rest) ← word "else" (p.start rest)
        let (_, rest) ← r.part p (rest.length + 1) rest
        connected r p fuel rest
      else .ok ((), ts)
    | _ => .ok ((), ts)

/-- A complete expression, given the readers of what it holds. -/
def complete (r : Readers) (p : Place) (ts : Tokens) : Except Tokens (Expr × Tokens) := do
  let ts := p.start ts
  let (x, rest) ← r.part p (ts.length + 1) ts
  let ((), after) ← r.connected p (ts.length + 1) rest
  .ok (whole ts x rest after, after)

/-- A place that can be bound: a name, an attribute, a subscript, a starred one of these, or a tuple
or list of such places. -/
def bindable (r : Readers) (p : Place) (ts : Tokens) : Except Tokens (Expr × Tokens) := do
  let ts := p.start ts
  let (x, rest) ←
    if atSymbol "*" ts then do
      let (x, rest) ← r.postfixed p (p.start (ts.drop 1))
      if x.isPlace then pure (Expr.splat (Token.spelled ts rest), rest) else .error ts
    else r.postfixed p ts
  if x.isTarget then .ok (x, rest) else .error ts

end Readers

/-! ## Closing the circle -/

/-- The readers of expressions and targets, nested at most `depth` deep. -/
def readers : Nat → Readers
  | 0 => ⟨fun _ ts => .error ts, fun _ ts => .error ts⟩
  | depth + 1 =>
    ⟨fun p ts => (readers depth).complete p ts, fun p ts => (readers depth).bindable p ts⟩

/-- Readers that are nested deep enough for a list of tokens: every level takes a token. -/
def readersFor (ts : Tokens) : Readers := readers (ts.length + 1)

/-- An expression. -/
def expression (p : Place) (ts : Tokens) : Except Tokens (Expr × Tokens) :=
  (readersFor ts).expression p ts

/-- A place that an assignment or a loop can bind. -/
def target (p : Place) (ts : Tokens) : Except Tokens (Expr × Tokens) := (readersFor ts).target p ts

end ClassCli.Source
