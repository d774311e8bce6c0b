import ClassCli.Source.ExprReading

/-!
# Reading the patterns of cases

A pattern leaves nothing behind but the tokens after it.

* **`pattern`** — the pattern of a case.
-/

namespace ClassCli.Source

/-- A reader of patterns. -/
abbrev PatternReader := Tokens → Except Tokens (Unit × Tokens)

/-- Patterns with commas between them up to a closing bracket. -/
def patternItems (item : PatternReader) (close : String) : Nat → PatternReader
  | 0, ts => .error ts
  | fuel + 1, ts =>
    if atSymbol close ts then .ok ((), ts.drop 1)
    else do
      let ((), rest) ← item ts
      if atSymbol "," rest then patternItems item close fuel (rest.drop 1)
      else symbol close rest

/-- A starred name. -/
def starPattern : PatternReader := fun ts => do
  let (_, rest) ← identifier (ts.drop 1)
  .ok ((), rest)

/-- A number with or without a sign, or the sum of two as complex numbers are written. -/
def numberPattern : PatternReader := fun ts =>
  let number (ts : Tokens) : Except Tokens (Unit × Tokens) :=
    match lexeme? ts with
    | .integer _ | .float _ => .ok ((), ts.drop 1)
    | _ => .error ts
  do
    let ((), rest) ← number (if atSymbol "-" ts then ts.drop 1 else ts)
    if atSymbol "+" rest || atSymbol "-" rest then number (rest.drop 1) else .ok ((), rest)

/-- A dotted name. -/
def dottedPattern : Nat → PatternReader
  | 0, ts => .error ts
  | fuel + 1, ts => do
    let (_, rest) ← identifier ts
    if atSymbol "." rest then dottedPattern fuel (rest.drop 1) else .ok ((), rest)

/-- A pattern without alternatives; `inner` reads complete patterns. -/
def simplePattern (p : Place) (inner : PatternReader) : PatternReader := fun ts =>
  match lexeme? ts with
  | .symbol "*" | .symbol "**" => starPattern ts
  | .symbol "[" => patternItems inner "]" ts.length (ts.drop 1)
  | .symbol "(" => patternItems inner ")" ts.length (ts.drop 1)
  | .symbol "-" | .integer _ | .float _ => numberPattern ts
  | .string _ | .formatOpen _ => do
    let (_, rest) ← stringParts (readersFor ts).expression p ts.length ts
    .ok ((), rest)
  | .word _ => do
    let ((), rest) ← dottedPattern ts.length ts
    if atSymbol "(" rest then patternItems inner ")" rest.length (rest.drop 1)
    else .ok ((), rest)
  | _ => .error ts

/-- An entry of a dictionary pattern. -/
def entryPattern (p : Place) (inner : PatternReader) : PatternReader := fun ts =>
  if atSymbol "**" ts || atSymbol "*" ts then starPattern ts
  else do
    let ((), rest) ← simplePattern p inner ts
    let ((), rest) ← symbol ":" rest
    inner rest

/-- A simple pattern or a dictionary pattern. -/
def closedPattern (p : Place) (inner : PatternReader) : PatternReader := fun ts =>
  if atSymbol "\x7b" ts then
    patternItems (entryPattern p inner) "\x7d" ts.length (ts.drop 1)
  else simplePattern p inner ts

/-- Further alternatives of a pattern. -/
def alternatives (p : Place) (inner : PatternReader) : Nat → PatternReader
  | 0, ts => .error ts
  | fuel + 1, ts =>
    if atSymbol "|" ts then do
      let ((), rest) ← closedPattern p inner (ts.drop 1)
      alternatives p inner fuel rest
    else .ok ((), ts)

/-- A pattern with the names it is bound to. -/
def namedPattern (p : Place) (inner : PatternReader) : PatternReader := fun ts => do
  let keyword := match lexeme? ts with
    | .word _ => atSymbol "=" (ts.drop 1)
    | _ => false
  let ts := if keyword then ts.drop 2 else ts
  let ((), rest) ← closedPattern p inner ts
  let ((), rest) ← alternatives p inner rest.length rest
  if atWord "as" rest then
    let (_, rest) ← identifier (rest.drop 1)
    .ok ((), rest)
  else .ok ((), rest)

/-- Patterns nested at most `depth` deep. -/
def patternTo (p : Place) : Nat → PatternReader
  | 0, ts => .error ts
  | depth + 1, ts => namedPattern p (patternTo p depth) ts

/-- The pattern of a case. -/
def pattern (p : Place) (ts : Tokens) : Except Tokens (Unit × Tokens) :=
  patternTo p (ts.length + 1) (p.start ts)

end ClassCli.Source
