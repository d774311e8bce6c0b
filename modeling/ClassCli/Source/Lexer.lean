import ClassCli.Source.Token
import ClassCli.Source.Gap
import ClassCli.Source.Number
import ClassCli.Text.Identifier

/-!
# Splitting source text into tokens

The text is read from left to right by the longest match. What a character means depends on what is
open around it: brackets, format strings, replacement fields and format specifications nest in each
other. Line ends count outside brackets only.

* **`Lexer.tokens`** — the tokens of a source text; the last one is `Lexeme.finish`.
-/

namespace ClassCli.Source.Lexer

open Text

/-! ## Strings -/

/-- How a string is delimited and read. -/
structure Quoting where
  /-- The quote character. -/
  quote : Char
  /-- Whether three quotes delimit the string. -/
  triple : Bool
  /-- Whether a backslash stands for itself. -/
  raw : Bool
  deriving DecidableEq, Repr

/-- The letters that may stand before a string. -/
def isMarker (c : Char) : Bool := c ∈ ['f', 'F', 'r', 'R', 'b', 'B', 'u', 'U']

/-- The quote characters. -/
def isQuote (c : Char) : Bool := c ∈ ['\x22', '\x27', '\x60']

/-- The quotes that delimit a string. -/
def Quoting.marks (q : Quoting) : List Char := List.replicate (if q.triple then 3 else 1) q.quote

/-- The opening of a string at the front of a text: the letters before it, how it is quoted, and
what follows. -/
def opening (s : List Char) : Option (List Char × Quoting × List Char) :=
  let (letters, rest) := cut (!isMarker ·) s
  match rest with
  | [] => none
  | quote :: rest =>
    if !isQuote quote then none else
      let raw := letters.any (fun c => c = 'r' || c = 'R')
      match rest with
      | second :: third :: after =>
        if second = quote && third = quote && quote != '\x60' then
          some (letters, ⟨quote, true, raw⟩, after)
        else some (letters, ⟨quote, false, raw⟩, rest)
      | _ => some (letters, ⟨quote, false, raw⟩, rest)

/-- The two characters of an escape, if a backslash and the character after it belong together. -/
def pairs (q : Quoting) (c : Char) : Bool :=
  if q.raw then c = q.quote || c = '\\' || c = '\n' else c != '\x60'

/-- The text of a string up to and including its closing quotes. A line end inside single quotes is
taken only where a run of text starts, which is what `fresh` says. -/
def body (q : Quoting) : Bool → List Char → Option (List Char × List Char)
  | _, [] => none
  | fresh, c :: rest =>
    if c = '\x00' then none
    else if c = '\\' then
      match rest with
      | '\r' :: '\n' :: after =>
        (body q true after).map fun (text, after) => (c :: '\r' :: '\n' :: text, after)
      | next :: after =>
        if pairs q next then (body q true after).map fun (text, after) => (c :: next :: text, after)
        else (body q true (next :: after)).map fun (text, after) => (c :: text, after)
      | [] => none
    else if startsWith q.marks (c :: rest) then
      some (q.marks, (c :: rest).drop q.marks.length)
    else if c = '\n' && !q.triple && !fresh then none
    else (body q false rest).map fun (text, after) => (c :: text, after)

/-- The text of a format string up to the next replacement field, lone brace or closing quotes, or
up to a place where it breaks off. -/
def formatRun (q : Quoting) : Bool → List Char → List Char × List Char
  | _, [] => ([], [])
  | fresh, c :: rest =>
    if c = '\x00' then ([], c :: rest)
    else if c = '\x7b' || c = '\x7d' then
      match rest with
      | next :: after =>
        if next = c then
          let (text, after) := formatRun q true after
          (c :: c :: text, after)
        else ([], c :: rest)
      | [] => ([], c :: rest)
    else if c = '\\' then
      match rest with
      | '\r' :: '\n' :: after =>
        let (text, after) := formatRun q true after
        (c :: '\r' :: '\n' :: text, after)
      | next :: after =>
        if pairs q next && next != '\x7b' && next != '\x7d' then
          let (text, after) := formatRun q true after
          (c :: next :: text, after)
        else
          let (text, after) := formatRun q true (next :: after)
          (c :: text, after)
      | [] => ([], c :: rest)
    else if startsWith q.marks (c :: rest) then ([], c :: rest)
    else if c = '\n' && !q.triple && !fresh then ([], c :: rest)
    else
      let (text, after) := formatRun q false rest
      (c :: text, after)

/-! ## Symbols -/

/-- The operators and delimiters, longer ones before their own beginnings. -/
def symbols : List String :=
  ["...", "**=", "//=", ">>=", "<<=", "->", ":=", "==", "!=", "<=", ">=", "<>", "+=", "-=", "*=",
    "/=", "@=", "%=", "&=", "^=", "|=", "**", "//", "<<", ">>", "(", ")", "[", "]", "\x7b", "\x7d",
    ",", ":", ".", ";", "@", "=", "+", "-", "*", "/", "%", "&", "|", "^", "~", "<", ">"]

/-- The longest symbol at the front of a text. -/
def symbol? (s : List Char) : Option String := symbols.find? fun mark => startsWith mark.toList s

/-! ## Nesting -/

/-- What is open around a place in the text. -/
inductive Nesting where
  | bracket
  /-- A replacement field of a format string. -/
  | field
  /-- The format specification of a replacement field. -/
  | specification
  /-- The text of a format string. -/
  | text (quoting : Quoting)
  deriving DecidableEq, Repr

/-- One lexeme with what is open after it and the rest of the text. -/
structure Step where
  lexeme : Lexeme
  nesting : List Nesting
  rest : List Char

/-- Gives up on a text: all of it is stray. -/
def giveUp (s : List Char) : Step := ⟨.stray (String.ofList s), [], []⟩

/-- The next piece of a format string. -/
def textStep (q : Quoting) (outer : List Nesting) (s : List Char) : Step :=
  match formatRun q true s with
  | ([], rest) =>
    match rest with
    | [] => giveUp s
    | c :: after =>
      if startsWith q.marks rest then
        ⟨.formatClose (String.ofList q.marks), outer, rest.drop q.marks.length⟩
      else if c = '\x7b' then ⟨.fieldOpen, .field :: .text q :: outer, after⟩
      else giveUp s
  | (_, '\n' :: _) => giveUp s
  | (run, rest) => ⟨.formatText (String.ofList run), .text q :: outer, rest⟩

/-- The next piece of a format specification. -/
def specificationStep (outer : List Nesting) (s : List Char) : Step :=
  match cut (fun c => c ∈ ['\x7b', '\x7d', '\n', '\x00']) s with
  | ([], '\x7b' :: rest) => ⟨.fieldOpen, .field :: .specification :: outer, rest⟩
  | ([], '\x7d' :: rest) => ⟨.fieldClose, outer.drop 1, rest⟩
  | ([], _) => giveUp s
  | (run, rest) => ⟨.formatText (String.ofList run), .specification :: outer, rest⟩

/-- The lexeme at the front of a text in which code stands. -/
def codeStep (nesting : List Nesting) (s : List Char) : Step :=
  match opening s with
  | some (letters, q, rest) =>
    let start := letters ++ q.marks
    if letters.any (fun c => c = 'f' || c = 'F') then
      ⟨.formatOpen (String.ofList start), .text q :: nesting, rest⟩
    else
      match body q true rest with
      | some (text, rest) => ⟨.string (String.ofList (start ++ text)), nesting, rest⟩
      | none => giveUp s
  | none =>
    match s, nesting with
    | '\x7d' :: rest, .field :: outer => ⟨.fieldClose, outer, rest⟩
    | ':' :: rest, .field :: outer => ⟨.fieldColon, .specification :: .field :: outer, rest⟩
    | _, _ =>
      match Number.split s with
      | some (.integer, text, rest) => ⟨.integer (String.ofList text), nesting, rest⟩
      | some (.float, text, rest) => ⟨.float (String.ofList text), nesting, rest⟩
      | none =>
        match s with
        | [] => ⟨.finish, nesting, []⟩
        | c :: rest =>
          if isIdentifierStart c then
            let name := c :: rest.takeWhile isIdentifierPart
            ⟨.word (String.ofList name), nesting, rest.dropWhile isIdentifierPart⟩
          else match symbol? s with
            | some mark =>
              let nesting :=
                if mark ∈ ["(", "[", "\x7b"] then .bracket :: nesting
                else if mark ∈ [")", "]", "\x7d"] && nesting.head? == some .bracket then
                  nesting.drop 1
                else nesting
              ⟨.symbol mark, nesting, s.drop mark.length⟩
            | none =>
              match c, rest with
              | '!', kind :: after =>
                if nesting.head? == some .field && kind.isLower then
                  ⟨.conversion (String.ofList [c, kind]), nesting, after⟩
                else ⟨.stray (String.ofList [c]), nesting, rest⟩
              | _, _ => ⟨.stray (String.ofList [c]), nesting, rest⟩

/-! ## The whole text -/

/-- The number of line feeds in a text. -/
def lineFeeds (s : List Char) : Nat := s.count '\n'

/-- Whether a lexeme opens a string. Joined line ends before one leave no trace. -/
def opensString : Lexeme → Bool
  | .string _ | .formatOpen _ => true
  | _ => false

/-- The tokens of a text on whose front a gap may stand. Every round but the last takes at least one
character, so the length of the text bounds their number. -/
def tokensFrom : Nat → List Nesting → Nat → List Char → List Token
  | 0, _, line, _ => [⟨.finish, "", [], line⟩]
  | fuel + 1, nesting, line, s =>
    match nesting with
    | .text q :: outer =>
      let step := textStep q outer s
      ⟨step.lexeme, "", [], line⟩ ::
        tokensFrom fuel step.nesting (line + lineFeeds step.lexeme.text.toList) step.rest
    | .specification :: outer =>
      let step := specificationStep outer s
      ⟨step.lexeme, "", [], line⟩ ::
        tokensFrom fuel step.nesting (line + lineFeeds step.lexeme.text.toList) step.rest
    | _ =>
      let (gap, rest) := Gap.scan s
      let gap := if rest.isEmpty then gap.atEnd else gap
      let breaks :=
        if gap.crosses && nesting.isEmpty then [⟨.lineBreak gap.indent, "", [], line⟩] else []
      let start := line + lineFeeds gap.chars
      let step := codeStep nesting rest
      let joins := if opensString step.lexeme then [] else gap.joins.reverse
      let token : Token := ⟨step.lexeme, String.ofList gap.chars, joins, start⟩
      if rest.isEmpty then breaks ++ [token]
      else breaks ++ token ::
        tokensFrom fuel step.nesting (start + lineFeeds step.lexeme.text.toList) step.rest

/-- The tokens of a source text. -/
def tokens (source : String) : List Token :=
  tokensFrom (source.toList.length + 1) [] 1 source.toList

end ClassCli.Source.Lexer
