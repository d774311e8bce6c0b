/-!
# Tokens of Python source

A source text is a sequence of lexemes with gaps between them. A gap is white space, comments and
joined line ends; each token carries the gap before it, so that the text of any stretch of tokens
can be put together again.

* **`Token.spelling`** — the source text of a stretch of tokens, without the gap before the first.
-/

namespace ClassCli.Source

/-- A piece of source text. A format string comes in pieces: its opening quotes, runs of text,
replacement fields with the tokens of their expressions, and its closing quotes. -/
inductive Lexeme where
  /-- An identifier or a keyword; which of the two it is depends on where it stands. -/
  | word (text : String)
  | integer (text : String)
  | float (text : String)
  /-- A whole string literal other than a format string. -/
  | string (text : String)
  | formatOpen (text : String)
  | formatText (text : String)
  | formatClose (text : String)
  /-- The brace that opens a replacement field. -/
  | fieldOpen
  /-- A conversion such as `!r` in a replacement field. -/
  | conversion (text : String)
  /-- The colon before the format specification of a replacement field. -/
  | fieldColon
  /-- The brace that closes a replacement field. -/
  | fieldClose
  /-- An operator, a bracket or a delimiter. -/
  | symbol (text : String)
  /-- The end of a line outside brackets, with the indentation of the next line that holds
  anything. It has no text of its own. -/
  | lineBreak (indent : Nat)
  /-- The end of the input. -/
  | finish
  /-- Text that is no lexeme at all. -/
  | stray (text : String)
  deriving DecidableEq, Repr, Inhabited

/-- The source text of a lexeme. -/
def Lexeme.text : Lexeme → String
  | .word s | .integer s | .float s | .string s | .formatOpen s | .formatText s | .formatClose s
  | .conversion s | .symbol s | .stray s => s
  | .fieldOpen => "\x7b"
  | .fieldColon => ":"
  | .fieldClose => "\x7d"
  | .lineBreak _ | .finish => ""

/-- A lexeme with the gap before it. -/
structure Token where
  lexeme : Lexeme
  /-- White space, comments and joined line ends before the lexeme. -/
  gap : String
  /-- The joined line ends in the gap, none of them before a string. -/
  joins : List String
  /-- The line on which the lexeme starts, counted from one. -/
  line : Nat
  deriving DecidableEq, Repr, Inhabited

namespace Token

/-- The source text of a token and of the gap before it. -/
def written (t : Token) : String := t.gap ++ t.lexeme.text

/-- The texts of tokens and of their gaps, one after the other. -/
def writtenAll (ts : List Token) : String := String.join (ts.map written)

/-- The source text of a stretch of tokens, without the gap before the first. -/
def spelling : List Token → String
  | [] => ""
  | t :: ts => t.lexeme.text ++ writtenAll ts

/-- The tokens that were read, given what is left of the list. -/
def consumed (before after : List Token) : List Token :=
  before.take (before.length - after.length)

/-- The source text of the tokens that were read. -/
def spelled (before after : List Token) : String := spelling (consumed before after)

end Token

end ClassCli.Source
