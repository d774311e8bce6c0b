import ClassCli.Text.Basic

/-!
# Characters of YAML

Lines end at a line feed, a carriage return, both, or one of three other separators. The first ones
count as a line feed when they are part of a text; the separators of lines and paragraphs stay what
they are.
-/

namespace ClassCli.Yaml

/-- Whether a character ends a line. -/
def isBreak (c : Char) : Bool :=
  c == '\n' || c == '\r' || c == '\u0085' || c == '\u2028' || c == '\u2029'

/-- A space or a tab. -/
def isSpacing (c : Char) : Bool := c == ' ' || c == '\t'

/-- Whether a text ends here or goes on with a space, a tab or a line end. -/
def endsWord : List Char → Bool
  | [] => true
  | c :: _ => isSpacing c || isBreak c

/-- Whether a text may contain a character at all. -/
def isAllowed (c : Char) : Bool :=
  let n := c.toNat
  n == 9 || n == 10 || n == 13 || (0x20 ≤ n && n ≤ 0x7e) || n == 0x85 || (0xa0 ≤ n && n ≤ 0xd7ff)
    || (0xe000 ≤ n && n ≤ 0xfffd) || 0x10000 ≤ n

/-- Whether a character is written as it is. -/
def isPlainlyWritten (c : Char) : Bool :=
  let n := c.toNat
  n == 10 || (0x20 ≤ n && n ≤ 0x7e) || (0xa0 ≤ n && n ≤ 0xd7ff)
    || (0xe000 ≤ n && n ≤ 0xfffd && n != 0xfeff) || 0x10000 ≤ n

/-- A letter or digit of ASCII, a hyphen or an underscore. -/
def isNameChar (c : Char) : Bool := c.isAlphanum || c == '-' || c == '_'

/-- Whether a text starts with three equal characters and then ends or goes on with a space. -/
def startsTriple (c : Char) : List Char → Bool
  | a :: b :: d :: rest => a == c && b == c && d == c && endsWord rest
  | _ => false

/-- Whether a line starts or ends a document. -/
def startsMark (s : List Char) : Bool := startsTriple '-' s || startsTriple '.' s

end ClassCli.Yaml
