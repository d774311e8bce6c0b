import ClassCli.Yaml.Character
import ClassCli.Yaml.Resolution

/-!
# Styles of scalars

A text is written without quotes if it then still reads as this text. Otherwise it stands between
single quotes, or between double quotes if it has characters that must be escaped. A text of several
lines is written line by line where that is possible.

* **`Style.of`** — the style of a text.
-/

namespace ClassCli.Yaml

/-- How a text is written. -/
inductive Style where
  | plain
  | singleQuoted
  | doubleQuoted
  /-- Line by line, indented. -/
  | literal
  deriving DecidableEq, Repr, Inhabited

/-- The characters that a plain scalar cannot start with. -/
def openingIndicators : List Char :=
  [',', '[', ']', '\x7b', '\x7d', '#', '&', '*', '!', '|', '>', '\x27', '\x22', '%', '@', '\x60']

/-- Whether the first character, with what follows it, has a meaning of its own. -/
def opensIndicator : List Char → Bool
  | [] => false
  | c :: rest =>
    openingIndicators.contains c || ((c == '?' || c == ':' || c == '-') && endsWord rest)

/-- Whether a colon at the end of a word or a number sign at its start stands somewhere in a text;
`spaced` says whether it is at the start of a word. -/
def holdsIndicator : Bool → List Char → Bool
  | _, [] => false
  | spaced, c :: rest =>
    (c == ':' && endsWord rest) || (c == '#' && spaced) || holdsIndicator (endsWord [c]) rest

/-- Whether a text has a character or a mark that has a meaning of its own. -/
def hasIndicator (s : List Char) : Bool :=
  s.take 3 == ['-', '-', '-'] || s.take 3 == ['.', '.', '.'] || opensIndicator s
    || match s with
      | [] => false
      | c :: rest => holdsIndicator (endsWord [c]) rest

/-- Whether two characters that satisfy two tests stand next to each other. -/
def hasPair (first second : Char → Bool) : List Char → Bool
  | a :: b :: rest => (first a && second b) || hasPair first second (b :: rest)
  | _ => false

/-- Whether the first or the last character satisfies a test. -/
def atEdge (test : Char → Bool) (s : List Char) : Bool :=
  (s.head?.map test).getD false || (s.getLast?.map test).getD false

/-- Whether a text spans lines. -/
def isMultiline (s : List Char) : Bool := s.any isBreak

/-- Whether a text has to be escaped: it has an unusual character or a space before a line end. -/
def needsEscapes (s : List Char) : Bool :=
  s.any (!isPlainlyWritten ·) || hasPair (· == ' ') isBreak s

/-- Whether a text can stand without quotes. -/
def allowsPlain (s : List Char) : Bool :=
  !needsEscapes s && !isMultiline s && !atEdge (· == ' ') s && !hasIndicator s

/-- Whether a text can stand between single quotes. -/
def allowsSingle (s : List Char) : Bool := !needsEscapes s && !hasPair isBreak (· == ' ') s

/-- Whether a text can be written line by line. -/
def allowsLiteral (s : List Char) : Bool :=
  !s.isEmpty && !needsEscapes s && s.getLast? != some ' '

/-- The style of a text. -/
def Style.of (text : String) : Style :=
  let s := text.toList
  if s.contains '\n' then if allowsLiteral s then .literal else .doubleQuoted
  else if (resolve text).isText && !isZeroPadded s && allowsPlain s then .plain
  else if allowsSingle s then .singleQuoted
  else .doubleQuoted

end ClassCli.Yaml
