import ClassCli.Json.Value
import ClassCli.Literal
import ClassCli.Yaml.Style

/-!
# Writing YAML

Values are written in block style: every entry of an object and every item of an array on lines of
its own, with empty ones as brackets. The items of an array stand at the indentation of the name that
they belong to.

* **`document`** — the text of a value.
-/

namespace ClassCli.Yaml

open Decimal (Binary64)

/-! ## Scalars -/

/-- The spaces of an indentation. -/
def spaces (indent : Nat) : List Char := List.replicate indent ' '

/-- A hexadecimal digit in upper case. -/
def upperHexDigit (n : Nat) : Char := if n < 10 then Char.ofNat (48 + n) else Char.ofNat (55 + n)

/-- The last hexadecimal digits of a number, as many as asked for. -/
def upperHex : Nat → Nat → List Char
  | 0, _ => []
  | count + 1, n => upperHex count (n / 16) ++ [upperHexDigit (n % 16)]

/-- The letter that stands for a character behind a backslash. -/
def escapeLetter? (c : Char) : Option Char :=
  match c.toNat with
  | 0x00 => some '0'
  | 0x07 => some 'a'
  | 0x08 => some 'b'
  | 0x09 => some 't'
  | 0x0a => some 'n'
  | 0x0b => some 'v'
  | 0x0c => some 'f'
  | 0x0d => some 'r'
  | 0x1b => some 'e'
  | 0x22 => some '\x22'
  | 0x5c => some '\\'
  | 0x85 => some 'N'
  | 0x2028 => some 'L'
  | 0x2029 => some 'P'
  | _ => none

/-- A character between double quotes. -/
def escapedChar (c : Char) : List Char :=
  match escapeLetter? c with
  | some letter => ['\\', letter]
  | none =>
    if isPlainlyWritten c then [c]
    else if c.toNat ≤ 0xff then '\\' :: 'x' :: upperHex 2 c.toNat
    else if c.toNat ≤ 0xffff then '\\' :: 'u' :: upperHex 4 c.toNat
    else '\\' :: 'U' :: upperHex 8 c.toNat

/-- A text between double quotes. -/
def doubleQuoted (s : List Char) : List Char := '\x22' :: s.flatMap escapedChar ++ ['\x22']

/-- A text with an indentation after every line end in it that something follows. -/
def indentAfterBreaks (indent : Nat) : List Char → List Char
  | [] => []
  | [c] => [c]
  | c :: d :: rest =>
    if isBreak c && !isBreak d then c :: spaces indent ++ indentAfterBreaks indent (d :: rest)
    else c :: indentAfterBreaks indent (d :: rest)

/-- A text between single quotes, in which each of them is written twice. A line end is followed by
the indentation, also before the closing quote. -/
def singleQuoted (indent : Nat) (s : List Char) : List Char :=
  let quote := '\x27'
  quote :: indentAfterBreaks indent
    (s.flatMap (fun c => if c = quote then [quote, quote] else [c]) ++ [quote])

/-- What says how a literal text starts and ends: a digit if it starts with a space or line end, a
minus sign if it ends without a line end, a plus sign if it ends with several or is only one. -/
def literalHints (s : List Char) : List Char :=
  let opening := match s with
    | c :: _ => if c == ' ' || isBreak c then ['2'] else []
    | [] => []
  let closing := match s.reverse with
    | [] => ['-']
    | [c] => if isBreak c then ['+'] else ['-']
    | c :: d :: _ => if !isBreak c then ['-'] else if isBreak d then ['+'] else []
  opening ++ closing

/-- A text line by line at an indentation. -/
def literal (indent : Nat) (s : List Char) : List Char :=
  '|' :: literalHints s ++ indentAfterBreaks indent ('\n' :: s)

/-- A text in its style; lines after the first one have the given indentation. -/
def stringText (indent : Nat) (text : String) : List Char :=
  match Style.of text with
  | .plain => text.toList
  | .singleQuoted => singleQuoted indent text.toList
  | .doubleQuoted => doubleQuoted text.toList
  | .literal => literal indent text.toList

/-- Numbers in YAML: positional from `0.00001` up to but not including `1e16`. -/
def numberLayout : Decimal.Layout := ⟨-5, 16, "", ".inf", ".nan"⟩

/-- The text of a value on one line; arrays and objects are taken to be empty. -/
def scalarText (indent : Nat) : Json → List Char
  | .null => ['n', 'u', 'l', 'l']
  | .bool true => ['t', 'r', 'u', 'e']
  | .bool false => ['f', 'a', 'l', 's', 'e']
  | .int i => (Literal.integerText i).toList
  | .float x => (numberLayout.text x).toList
  | .string text => stringText indent text
  | .array _ => ['[', ']']
  | .object _ => ['\x7b', '\x7d']

/-! ## Blocks -/

/-- Ends a line unless a line end is there already. -/
def endLine (s : List Char) : List Char :=
  if (s.getLast?.map isBreak).getD false then s else s ++ ['\n']

/-- Whether a name can stand before its colon on one line: it spans no lines and has at most 128
bytes. -/
def isSimpleName (name : String) : Bool :=
  !isMultiline name.toList && name.utf8ByteSize ≤ 128

/-- A name with its colon. A long name stands behind a mark of its own, and its colon on the line
below it. -/
def heading (indent : Nat) (name : String) : List Char :=
  let text := stringText (indent + 2) name
  if isSimpleName name then text ++ [':']
  else '?' :: ' ' :: endLine text ++ spaces indent ++ [':']

mutual

/-- What follows a colon or a hyphen. Behind a hyphen, and behind the colon of a long name, arrays and
objects start on the same line, two columns further to the right. Behind other colons they start on
the next line: the items of an array below the name and the entries of an object further to the
right. -/
def beside (sameLine : Bool) (indent : Nat) : Json → List Char
  | .array xs =>
    if xs.isEmpty then [' ', '[', ']', '\n']
    else if sameLine then ' ' :: (items (indent + 2) xs).drop (indent + 2)
    else '\n' :: items indent xs
  | .object rest =>
    if rest.isEmpty then [' ', '\x7b', '\x7d', '\n']
    else if sameLine then ' ' :: (entries (indent + 2) rest).drop (indent + 2)
    else '\n' :: entries (indent + 2) rest
  | value => ' ' :: endLine (scalarText (indent + 2) value)

/-- The items of an array, each on lines of its own. -/
def items (indent : Nat) : List Json → List Char
  | [] => []
  | x :: xs => spaces indent ++ '-' :: beside true indent x ++ items indent xs

/-- The entries of an object, each on lines of its own. -/
def entries (indent : Nat) : List (String × Json) → List Char
  | [] => []
  | (name, value) :: rest =>
    spaces indent ++ heading indent name ++ beside (!isSimpleName name) indent value
      ++ entries indent rest

end

/-- The text of a document that holds one value. -/
def document (value : Json) : String :=
  match value with
  | .array (x :: xs) => String.ofList (items 0 (x :: xs))
  | .object (first :: rest) => String.ofList (entries 0 (first :: rest))
  | value => String.ofList (endLine (scalarText 2 value))

end ClassCli.Yaml
