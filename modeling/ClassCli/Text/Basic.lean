/-!
# Characters, lines and words

Text is handled as a list of characters. White space is Unicode's `White_Space` property. A text is
cut into lines at line feeds, and a carriage return directly before a line feed belongs to the line
end.

* **`Text.lines`** — the lines of a text; a line feed at the very end opens no further line.
* **`Text.joinWords`** — the non-blank pieces, trimmed, with one space between them.
-/

namespace ClassCli.Text

/-! ## White space -/

/-- Whether a character has the property `White_Space`. -/
def isBlank (c : Char) : Bool :=
  let n := c.toNat
  if n < 128 then n == 32 || (9 ≤ n && n ≤ 13)
  else n == 0x85 || n == 0xa0 || n == 0x1680 || (0x2000 ≤ n && n ≤ 0x200a) || n == 0x2028
    || n == 0x2029 || n == 0x202f || n == 0x205f || n == 0x3000

/-- The text without the white space at its start. -/
def trimStart (s : List Char) : List Char := s.dropWhile isBlank

/-- The text without the white space at its end. -/
def trimEnd (s : List Char) : List Char := (s.reverse.dropWhile isBlank).reverse

/-- The text without the white space at either end. -/
def trim (s : List Char) : List Char := trimEnd (trimStart s)

/-- Whether a text holds nothing but white space. -/
def blank (s : List Char) : Bool := s.all isBlank

/-! ## Splitting and joining -/

/-- The pieces between the occurrences of a character; there is always one more than occurrences. -/
def splitAt (mark : Char) : List Char → List (List Char)
  | [] => [[]]
  | c :: rest =>
    if c = mark then [] :: splitAt mark rest
    else match splitAt mark rest with
      | [] => [[c]]
      | piece :: pieces => (c :: piece) :: pieces

/-- The texts with a separator between them. -/
def join (separator : List Char) : List (List Char) → List Char
  | [] => []
  | [s] => s
  | s :: rest => s ++ separator ++ join separator rest

/-- Everything before the first character that satisfies a test, and everything from it on. -/
def cut (test : Char → Bool) (s : List Char) : List Char × List Char :=
  (s.takeWhile (!test ·), s.dropWhile (!test ·))

/-- The text before and after the first occurrence of a character. -/
def splitOnce (mark : Char) (s : List Char) : Option (List Char × List Char) :=
  match s.dropWhile (· != mark) with
  | [] => none
  | _ :: after => some (s.takeWhile (· != mark), after)

/-- The text after a beginning, if it starts with it. -/
def afterStart : List Char → List Char → Option (List Char)
  | [], s => some s
  | _ :: _, [] => none
  | p :: ps, c :: cs => if p = c then afterStart ps cs else none

/-- Whether a text starts with another. -/
def startsWith (start s : List Char) : Bool := (afterStart start s).isSome

/-- The text before an ending, if it ends with it. -/
def beforeEnd (ending s : List Char) : Option (List Char) :=
  (afterStart ending.reverse s.reverse).map List.reverse

/-- A line without the carriage return that belongs to its line feed. -/
def withoutReturn (line : List Char) : List Char := (beforeEnd ['\r'] line).getD line

/-- Strips the carriage returns of all lines that a line feed ends and drops the empty line after a
final line feed. -/
def endLines : List (List Char) → List (List Char)
  | [] => []
  | [last] => if last.isEmpty then [] else [last]
  | line :: rest => withoutReturn line :: endLines rest

/-- The lines of a text. -/
def lines (s : List Char) : List (List Char) := endLines (splitAt '\n' s)

/-- The non-blank pieces, trimmed, with one space between them. -/
def joinWords (pieces : List (List Char)) : List Char :=
  join [' '] ((pieces.map trim).filter (!·.isEmpty))

/-! ## Counting -/

/-- The number of bytes of a text in UTF-8. -/
def byteLength : List Char → Nat
  | [] => 0
  | c :: rest => c.utf8Size + byteLength rest

/-- The number of bytes of the white space that opens a line. -/
def indentation (line : List Char) : Nat := byteLength (line.takeWhile isBlank)

/-! ## ASCII classes -/

/-- A lower-case or upper-case ASCII letter or the underscore. -/
def isAsciiNameStart (c : Char) : Bool := c.isAlpha || c == '_'

/-- An ASCII letter, an ASCII digit or the underscore. -/
def isAsciiNamePart (c : Char) : Bool := c.isAlphanum || c == '_'

/-- An ASCII identifier. -/
def isAsciiName : List Char → Bool
  | [] => false
  | c :: rest => isAsciiNameStart c && rest.all isAsciiNamePart

/-- One or more ASCII identifiers with points between them. -/
def isDottedName (s : List Char) : Bool := (splitAt '.' s).all isAsciiName

/-- The text with ASCII letters in lower case. -/
def asciiLower (s : List Char) : List Char := s.map Char.toLower

/-- Replaces every occurrence of a character by another. -/
def replaceChar (old new : Char) (s : List Char) : List Char :=
  s.map fun c => if c = old then new else c

/-! ## The same on strings -/

/-- The string with every occurrence of a character replaced by another. -/
def replaceIn (old new : Char) (s : String) : String := String.ofList (replaceChar old new s.toList)

/-- The strings with a separator between them. -/
def joinStrings (separator : String) (pieces : List String) : String :=
  String.ofList (join separator.toList (pieces.map String.toList))

/-! ## Ranges of code points

A class of characters beyond ASCII is a list of disjoint ranges in ascending order. -/

/-- Whether a code point lies in one of the ranges, which are in ascending order. -/
def inRanges : List (Nat × Nat) → Nat → Bool
  | [], _ => false
  | (first, last) :: rest, n => if n < first then false else n ≤ last || inRanges rest n

end ClassCli.Text
