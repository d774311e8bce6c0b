import ClassCli.Json.Value

/-!
# Writing JSON

A value is written either on one line without spaces or with every item on a line of its own,
indented by two spaces per level. Numbers that JSON cannot hold are written as `null`.

* **`Json.pretty`** — the text over several lines, without a final line feed.
* **`Json.compact`** — the text on one line.
-/

namespace ClassCli.Json

open Decimal (Binary64)

/-! ## Scalars -/

/-- A hexadecimal digit in lower case. -/
def hexDigit (n : Nat) : Char := if n < 10 then Char.ofNat (48 + n) else Char.ofNat (87 + n)

/-- The escape of one character inside a string. -/
def escapedChar (c : Char) : List Char :=
  match c with
  | '\x22' => ['\\', '\x22']
  | '\\' => ['\\', '\\']
  | '\x08' => ['\\', 'b']
  | '\x0c' => ['\\', 'f']
  | '\n' => ['\\', 'n']
  | '\r' => ['\\', 'r']
  | '\t' => ['\\', 't']
  | c =>
    if c.toNat < 32 then ['\\', 'u', '0', '0', hexDigit (c.toNat / 16), hexDigit (c.toNat % 16)]
    else [c]

/-- A string between double quotes. -/
def stringChars (s : String) : List Char :=
  '\x22' :: s.toList.flatMap escapedChar ++ ['\x22']

/-- Numbers in JSON: positional from `0.00001` up to but not including `1e16`. -/
def numberLayout : Decimal.Layout := ⟨-5, 16, "+", "null", "null"⟩

/-- The characters of a floating-point number. -/
def floatChars (x : Binary64) : List Char :=
  if x.isFinite then (numberLayout.text x).toList else ['n', 'u', 'l', 'l']

/-- The characters of an integer. -/
def integerChars (i : Int) : List Char :=
  (if i < 0 then ['-'] else []) ++ Decimal.Shortest.digitsOf i.natAbs

/-! ## Values over several lines -/

/-- A line feed and the indentation of a level. -/
def newline (level : Nat) : List Char := '\n' :: List.replicate (2 * level) ' '

mutual

/-- The text of a value at a level. -/
def prettyAt (level : Nat) : Json → List Char
  | .null => ['n', 'u', 'l', 'l']
  | .bool true => ['t', 'r', 'u', 'e']
  | .bool false => ['f', 'a', 'l', 's', 'e']
  | .int i => integerChars i
  | .float x => floatChars x
  | .string s => stringChars s
  | .array [] => ['[', ']']
  | .array (x :: xs) =>
    '[' :: newline (level + 1) ++ prettyAt (level + 1) x ++ prettyItems (level + 1) xs
      ++ newline level ++ [']']
  | .object [] => ['\x7b', '\x7d']
  | .object ((name, value) :: rest) =>
    '\x7b' :: newline (level + 1) ++ stringChars name ++ [':', ' '] ++ prettyAt (level + 1) value
      ++ prettyEntries (level + 1) rest ++ newline level ++ ['\x7d']

/-- The items after the first. -/
def prettyItems (level : Nat) : List Json → List Char
  | [] => []
  | x :: xs => ',' :: newline level ++ prettyAt level x ++ prettyItems level xs

/-- The entries after the first. -/
def prettyEntries (level : Nat) : List (String × Json) → List Char
  | [] => []
  | (name, value) :: rest =>
    ',' :: newline level ++ stringChars name ++ [':', ' '] ++ prettyAt level value
      ++ prettyEntries level rest

end

/-- The text of a value over several lines, without a final line feed. -/
def pretty (value : Json) : String := String.ofList (prettyAt 0 value)

/-! ## Values on one line -/

mutual

/-- The text of a value without spaces. -/
def compactChars : Json → List Char
  | .null => ['n', 'u', 'l', 'l']
  | .bool true => ['t', 'r', 'u', 'e']
  | .bool false => ['f', 'a', 'l', 's', 'e']
  | .int i => integerChars i
  | .float x => floatChars x
  | .string s => stringChars s
  | .array [] => ['[', ']']
  | .array (x :: xs) => '[' :: compactChars x ++ compactItems xs ++ [']']
  | .object [] => ['\x7b', '\x7d']
  | .object ((name, value) :: rest) =>
    '\x7b' :: stringChars name ++ ':' :: compactChars value ++ compactEntries rest ++ ['\x7d']

/-- The items after the first. -/
def compactItems : List Json → List Char
  | [] => []
  | x :: xs => ',' :: compactChars x ++ compactItems xs

/-- The entries after the first. -/
def compactEntries : List (String × Json) → List Char
  | [] => []
  | (name, value) :: rest =>
    ',' :: stringChars name ++ ':' :: compactChars value ++ compactEntries rest

end

/-- The text of a value on one line. -/
def compact (value : Json) : String := String.ofList (compactChars value)

end ClassCli.Json
