import ClassCli.Json.Number

/-!
# Reading JSON

A text is read as one value with white space around it. Nesting is limited: a text with 128 or more
brackets open at once is refused. Of several entries with one name the last one counts, and the
entries of an object are put in ascending order.

* **`Json.parse?`** — the value of a text; none if it is no JSON.
-/

namespace ClassCli.Json

/-! ## White space and strings -/

/-- The white space of JSON. -/
def isSpace (c : Char) : Bool := c == ' ' || c == '\n' || c == '\t' || c == '\r'

/-- The text without the white space at its start. -/
def skipSpace (s : List Char) : List Char := s.dropWhile isSpace

/-- The value of a hexadecimal digit. -/
def hexValue? (c : Char) : Option Nat :=
  if c.isDigit then some (c.toNat - 48)
  else if 'a' ≤ c && c ≤ 'f' then some (c.toNat - 87)
  else if 'A' ≤ c && c ≤ 'F' then some (c.toNat - 55)
  else none

/-- The number that four hexadecimal digits spell. -/
def hexUnit? (a b c d : Char) : Option Nat :=
  match hexValue? a, hexValue? b, hexValue? c, hexValue? d with
  | some a, some b, some c, some d => some (((a * 16 + b) * 16 + c) * 16 + d)
  | _, _, _, _ => none

/-- The character that a letter after a backslash stands for. -/
def unescaped? (c : Char) : Option Char :=
  match c with
  | '\x22' => some '\x22'
  | '\\' => some '\\'
  | '/' => some '/'
  | 'b' => some '\x08'
  | 'f' => some '\x0c'
  | 'n' => some '\n'
  | 'r' => some '\r'
  | 't' => some '\t'
  | _ => none

/-- The rest of a string after its opening quote: its text and what follows its closing quote. -/
def readString : List Char → Option (List Char × List Char)
  | [] => none
  | '\x22' :: rest => some ([], rest)
  | '\\' :: 'u' :: a :: b :: c :: d :: rest =>
    match hexUnit? a b c d with
    | none => none
    | some unit =>
      if 0xd800 ≤ unit && unit < 0xdc00 then
        match rest with
        | '\\' :: 'u' :: a :: b :: c :: d :: rest =>
          match hexUnit? a b c d with
          | none => none
          | some low =>
            if 0xdc00 ≤ low && low < 0xe000 then
              let code := 0x10000 + (unit - 0xd800) * 0x400 + (low - 0xdc00)
              (readString rest).map fun (text, rest) => (Char.ofNat code :: text, rest)
            else none
        | _ => none
      else if 0xdc00 ≤ unit && unit < 0xe000 then none
      else (readString rest).map fun (text, rest) => (Char.ofNat unit :: text, rest)
  | '\\' :: c :: rest =>
    match unescaped? c with
    | none => none
    | some char => (readString rest).map fun (text, rest) => (char :: text, rest)
  | c :: rest =>
    if c.toNat < 32 || c = '\\' then none
    else (readString rest).map fun (text, rest) => (c :: text, rest)

/-! ## Values -/

/-- A reader of values. -/
abbrev ValueReader := List Char → Option (Json × List Char)

/-- The items of an array from one of them on. -/
def readItems (value : ValueReader) : Nat → List Char → Option (List Json × List Char)
  | 0, _ => none
  | fuel + 1, s =>
    match value (skipSpace s) with
    | none => none
    | some (x, rest) =>
      match skipSpace rest with
      | ',' :: rest => (readItems value fuel rest).map fun (xs, rest) => (x :: xs, rest)
      | ']' :: rest => some ([x], rest)
      | _ => none

/-- The entries of an object from one of them on. -/
def readEntries (value : ValueReader) :
    Nat → List Char → Option (List (String × Json) × List Char)
  | 0, _ => none
  | fuel + 1, s =>
    match skipSpace s with
    | '\x22' :: rest =>
      match readString rest with
      | none => none
      | some (name, rest) =>
        match skipSpace rest with
        | ':' :: rest =>
          match value (skipSpace rest) with
          | none => none
          | some (x, rest) =>
            let entry := (String.ofList name, x)
            match skipSpace rest with
            | ',' :: rest =>
              (readEntries value fuel rest).map fun (entries, rest) => (entry :: entries, rest)
            | '\x7d' :: rest => some ([entry], rest)
            | _ => none
        | _ => none
    | _ => none

/-- A value at the front of a text, with at most `depth` brackets open at once. -/
def readValue : Nat → ValueReader
  | _, 'n' :: 'u' :: 'l' :: 'l' :: rest => some (.null, rest)
  | _, 't' :: 'r' :: 'u' :: 'e' :: rest => some (.bool true, rest)
  | _, 'f' :: 'a' :: 'l' :: 's' :: 'e' :: rest => some (.bool false, rest)
  | _, '\x22' :: rest =>
    (readString rest).map fun (text, rest) => (.string (String.ofList text), rest)
  | 0, '[' :: _ => none
  | 0, '\x7b' :: _ => none
  | depth + 1, '[' :: rest =>
    match skipSpace rest with
    | ']' :: rest => some (.array [], rest)
    | _ => (readItems (readValue depth) rest.length rest).map fun (xs, rest) => (.array xs, rest)
  | depth + 1, '\x7b' :: rest =>
    match skipSpace rest with
    | '\x7d' :: rest => some (.object [], rest)
    | _ =>
      (readEntries (readValue depth) rest.length rest).map fun (entries, rest) =>
        (.object (sorted entries), rest)
  | _, s => readNumber s

/-- How many brackets may be open at once. -/
def depthLimit : Nat := 127

/-- The value of a text. -/
def parse? (text : String) : Option Json :=
  match readValue depthLimit (skipSpace text.toList) with
  | some (value, rest) => if (skipSpace rest).isEmpty then some value else none
  | none => none

end ClassCli.Json
