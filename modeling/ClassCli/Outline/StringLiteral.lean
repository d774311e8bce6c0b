import ClassCli.Text.Basic

/-!
# The values of string literals

The value of a string literal is its text between the quotes, with the escapes for line feed, tab,
carriage return, the null character, backslashes and quotes resolved and an escaped line end dropped.
Every other backslash stays. Literals marked as raw are taken as they stand; byte strings and format
strings have no value here.

* **`StringLiteral.value?`** — the value of a literal.
-/

namespace ClassCli.Outline.StringLiteral

open Text

/-- Whether a character is one of the two quotes. -/
def isQuote (c : Char) : Bool := c == '\x22' || c == '\x27'

/-- The character that an escape letter stands for. -/
def escaped? (c : Char) : Option Char :=
  match c with
  | 'n' => some '\n'
  | 't' => some '\t'
  | 'r' => some '\r'
  | '0' => some '\x00'
  | '\\' => some '\\'
  | '\x27' => some '\x27'
  | '\x22' => some '\x22'
  | _ => none

/-- Resolves the escapes of a text. -/
def unescape : List Char → List Char
  | [] => []
  | c :: rest =>
    if c != '\\' then c :: unescape rest
    else match rest with
      | [] => [c]
      | next :: after =>
        if next = '\n' then unescape after
        else match escaped? next with
          | some char => char :: unescape after
          | none => c :: next :: unescape after

/-- The quotes that may delimit a literal, longer ones first. -/
def delimiters : List (List Char) :=
  [List.replicate 3 '\x22', List.replicate 3 '\x27', ['\x22'], ['\x27']]

/-- The text between delimiters. -/
def delimited? (s : List Char) : Option (List Char) :=
  delimiters.findSome? fun quotes => (afterStart quotes s).bind (beforeEnd quotes)

/-- The value of a literal. -/
def valueOf? (s : List Char) : Option (List Char) :=
  let (start, body) := cut isQuote s
  let start := asciiLower start
  if body.isEmpty || start.any (fun c => c == 'f' || c == 'b') then none
  else (delimited? body).map fun inner => if start.any (· == 'r') then inner else unescape inner

/-- The value of a literal. -/
def value? (literal : String) : Option String := (valueOf? literal.toList).map String.ofList

/-- The value of literals next to each other, if each has one. -/
def values? : List String → Option String
  | [] => some ""
  | part :: parts =>
    match value? part, values? parts with
    | some s, some rest => some (s ++ rest)
    | _, _ => none

end ClassCli.Outline.StringLiteral
