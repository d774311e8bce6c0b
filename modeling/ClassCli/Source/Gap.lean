import ClassCli.Text.Basic

/-!
# Gaps between lexemes

Between two lexemes stand white space, comments and joined line ends. A gap that crosses the end of
a line also settles the indentation of the next line: a space counts one column and a tab eight; a
form feed or a carriage return starts the count again.

* **`Gap.scan`** — splits the gap off the front of a text.
-/

namespace ClassCli.Source

/-- What stands before the next lexeme. -/
structure Gap where
  /-- The characters of the gap, last one first. -/
  reversed : List Char
  /-- The joined line ends in the gap, last one first. -/
  joins : List String
  /-- Whether the gap crosses the end of a line. -/
  crosses : Bool
  /-- The columns counted since the last end of a line. -/
  indent : Nat
  deriving Repr, Inhabited

namespace Gap

/-- No gap at all. -/
def empty : Gap := ⟨[], [], false, 0⟩

/-- The gap with one more character. -/
def push (c : Char) (gap : Gap) : Gap := { gap with reversed := c :: gap.reversed }

/-- The gap with a joined line end added. -/
def join (mark : List Char) (gap : Gap) : Gap :=
  { gap with reversed := mark.reverse ++ gap.reversed, joins := String.ofList mark :: gap.joins }

/-- The characters of the gap. -/
def chars (gap : Gap) : List Char := gap.reversed.reverse

/-- White space that only separates: the vertical tab, the byte order mark, the word joiner and the
space of zero width. -/
def isFiller (c : Char) : Bool := c ∈ ['\x0b', '\ufeff', '\u2060', '\u200b']

/-- Splits the gap off the front of a text; `comment` says whether a comment is being crossed. -/
def scanFrom (comment : Bool) (gap : Gap) : List Char → Gap × List Char
  | [] => (gap, [])
  | c :: rest =>
    if c = '\n' then
      scanFrom false { gap.push c with crosses := true, indent := 0 } rest
    else if comment then
      if c = '\x00' then (gap, c :: rest) else scanFrom true (gap.push c) rest
    else if c = ' ' then scanFrom false { gap.push c with indent := gap.indent + 1 } rest
    else if c = '\t' then scanFrom false { gap.push c with indent := gap.indent + 8 } rest
    else if c = '\r' || c = '\x0c' then scanFrom false { gap.push c with indent := 0 } rest
    else if isFiller c then scanFrom false (gap.push c) rest
    else if c = '#' then scanFrom true (gap.push c) rest
    else if c = '\\' then
      match rest with
      | '\n' :: after => scanFrom false (gap.join ['\\', '\n']) after
      | '\r' :: '\n' :: after => scanFrom false (gap.join ['\\', '\r', '\n']) after
      | [] => (gap.join ['\\'], [])
      | _ => (gap, c :: rest)
    else (gap, c :: rest)

/-- Splits the gap off the front of a text. -/
def scan (s : List Char) : Gap × List Char := scanFrom false empty s

/-- The end of the input ends the line. -/
def atEnd (gap : Gap) : Gap := { gap with crosses := true, indent := 0 }

end Gap

end ClassCli.Source
