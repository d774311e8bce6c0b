import ClassCli.Notice

/-!
# Blocks of indented lines

A block is a list of lines, each with a level of indentation, and a cursor, the level at which the
next line is written. Nesting is arithmetic on levels: lines that are put into a block move together
until the first non-blank one of them stands at the level of the place that they are put into. Levels
are machine words, and nothing checks that a sum of two of them is one.

* **`word`** — what a machine word keeps of a sum.
* **`moveTo`** — moves lines to a level.
* **`Block.append`**, **`Block.insert`**, **`Block.replace`** — put lines into a block.
* **`Block.text`** — the text of a block, four spaces for each level.
-/

namespace ClassCli.Code

/-! ## Machine words -/

/-- What a machine word of 64 bits keeps of a number: what goes beyond its width is lost. -/
def word (n : Nat) : Nat := n % UInt64.size

theorem word_of_lt {n : Nat} (h : n < UInt64.size) : word n = n := Nat.mod_eq_of_lt h

/-! ## Lines -/

/-- A line and its level of indentation. -/
structure Line where
  text : String
  level : Nat
  deriving DecidableEq, Repr, Inhabited

namespace Line

/-- The line without any text. -/
def empty : Line := ⟨"", 0⟩

/-- Whether a line has no text. -/
def isBlank (line : Line) : Bool := line.text == ""

/-- The number of spaces for each level. -/
def width : Nat := 4

/-- The line as it is written. A blank line has no indentation. -/
def shown (line : Line) : String :=
  if line.isBlank then ""
  else String.ofList (List.replicate (word (line.level * width)) ' ') ++ line.text

end Line

/-- The level of the first non-blank line. -/
def firstLevel? (lines : List Line) : Option Nat :=
  (lines.find? (!·.isBlank)).map (·.level)

/-- The line moved by as much as it takes to move a line from level `first` to level `level`; nothing
moves beyond level 0, and blank lines go there. The sum comes first, so that it is the sum that has to
fit into a word. -/
def Line.shift (first level : Nat) (line : Line) : Line :=
  { line with level := if line.isBlank then 0 else word (line.level + level) - first }

/-- Moves lines together until the first non-blank one stands at a level. -/
def moveTo (level : Nat) (lines : List Line) : List Line :=
  match firstLevel? lines with
  | none => lines
  | some first => lines.map (Line.shift first level)

/-- Lines with the level at which the next one is written. -/
structure Block where
  lines : List Line := []
  cursor : Nat := 0
  deriving DecidableEq, Repr, Inhabited

namespace Block

/-- Writes a line at the cursor. -/
def appendLine (block : Block) (text : String) : Block :=
  { block with lines := block.lines ++ [⟨text, block.cursor⟩] }

/-- Writes lines at the cursor. -/
def appendLines (block : Block) (texts : List String) : Block := texts.foldl appendLine block

/-- A block of one line. -/
def single (text : String) : Block := appendLine {} text

/-- A block of lines at level 0. -/
def ofTexts (texts : List String) : Block := appendLines {} texts

/-- Adds a blank line. -/
def blankLine (block : Block) : Block := { block with lines := block.lines ++ [Line.empty] }

/-- Moves the cursor. -/
def setCursor (block : Block) (level : Nat) : Block := { block with cursor := level }

/-- Moves the cursor one level deeper. -/
def indent (block : Block) : Block := { block with cursor := word (block.cursor + 1) }

/-- Moves the cursor one level back; at level 0 it stays. -/
def dedent (block : Block) : Block := { block with cursor := block.cursor - 1 }

/-- Adds lines, the first non-blank one at the cursor. -/
def append (block : Block) (content : List Line) : Block :=
  { block with lines := block.lines ++ moveTo block.cursor content }

/-- The level of the first non-blank line from an index on, or the cursor if there is none. -/
def levelAt (block : Block) (index : Nat) : Nat :=
  (firstLevel? (block.lines.drop index)).getD block.cursor

/-- Puts lines before an index, or at the end if the index is beyond it, at the level of what comes
after them. -/
def insert (block : Block) (content : List Line) (index : Nat) : Block :=
  { block with
    lines := block.lines.take index ++ moveTo (block.levelAt index) content
      ++ block.lines.drop index }

/-- Puts lines in the place of the line at an index, at its level, if there is such a line. -/
def replace (block : Block) (content : List Line) (index : Nat) : Noted (Bool × Block) :=
  match block.lines[index]? with
  | none => ⟨(false, block), [.indexOutOfRange index block.lines.length]⟩
  | some old =>
    let lines := block.lines.take index ++ moveTo old.level content ++ block.lines.drop (index + 1)
    ⟨(true, { block with lines }), []⟩

/-- Moves all lines until the first non-blank one stands at a level, and the cursor by as much. In a
block without such a line only the cursor goes there. -/
def moveToLevel (block : Block) (level : Nat) : Block :=
  match firstLevel? block.lines with
  | none => { block with cursor := level }
  | some first => ⟨moveTo level block.lines, word (block.cursor + level) - first⟩

/-- Moves all lines to a level; a negative one counts as 0. -/
def setLevel (block : Block) (level : Int) : Noted Block :=
  ⟨block.moveToLevel level.toNat, if level < 0 then [.negativeLevel level] else []⟩

/-- Whether some line has a certain text, at whatever level. -/
def containsText (block : Block) (text : String) : Bool := block.lines.any (·.text == text)

/-- Whether a line is there, at its level. -/
def containsLine (block : Block) (line : Line) : Bool := block.lines.contains line

/-- The two blank lines after a definition at the top level. -/
def separate (block : Block) : Block := block.blankLine.blankLine

/-- The text of a block; every line has its line end. -/
def text (block : Block) : String :=
  String.join (block.lines.map fun line => line.shown ++ "\n")

end Block

end ClassCli.Code
