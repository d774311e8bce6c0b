import ClassCli.Decimal.Reading
import ClassCli.Yaml.Character

/-!
# Reading scalars

Scalars can span lines. Between two words of a scalar without quotes, or between quotes, a line end
counts as a space and further ones as line feeds. A block scalar keeps its lines or folds them in the
same way.

* **`plain`**, **`quoted`**, **`block`** — the text of a scalar and the place behind it; none if it
  is malformed.
-/

namespace ClassCli.Yaml

/-! ## Places -/

/-- A place in a text: what is left of it, and where that starts. -/
structure Place where
  rest : List Char
  index : Nat := 0
  line : Nat := 0
  column : Nat := 0
  deriving Repr, Inhabited

namespace Place

/-- The place behind some characters of a line. -/
def skip (place : Place) (count : Nat) : Place :=
  { place with
    rest := place.rest.drop count, index := place.index + count, column := place.column + count }

/-- The place behind the characters that satisfy a test, none of which ends a line. -/
def skipWhile (place : Place) (test : Char → Bool) : Place :=
  place.skip (place.rest.takeWhile test).length

/-- The line end at a place, as it counts in a text, and the place behind it. -/
def takeBreak? (place : Place) : Option (Char × Place) :=
  let behind (count : Nat) : Place :=
    ⟨place.rest.drop count, place.index + count, place.line + 1, 0⟩
  match place.rest with
  | '\r' :: '\n' :: _ => some ('\n', behind 2)
  | c :: _ =>
    if c == '\u2028' || c == '\u2029' then some (c, behind 1)
    else if isBreak c then some ('\n', behind 1)
    else none
  | [] => none

/-- The place behind the line end, if there is one. -/
def skipBreak (place : Place) : Place := (place.takeBreak?.map Prod.snd).getD place

/-- Whether a line starts here that starts or ends a document. -/
def atMark (place : Place) : Bool := place.column == 0 && startsMark place.rest

/-- Whether a space, a tab or a line end comes next. -/
def atGap (place : Place) : Bool :=
  match place.rest with
  | [] => false
  | _ => endsWord place.rest

end Place

/-! ## Gaps between words -/

/-- What stands between two words. -/
inductive Gap where
  | spaces (blanks : List Char)
  /-- The first line end, if it counts, and the ones after it. -/
  | lines (first : Option Char) (others : List Char)
  deriving Repr, Inhabited

namespace Gap

/-- Whether a line ends in the gap. -/
def isLines : Gap → Bool
  | spaces _ => false
  | lines .. => true

/-- What a gap counts as: one line end is a space, and of several all but the first count. -/
def folded : Gap → List Char
  | spaces blanks => blanks
  | lines (some '\n') [] => [' ']
  | lines (some '\n') others => others
  | lines first others => first.toList ++ others

/-- The gap with a space or tab more; those after a line end do not count. -/
def addBlank (c : Char) : Gap → Gap
  | spaces blanks => spaces (blanks ++ [c])
  | gap => gap

/-- The gap with a line end more; spaces before one do not count. -/
def addBreak (c : Char) : Gap → Gap
  | spaces _ => lines (some c) []
  | lines first others => lines first (others ++ [c])

end Gap

/-- The rest of a gap. A tab after a line end has to stand at or beyond the column `margin`. -/
def readGap (margin : Nat) : Nat → Gap → Place → Option (Gap × Place)
  | 0, gap, place => some (gap, place)
  | fuel + 1, gap, place =>
    match place.takeBreak? with
    | some (c, after) => readGap margin fuel (gap.addBreak c) after
    | none =>
      match place.rest with
      | c :: _ =>
        if !isSpacing c then some (gap, place)
        else if c == '\t' && gap.isLines && place.column < margin then none
        else readGap margin fuel (gap.addBlank c) (place.skip 1)
      | [] => some (gap, place)

/-! ## Scalars without quotes -/

/-- The brackets and the comma of flow collections. -/
def isFlowIndicator (c : Char) : Bool :=
  c == ',' || c == '[' || c == ']' || c == '\x7b' || c == '\x7d'

/-- A word of a scalar without quotes and what follows it. Inside flow collections a colon must not
stand before one of their indicators. -/
def plainWord (inFlow : Bool) : List Char → Option (List Char)
  | [] => some []
  | c :: rest =>
    if endsWord (c :: rest) then some []
    else if inFlow && c == ':' && (rest.head?.map fun d => isFlowIndicator d || d == '?').getD false
    then none
    else if (c == ':' && endsWord rest) || (inFlow && isFlowIndicator c) then some []
    else (plainWord inFlow rest).map (c :: ·)

/-- The words of a scalar from a place on, behind what has been read and a gap. The answer also says
whether a line ends in the gap behind the scalar. -/
def plainFrom (inFlow : Bool) (margin : Nat) :
    Nat → List Char → Gap → Place → Option (List Char × Bool × Place)
  | 0, _, _, _ => none
  | fuel + 1, sofar, gap, place =>
    if place.atMark || place.rest.head? == some '#' then some (sofar, gap.isLines, place)
    else match plainWord inFlow place.rest with
      | none => none
      | some word =>
        let after := place.skip word.length
        let (sofar, gap) :=
          if word.isEmpty then (sofar, gap) else (sofar ++ gap.folded ++ word, Gap.spaces [])
        if !after.atGap then some (sofar, gap.isLines, after)
        else match readGap margin after.rest.length gap after with
          | none => none
          | some (gap, next) =>
            if !inFlow && next.column < margin then some (sofar, gap.isLines, next)
            else plainFrom inFlow margin fuel sofar gap next

/-- A scalar without quotes; its lines stand at or beyond the column `margin`. -/
def plain (inFlow : Bool) (margin : Nat) (place : Place) : Option (List Char × Bool × Place) :=
  plainFrom inFlow margin (place.rest.length + 1) [] (.spaces []) place

/-! ## Scalars between quotes -/

/-- The character that a letter behind a backslash stands for. -/
def escapeValue? (c : Char) : Option Char :=
  match c with
  | '0' => some '\x00'
  | 'a' => some '\x07'
  | 'b' => some '\x08'
  | 't' | '\t' => some '\t'
  | 'n' => some '\n'
  | 'v' => some '\x0b'
  | 'f' => some '\x0c'
  | 'r' => some '\r'
  | 'e' => some '\x1b'
  | ' ' | '\x22' | '/' | '\\' => some c
  | 'N' => some '\u0085'
  | '_' => some '\u00a0'
  | 'L' => some '\u2028'
  | 'P' => some '\u2029'
  | _ => none

/-- How many hexadecimal digits follow a letter behind a backslash. -/
def escapeDigits? (c : Char) : Option Nat :=
  match c with
  | 'x' => some 2
  | 'u' => some 4
  | 'U' => some 8
  | _ => none

/-- The character with a certain number, if there is one. -/
def charOf? (n : Nat) : Option Char :=
  if (0xd800 ≤ n && n < 0xe000) || 0x110000 ≤ n then none else some (Char.ofNat n)

/-- The character that an escape stands for, given what follows the backslash, and the number of
characters behind it that belong to the escape. -/
def readEscape : List Char → Option (Char × Nat)
  | [] => none
  | c :: rest =>
    match escapeValue? c, escapeDigits? c with
    | some value, _ => some (value, 1)
    | none, some count =>
      let digits := rest.take count
      if digits.length < count then none
      else match Decimal.spelledNat? 16 digits with
        | some n => (charOf? n).map fun value => (value, count + 1)
        | none => none
    | none, none => none

/-- A word between quotes, what follows it, and whether an escaped line end stands there. -/
def quotedWord (quote : Char) : Nat → Place → Option (List Char × Bool × Place)
  | 0, _ => none
  | fuel + 1, place =>
    let go (c : Char) (count : Nat) : Option (List Char × Bool × Place) :=
      (quotedWord quote fuel (place.skip count)).map fun (word, escaped, after) =>
        (c :: word, escaped, after)
    match place.rest with
    | [] => some ([], false, place)
    | c :: rest =>
      if endsWord (c :: rest) then some ([], false, place)
      else if c == quote then
        if quote == '\x27' && rest.head? == some quote then go quote 2 else some ([], false, place)
      else if c == '\\' && quote == '\x22' then
        match (place.skip 1).takeBreak? with
        | some (_, after) => some ([], true, after)
        | none =>
          match readEscape rest with
          | some (value, count) => go value (count + 1)
          | none => none
      else go c 1

/-- The words of a scalar between quotes and the place behind the closing quote. -/
def quotedFrom (quote : Char) : Nat → List Char → Place → Option (List Char × Place)
  | 0, _, _ => none
  | fuel + 1, sofar, place =>
    if place.atMark || place.rest.isEmpty then none
    else match quotedWord quote (place.rest.length + 1) place with
      | none => none
      | some (word, escaped, after) =>
        let sofar := sofar ++ word
        if after.rest.head? == some quote then some (sofar, after.skip 1)
        else
          let gap := if escaped then Gap.lines none [] else .spaces []
          match readGap 0 after.rest.length gap after with
          | none => none
          | some (gap, next) => quotedFrom quote fuel (sofar ++ gap.folded) next

/-- A scalar between quotes, from its opening quote on. -/
def quoted (quote : Char) (place : Place) : Option (List Char × Place) :=
  quotedFrom quote (place.rest.length + 1) [] (place.skip 1)

/-! ## Block scalars -/

/-- What is kept of the line ends at the end of a block scalar. -/
inductive Chomping where
  | strip
  | clip
  | keep
  deriving DecidableEq, Repr, Inhabited

/-- The chomping that a sign asks for. -/
def chomping? (c : Char) : Option Chomping :=
  match c with
  | '+' => some .keep
  | '-' => some .strip
  | _ => none

/-- The header of a block scalar behind its first character: the chomping, how much deeper the lines
stand if that is said, and the place behind. -/
def blockHeader (place : Place) : Option (Chomping × Nat × Place) :=
  let digit? (p : Place) : Option (Nat × Place) :=
    match p.rest with
    | c :: _ => if c == '0' then none else if c.isDigit then some (c.toNat - 48, p.skip 1) else some (0, p)
    | [] => some (0, p)
  let sign (p : Place) : Chomping × Place :=
    match p.rest.head?.bind chomping? with
    | some chomping => (chomping, p.skip 1)
    | none => (.clip, p)
  match place.rest.head?.bind chomping? with
  | some chomping => (digit? (place.skip 1)).map fun (depth, after) => (chomping, depth, after)
  | none =>
    match digit? place with
    | none => none
    | some (0, after) => some (.clip, 0, after)
    | some (depth, after) =>
      let (chomping, after) := sign after
      some (chomping, depth, after)

/-- The place behind the rest of a line that holds nothing but spaces and a comment. -/
def finishLine (place : Place) : Option Place :=
  let after := place.skipWhile isSpacing
  let after := if after.rest.head? == some '#' then after.skipWhile (!isBreak ·) else after
  if after.rest.isEmpty then some after
  else after.takeBreak?.map Prod.snd

/-- The empty lines before the next line with something on it: their line ends, the place of that
line behind its indentation, and the deepest column that was reached. `indent` limits the indentation
if it is known. -/
def blockBreaks (indent : Option Nat) :
    Nat → Nat → List Char → Place → Option (List Char × Nat × Place)
  | 0, _, _, _ => none
  | fuel + 1, deepest, sofar, place =>
    let room := place.rest.takeWhile (· == ' ')
    let count := match indent with
      | some indent => min room.length (indent - place.column)
      | none => room.length
    let place := place.skip count
    let deepest := max deepest place.column
    let inside : Bool := match indent with
      | some indent => place.column < indent
      | none => true
    if inside && place.rest.head? == some '\t' then none
    else match place.takeBreak? with
      | some (c, after) => blockBreaks indent fuel deepest (sofar ++ [c]) after
      | none => some (sofar, deepest, place)

/-- The lines of a block scalar at a column. `lead` is the line end before the next line, `breaks`
are the ones of empty lines after it, and `indented` says whether the line before started with a
space. -/
def blockLines (folds : Bool) (indent : Nat) (chomping : Chomping) :
    Nat → List Char → Option Char → List Char → Bool → Place → Option (List Char × Place)
  | 0, _, _, _, _, _ => none
  | fuel + 1, sofar, lead, breaks, indented, place =>
    if place.column == indent && !place.rest.isEmpty then
      let blank := (place.rest.head?.map isSpacing).getD false
      let joined :=
        if folds && lead == some '\n' && !indented && !blank then
          if breaks.isEmpty then [' '] else breaks
        else lead.toList ++ breaks
      let line := place.rest.takeWhile (!isBreak ·)
      let after := place.skip line.length
      let (lead, after) := match after.takeBreak? with
        | some (c, next) => (some c, next)
        | none => (none, after)
      match blockBreaks (some indent) (after.rest.length + 1) 0 [] after with
      | none => none
      | some (breaks, _, next) =>
        blockLines folds indent chomping fuel (sofar ++ joined ++ line) lead breaks blank next
    else
      let ending := if chomping = .strip then [] else lead.toList
      let rest := if chomping = .keep then breaks else []
      some (sofar ++ ending ++ rest, place)

/-- A block scalar from its first character on, inside a block at column `parent` if there is one. -/
def block (folds : Bool) (parent : Option Nat) (place : Place) : Option (List Char × Place) :=
  match blockHeader (place.skip 1) with
  | none => none
  | some (chomping, depth, after) =>
    match finishLine after with
    | none => none
    | some start =>
      let indent := if depth = 0 then none else some (parent.getD 0 + depth)
      match blockBreaks indent (start.rest.length + 1) 0 [] start with
      | none => none
      | some (breaks, deepest, first) =>
        let least := max ((parent.map (· + 1)).getD 0) 1
        let indent := indent.getD (max deepest least)
        blockLines folds indent chomping (first.rest.length + 1) [] none breaks false first

end ClassCli.Yaml
