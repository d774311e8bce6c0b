import ClassCli.Yaml.Scalar

/-!
# Tokens of YAML

A text is cut into scalars, indicators and marks for the blocks that its indentation opens and closes.
A scalar or collection turns out to be the name of an entry only when a colon follows it on the same
line, so the places where names could stand are remembered and the marks put in later.

* **`tokens?`** — the tokens of a text; none if it is malformed.
-/

namespace ClassCli.Yaml

/-- A piece of a document. -/
inductive Token where
  | version (major minor : Nat)
  | tagShorthand (handle start : List Char)
  | documentStart
  | documentEnd
  | blockSequenceStart
  | blockMappingStart
  | blockEnd
  | flowSequenceStart
  | flowSequenceEnd
  | flowMappingStart
  | flowMappingEnd
  | blockEntry
  | flowEntry
  | key
  | value
  | alias (name : List Char)
  | anchor (name : List Char)
  | tag (handle suffix : List Char)
  /-- A scalar; `bare` says that it has no quotes and is no block. -/
  | scalar (bare : Bool) (text : List Char)
  deriving DecidableEq, Repr, Inhabited

/-- A place where the name of an entry may have started. -/
structure Candidate where
  /-- Whether nothing else can stand there. -/
  required : Bool
  /-- The number of tokens before it. -/
  position : Nat
  place : Place
  deriving Repr, Inhabited

/-- What has been cut so far and what the rest depends on. -/
structure Lexer where
  place : Place
  /-- The tokens, last one first. -/
  reversed : List Token := []
  /-- The columns of the open blocks, innermost first. -/
  blocks : List Nat := []
  /-- The candidate of each open flow collection, innermost first, and last the one outside them. -/
  candidates : List (Option Candidate) := [none]
  /-- Whether a name can start here. -/
  nameAllowed : Bool := true
  deriving Repr, Inhabited

namespace Lexer

/-! ## State -/

/-- Whether a flow collection is open. -/
def inFlow (l : Lexer) : Bool := 1 < l.candidates.length

/-- Adds a token. -/
def add (l : Lexer) (token : Token) : Lexer := { l with reversed := token :: l.reversed }

/-- Puts a token behind the first ones, as many as `position` says. -/
def putAt (l : Lexer) (position : Nat) (token : Token) : Lexer :=
  let later := l.reversed.length - position
  { l with reversed := l.reversed.take later ++ token :: l.reversed.drop later }

/-- Whether a column is deeper than the innermost block. -/
def isDeeper (l : Lexer) (column : Nat) : Bool :=
  match l.blocks with
  | [] => true
  | block :: _ => block < column

/-- Opens a block at a column unless one is open there; its first token goes to a position. -/
def openBlock (l : Lexer) (column : Nat) (position : Nat) (token : Token) : Lexer :=
  if l.inFlow || !l.isDeeper column then l
  else { l.putAt position token with blocks := column :: l.blocks }

/-- How many blocks are deeper than a column. -/
def deeperThan (column : Nat) (blocks : List Nat) : Nat := (blocks.takeWhile (column < ·)).length

/-- Closes some of the innermost blocks. -/
def closeBlocks (l : Lexer) (count : Nat) : Lexer :=
  { l with
    reversed := List.replicate count Token.blockEnd ++ l.reversed
    blocks := l.blocks.drop count }

/-- Closes the blocks that are deeper than a column. -/
def closeTo (l : Lexer) (column : Nat) : Lexer :=
  if l.inFlow then l else l.closeBlocks (deeperThan column l.blocks)

/-- Closes all blocks. -/
def closeAll (l : Lexer) : Lexer := if l.inFlow then l else l.closeBlocks l.blocks.length

/-- Whether a candidate is on another line or too far away. -/
def isStale (place : Place) (c : Candidate) : Bool :=
  c.place.line < place.line || c.place.index + 1024 < place.index

/-- Drops the candidates that the current place is too far from; a required one must not be lost. -/
def dropStale (l : Lexer) : Option Lexer :=
  let lost (c : Option Candidate) : Bool := (c.map (isStale l.place)).getD false
  if l.candidates.any fun c => lost c && (c.map (·.required)).getD false then none
  else some { l with candidates := l.candidates.map fun c => if lost c then none else c }

/-- Drops the innermost candidate; a required one must not be lost. -/
def dropCandidate (l : Lexer) : Option Lexer :=
  match l.candidates with
  | [] => some l
  | c :: rest =>
    if (c.map (·.required)).getD false then none else some { l with candidates := none :: rest }

/-- Remembers that a name may start here. -/
def saveCandidate (l : Lexer) : Option Lexer :=
  if !l.nameAllowed then some l
  else
    let required := !l.inFlow && l.blocks.head? == some l.place.column
    l.dropCandidate.map fun l =>
      { l with candidates := some ⟨required, l.reversed.length, l.place⟩ :: l.candidates.drop 1 }

/-- Goes on behind some characters. -/
def skip (l : Lexer) (count : Nat) : Lexer := { l with place := l.place.skip count }

/-- Says whether a name can start next. -/
def allow (l : Lexer) (allowed : Bool) : Lexer := { l with nameAllowed := allowed }

/-! ## Between tokens -/

/-- Goes on at the next character that belongs to a token. -/
def skipGap : Nat → Lexer → Lexer
  | 0, l => l
  | fuel + 1, l =>
    let blank (c : Char) : Bool := c == ' ' || (c == '\t' && (l.inFlow || !l.nameAllowed))
    let place := if l.place.index == 0 && l.place.rest.head? == some '\ufeff' then l.place.skip 1
      else l.place
    let place := place.skipWhile blank
    let place := if place.rest.head? == some '#' then place.skipWhile (!isBreak ·) else place
    match place.takeBreak? with
    | some (_, next) => skipGap fuel { l with place := next, nameAllowed := l.nameAllowed || !l.inFlow }
    | none => { l with place }

/-! ## Tokens -/

/-- A mark of a document, which closes all blocks. -/
def documentMark (l : Lexer) (token : Token) : Option Lexer :=
  l.closeAll.dropCandidate.map fun l => ((l.allow false).skip 3).add token

/-- The version that a directive names, and the place behind it. -/
def readVersion (place : Place) : Option (Token × Place) :=
  let place := place.skipWhile isSpacing
  let number (place : Place) : Option (Nat × Place) :=
    let digits := place.rest.takeWhile Char.isDigit
    if 9 < digits.length then none
    else (Decimal.spelledNat? 10 digits).map fun n => (n, place.skip digits.length)
  match number place with
  | none => none
  | some (major, place) =>
    if place.rest.head? != some '.' then none
    else (number (place.skip 1)).map fun (minor, place) => (.version major minor, place)

/-- The characters of a tag apart from escapes. Flow indicators stand only in tags between angle
brackets. -/
def isTagChar (bracketed : Bool) (c : Char) : Bool :=
  isNameChar c || ";/?:@&=+$.!~*'()".toList.contains c
    || (bracketed && (c == ',' || c == '[' || c == ']'))

/-- The bytes that escapes of two hexadecimal digits at the front of a text spell, and the number of
characters. -/
def escapedBytes : List Char → List UInt8 × Nat
  | '%' :: a :: b :: rest =>
    match Decimal.spelledNat? 16 [a, b] with
    | some n =>
      let (bytes, count) := escapedBytes rest
      (UInt8.ofNat n :: bytes, count + 3)
    | none => ([], 0)
  | _ => ([], 0)

/-- The text of a tag and the number of characters it takes; none if an escape in it is malformed. -/
def tagText (bracketed : Bool) : Nat → List Char → Option (List Char × Nat)
  | 0, _ => none
  | fuel + 1, s =>
    match s with
    | [] => some ([], 0)
    | c :: rest =>
      if c == '%' then
        let (bytes, count) := escapedBytes s
        if count = 0 then none
        else match String.fromUTF8? ⟨bytes.toArray⟩ with
          | none => none
          | some text => (tagText bracketed fuel (s.drop count)).map fun (more, length) =>
              (text.toList ++ more, length + count)
      else if isTagChar bracketed c then
        (tagText bracketed fuel rest).map fun (more, length) => (c :: more, length + 1)
      else some ([], 0)

/-- The handle of a tag: an exclamation mark, and perhaps a name and another one. -/
def tagHandle (s : List Char) : List Char :=
  let name := (s.drop 1).takeWhile isNameChar
  let ending := if (s.drop (1 + name.length)).head? == some '!' then ['!'] else []
  '!' :: name ++ ending

/-- The shorthand that a directive defines, and the place behind it. -/
def readShorthand (place : Place) : Option (Token × Place) :=
  let place := place.skipWhile isSpacing
  if place.rest.head? != some '!' then none
  else
    let handle := tagHandle place.rest
    if handle.length != 1 && handle.getLast? != some '!' then none
    else
      let place := place.skip handle.length
      if (place.rest.head?.map isSpacing) != some true then none
      else
        let place := place.skipWhile isSpacing
        match tagText true (place.rest.length + 1) place.rest with
        | none => none
        | some (start, count) =>
          let place := place.skip count
          if count = 0 || !endsWord place.rest then none
          else some (.tagShorthand handle start, place)

/-- A directive, which stands on a line of its own. -/
def directive (l : Lexer) : Option Lexer :=
  match l.closeAll.dropCandidate with
  | none => none
  | some l =>
    let start := l.place.skip 1
    let name := start.rest.takeWhile isNameChar
    let place := start.skip name.length
    let read := if !endsWord place.rest then none
      else if name == "YAML".toList then readVersion place
      else if name == "TAG".toList then readShorthand place
      else none
    match read with
    | none => none
    | some (token, place) =>
      (finishLine place).map fun next => ({ l with place := next, nameAllowed := false }).add token

/-- The start of a flow collection. -/
def openFlow (l : Lexer) (token : Token) : Option Lexer :=
  l.saveCandidate.map fun l =>
    ((({ l with candidates := none :: l.candidates }).allow true).skip 1).add token

/-- The end of a flow collection. -/
def closeFlow (l : Lexer) (token : Token) : Option Lexer :=
  l.dropCandidate.map fun l =>
    let candidates := if l.inFlow then l.candidates.drop 1 else l.candidates
    ((({ l with candidates }).allow false).skip 1).add token

/-- The comma between items of a flow collection. -/
def flowEntry (l : Lexer) : Option Lexer :=
  l.dropCandidate.map fun l => ((l.allow true).skip 1).add .flowEntry

/-- The hyphen before an item of a block. -/
def blockEntry (l : Lexer) : Option Lexer :=
  if !l.inFlow && !l.nameAllowed then none
  else
    let l := l.openBlock l.place.column l.reversed.length .blockSequenceStart
    l.dropCandidate.map fun l => ((l.allow true).skip 1).add .blockEntry

/-- The question mark before a name. -/
def key (l : Lexer) : Option Lexer :=
  if !l.inFlow && !l.nameAllowed then none
  else
    let l := l.openBlock l.place.column l.reversed.length .blockMappingStart
    l.dropCandidate.map fun l => ((l.allow !l.inFlow).skip 1).add .key

/-- The colon behind a name. -/
def value (l : Lexer) : Option Lexer :=
  match l.candidates with
  | some c :: rest =>
    let l := (l.putAt c.position .key).openBlock c.place.column c.position .blockMappingStart
    some (((({ l with candidates := none :: rest }).allow false).skip 1).add .value)
  | _ =>
    if !l.inFlow && !l.nameAllowed then none
    else
      let l := l.openBlock l.place.column l.reversed.length .blockMappingStart
      some (((l.allow !l.inFlow).skip 1).add .value)

/-- An alias or an anchor: a name behind an indicator. -/
def named (l : Lexer) (token : List Char → Token) : Option Lexer :=
  match l.saveCandidate with
  | none => none
  | some l =>
    let name := (l.place.rest.drop 1).takeWhile isNameChar
    let place := l.place.skip (1 + name.length)
    let ends := endsWord place.rest
      || (place.rest.head?.map fun c => "?:,]\x7d%@\x60".toList.contains c).getD false
    if name.isEmpty || !ends then none
    else some (({ l with place, nameAllowed := false }).add (token name))

/-- The handle and the suffix of a tag, and the number of characters that it takes. -/
def readTag (s : List Char) : Option (List Char × List Char × Nat) :=
  match s with
  | '!' :: '<' :: rest =>
    match tagText true (rest.length + 1) rest with
    | none => none
    | some (suffix, count) =>
      if count = 0 || (rest.drop count).head? != some '>' then none
      else some ([], suffix, count + 3)
  | _ =>
    let handle := tagHandle s
    let rest := s.drop handle.length
    match tagText false (rest.length + 1) rest with
    | none => none
    | some (suffix, count) =>
      if 1 < handle.length && handle.getLast? == some '!' then
        if count = 0 then none else some (handle, suffix, handle.length + count)
      else
        let suffix := handle.drop 1 ++ suffix
        if suffix.isEmpty then some ([], ['!'], handle.length + count)
        else some (['!'], suffix, handle.length + count)

/-- A tag. -/
def tag (l : Lexer) : Option Lexer :=
  match l.saveCandidate with
  | none => none
  | some l =>
    match readTag l.place.rest with
    | none => none
    | some (handle, suffix, count) =>
      let place := l.place.skip count
      if endsWord place.rest || (l.inFlow && place.rest.head? == some ',') then
        some (({ l with place, nameAllowed := false }).add (.tag handle suffix))
      else none

/-- A scalar between quotes. -/
def quotedScalar (l : Lexer) (quote : Char) : Option Lexer :=
  match l.saveCandidate with
  | none => none
  | some l =>
    (quoted quote l.place).map fun (text, place) =>
      ({ l with place, nameAllowed := false }).add (.scalar false text)

/-- A block scalar. -/
def blockScalar (l : Lexer) (folds : Bool) : Option Lexer :=
  match l.dropCandidate with
  | none => none
  | some l =>
    (block folds l.blocks.head? l.place).map fun (text, place) =>
      ({ l with place, nameAllowed := true }).add (.scalar false text)

/-- A scalar without quotes. -/
def plainScalar (l : Lexer) : Option Lexer :=
  match l.saveCandidate with
  | none => none
  | some l =>
    let margin := (l.blocks.head?.map (· + 1)).getD 0
    (plain l.inFlow margin l.place).map fun (text, crossed, place) =>
      ({ l with place, nameAllowed := crossed }).add (.scalar true text)

/-- The characters that a scalar without quotes cannot start with. -/
def isIndicator (c : Char) : Bool := "-?:,[]\x7b\x7d#&*!|>'\"%@\x60".toList.contains c

/-- Whether a scalar without quotes starts here. A hyphen, and outside flow collections a question
mark or colon, starts one if it does not stand alone. -/
def startsPlain (inFlow : Bool) : List Char → Bool
  | [] => false
  | c :: rest =>
    !(endsWord (c :: rest) || isIndicator c)
      || (c == '-' && !(rest.head?.map isSpacing).getD false)
      || (!inFlow && (c == '?' || c == ':') && !endsWord rest)

/-- The next token. -/
def next (l : Lexer) : List Char → Option Lexer
  | [] => none
  | c :: rest =>
    let atStart := l.place.column == 0
    if atStart && c == '%' then l.directive
    else if atStart && startsTriple '-' (c :: rest) then l.documentMark .documentStart
    else if atStart && startsTriple '.' (c :: rest) then l.documentMark .documentEnd
    else match c with
      | '[' => l.openFlow .flowSequenceStart
      | '\x7b' => l.openFlow .flowMappingStart
      | ']' => l.closeFlow .flowSequenceEnd
      | '\x7d' => l.closeFlow .flowMappingEnd
      | ',' => l.flowEntry
      | '*' => l.named .alias
      | '&' => l.named .anchor
      | '!' => l.tag
      | '\x27' => l.quotedScalar '\x27'
      | '\x22' => l.quotedScalar '\x22'
      | c =>
        if c == '-' && endsWord rest then l.blockEntry
        else if c == '?' && (l.inFlow || endsWord rest) then l.key
        else if c == ':' && (l.inFlow || endsWord rest) then l.value
        else if c == '|' && !l.inFlow then l.blockScalar false
        else if c == '>' && !l.inFlow then l.blockScalar true
        else if startsPlain l.inFlow (c :: rest) then l.plainScalar
        else none

/-- Cuts the rest of a text. -/
def run : Nat → Lexer → Option Lexer
  | 0, _ => none
  | fuel + 1, l =>
    match (skipGap (l.place.rest.length + 1) l).dropStale with
    | none => none
    | some l =>
      let l := l.closeTo l.place.column
      if l.place.rest.isEmpty then l.closeAll.dropCandidate
      else match l.next l.place.rest with
        | none => none
        | some l => run fuel l

end Lexer

/-- The tokens of a text. -/
def tokens? (text : String) : Option (List Token) :=
  let s := text.toList
  let s := if s.head? == some '\ufeff' then s.drop 1 else s
  if !s.all isAllowed then none
  else (Lexer.run (s.length + 2) { place := { rest := s } }).map (·.reversed.reverse)

end ClassCli.Yaml
