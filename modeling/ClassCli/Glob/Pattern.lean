import ClassCli.Literal
import ClassCli.Text.Basic

/-!
# Patterns of names

A question mark stands for one character, a star for any number of characters, and brackets for one
character of a set. Two stars that are a whole component of a path stand for any number of directories.

* **`Pattern.ofText`** — the pattern of a text, or where the text is wrong.
* **`Pattern.fits`** — whether a name fits a pattern.
-/

namespace ClassCli.Glob

/-! ## Faults -/

/-- What is wrong in a pattern. -/
inductive PatternFaultKind where
  /-- More than two stars in a row. -/
  | tooManyStars
  /-- Two stars beside something else. -/
  | starsInComponent
  /-- Brackets that are not closed or hold nothing. -/
  | brackets
  deriving DecidableEq, Repr, Inhabited

/-- What is wrong in a pattern, and at which character. -/
structure PatternFault where
  kind : PatternFaultKind
  position : Nat
  deriving DecidableEq, Repr, Inhabited

/-- What is wrong, in words. -/
def PatternFaultKind.message : PatternFaultKind → String
  | .tooManyStars => "wildcards are either regular \x60*\x60 or recursive \x60**\x60"
  | .starsInComponent => "recursive wildcards must form a single path component"
  | .brackets => "invalid range pattern"

/-- The wording of a fault. -/
def PatternFault.message (fault : PatternFault) : String :=
  "Pattern syntax error near position " ++ Literal.integerText fault.position ++ ": "
    ++ fault.kind.message

/-! ## Patterns -/

/-- What a part of a pattern stands for. -/
inductive Wildcard where
  | char (c : Char)
  | anyChar
  | anyText
  /-- Any number of directories. -/
  | anyDepth
  /-- A character between the ends of one of several ranges. -/
  | oneOf (ranges : List (Char × Char))
  /-- A character between the ends of none of several ranges. -/
  | noneOf (ranges : List (Char × Char))
  deriving DecidableEq, Repr, Inhabited

/-- A pattern. -/
abbrev Pattern := List Wildcard

/-- The ranges that the characters between brackets name; a single character is a range of its own. -/
def rangesOf : List Char → List (Char × Char)
  | first :: '-' :: last :: rest => (first, last) :: rangesOf rest
  | c :: rest => (c, c) :: rangesOf rest
  | [] => []

/-- Cuts before the first closing bracket that is not the first character. -/
def cutBrackets : List Char → Option (List Char × List Char)
  | [] => none
  | first :: rest =>
    match Text.splitOnce ']' rest with
    | some (inner, behind) => some (first :: inner, behind)
    | none => none

/-- The set that starts behind an opening bracket, and what stands behind it. -/
def bracketsOf : List Char → Option (Wildcard × List Char)
  | '!' :: rest => (cutBrackets rest).map fun (inner, behind) => (.noneOf (rangesOf inner), behind)
  | rest => (cutBrackets rest).map fun (inner, behind) => (.oneOf (rangesOf inner), behind)

/-- The pattern of the rest of a text that starts at a position; `before` is the character there. Every
step takes a character away, so that `fuel` need not exceed the length of the rest. -/
def patternFrom : Nat → Nat → Option Char → List Char → Except PatternFault Pattern
  | 0, _, _, _ => .ok []
  | _ + 1, _, _, [] => .ok []
  | fuel + 1, position, _, '?' :: rest =>
    (patternFrom fuel (position + 1) (some '?') rest).map (.anyChar :: ·)
  | fuel + 1, position, _, '[' :: rest =>
    match bracketsOf rest with
    | some (set, behind) =>
      (patternFrom fuel (position + 1 + (rest.length - behind.length)) (some ']') behind).map
        (set :: ·)
    | none => .error ⟨.brackets, position⟩
  | fuel + 1, position, before, '*' :: rest =>
    let behind := rest.dropWhile (· == '*')
    match rest.length - behind.length with
    | 0 => (patternFrom fuel (position + 1) (some '*') rest).map (.anyText :: ·)
    | 1 =>
      if before.all (· == '/') then
        match behind with
        | [] => .ok [.anyDepth]
        | '/' :: behind => (patternFrom fuel (position + 3) (some '/') behind).map (.anyDepth :: ·)
        | _ => .error ⟨.starsInComponent, position + 2⟩
      else .error ⟨.starsInComponent, position - 1⟩
    | _ => .error ⟨.tooManyStars, position + 2⟩
  | fuel + 1, position, _, c :: rest =>
    (patternFrom fuel (position + 1) (some c) rest).map (.char c :: ·)

/-- The pattern of a text. -/
def Pattern.ofText (text : List Char) : Except PatternFault Pattern :=
  patternFrom text.length 0 none text

/-! ## Fitting -/

/-- What is left of a list after any number of first items. -/
def remainders {α : Type} : List α → List (List α)
  | [] => [[]]
  | x :: xs => (x :: xs) :: remainders xs

/-- Whether a character lies in one of several ranges. -/
def inRanges (ranges : List (Char × Char)) (c : Char) : Bool :=
  ranges.any fun (first, last) => first ≤ c && c ≤ last

/-- Whether a part of a pattern stands for a single character. -/
def Wildcard.accepts : Wildcard → Char → Bool
  | .char c, d => c == d
  | .anyChar, _ => true
  | .oneOf ranges, d => inRanges ranges d
  | .noneOf ranges, d => !inRanges ranges d
  | .anyText, _ | .anyDepth, _ => false

/-- Whether a name fits a pattern. -/
def Pattern.fits : Pattern → List Char → Bool
  | [], name => name.isEmpty
  | .anyText :: rest, name => (remainders name).any fun name => fits rest name
  | .anyDepth :: rest, name => (remainders name).any fun name => fits rest name
  | _ :: _, [] => false
  | part :: rest, c :: name => part.accepts c && fits rest name

/-- The name that a pattern without wildcards stands for. -/
def Pattern.plain? : Pattern → Option (List Char)
  | [] => some []
  | .char c :: rest => (plain? rest).map (c :: ·)
  | _ => none

end ClassCli.Glob
