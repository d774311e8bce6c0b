import ClassCli.Decimal.Reading

/-!
# What plain scalars stand for

A scalar without quotes can stand for nothing, a truth value or a number instead of a text. Digits
behind a leading zero are a text.

* **`resolve`** — what a plain scalar stands for.
-/

namespace ClassCli.Yaml

open Decimal (Binary64 DecimalText decimalText? spelledNat?)
open Text (afterStart)

/-- What a plain scalar stands for. -/
inductive Resolved where
  | null
  | bool (value : Bool)
  | int (value : Int)
  | float (value : Binary64)
  | text
  deriving Repr, Inhabited

/-- Whether a text starts with a sign. -/
def startsSigned : List Char → Bool
  | c :: _ => c == '+' || c == '-'
  | [] => false

/-- A text without a leading plus sign. -/
def withoutPlus : List Char → List Char
  | '+' :: rest => rest
  | s => s

/-- A text without a leading sign. -/
def withoutSign (s : List Char) : List Char := if startsSigned s then s.drop 1 else s

/-- Whether a text consists of digits behind a leading zero, perhaps with a sign. -/
def isZeroPadded (s : List Char) : Bool :=
  match withoutSign s with
  | '0' :: c :: rest => (c :: rest).all Char.isDigit
  | _ => false

/-- The number that a text with the mark of a base in front spells, below a limit. -/
def markedNat? (limit : Nat) : List Char → Option Nat
  | '0' :: 'x' :: digits => (spelledNat? 16 digits).filter (· < limit)
  | '0' :: 'o' :: digits => (spelledNat? 8 digits).filter (· < limit)
  | '0' :: 'b' :: digits => (spelledNat? 2 digits).filter (· < limit)
  | _ => none

/-- The number that decimal digits spell, below a limit. -/
def decimalNat? (limit : Nat) (s : List Char) : Option Nat := (spelledNat? 10 s).filter (· < limit)

/-- The integer that a text spells; it has to fit in 128 bits. -/
def integer? (s : List Char) : Option Int :=
  let positive := withoutPlus s
  match markedNat? (1 <<< 128) positive with
  | some n => some n
  | none =>
    match s with
    | '-' :: digits =>
      match markedNat? (1 <<< 127 + 1) digits with
      | some n => some (-(n : Int))
      | none =>
        if isZeroPadded s then none
        else (decimalNat? (1 <<< 127 + 1) digits).map fun n => -(n : Int)
    | _ => if isZeroPadded s then none else (decimalNat? (1 <<< 128) positive).map Int.ofNat

/-- The number that a decimal with or without a minus sign denotes, if it is finite. -/
def finite? (s : List Char) : Option Binary64 :=
  let x : Option Binary64 := match s with
    | '-' :: digits => (decimalText? digits).map fun d => d.value.neg
    | digits => (decimalText? digits).map DecimalText.value
  x.filter (·.isFinite)

/-- The spellings of infinity without a sign. -/
def infinitySpellings : List String := [".inf", ".Inf", ".INF"]

/-- The floating-point number that a text spells. -/
def float? (s : List Char) : Option Binary64 :=
  let spelling := String.ofList s
  let positive := withoutPlus s
  if positive != s && startsSigned positive then none
  else if infinitySpellings.contains (String.ofList positive) then some (.infinity false)
  else if (infinitySpellings.map ("-" ++ ·)).contains spelling then some (.infinity true)
  else if [".nan", ".NaN", ".NAN"].contains spelling then some .nan
  else finite? positive

/-- Whether a text spells nothing. -/
def isNull (s : String) : Bool := ["null", "Null", "NULL", "~"].contains s

/-- The truth value that a text spells. -/
def bool? (s : String) : Option Bool :=
  if ["true", "True", "TRUE"].contains s then some true
  else if ["false", "False", "FALSE"].contains s then some false
  else none

/-- What a plain scalar stands for. -/
def resolve (text : String) : Resolved :=
  if text.isEmpty || isNull text then .null
  else match bool? text, integer? text.toList with
    | some b, _ => .bool b
    | none, some i => .int i
    | none, none =>
      if isZeroPadded text.toList then .text
      else match float? text.toList with
        | some x => .float x
        | none => .text

/-- Whether a plain scalar stands for its own text. -/
def Resolved.isText : Resolved → Bool
  | .text => true
  | _ => false

end ClassCli.Yaml
