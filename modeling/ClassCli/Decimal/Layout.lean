import ClassCli.Decimal.Shortest

/-!
# Laying out a decimal as text

The digits of a number are settled by `Shortest`; a format only decides where positional notation
ends, how an exponent is written and which words stand for the values that have no digits. A format
is one record, and each output of the program names its own.

* **`Layout.text`** — the text of a number in a format.
-/

namespace ClassCli.Decimal

/-- How a format writes numbers. -/
structure Layout where
  /-- The least power of ten of the leading digit that is written positionally. -/
  leastPositional : Int
  /-- The first power of ten of the leading digit that is written with an exponent again. -/
  firstScientific : Int
  /-- What stands before an exponent that is not negative. -/
  exponentPlus : String
  /-- The text of infinity, without a sign. -/
  infinity : String
  /-- The text of a value that is not a number. -/
  notANumber : String

namespace Layout

/-- Positional notation, with at least one digit on either side of the point. -/
def positional (digits : List Char) (exponent : Int) : List Char :=
  if 0 ≤ exponent then
    digits ++ List.replicate exponent.toNat '0' ++ ['.', '0']
  else
    let places := (-exponent).toNat
    if places < digits.length then
      digits.take (digits.length - places) ++ '.' :: digits.drop (digits.length - places)
    else
      '0' :: '.' :: List.replicate (places - digits.length) '0' ++ digits

/-- Scientific notation: one digit, the others after a point, then the exponent. -/
def scientific (layout : Layout) (digits : List Char) (lead : Int) : List Char :=
  let mantissa := match digits with
    | [] => []
    | [d] => [d]
    | d :: ds => d :: '.' :: ds
  let mark := if lead < 0 then ['-'] else layout.exponentPlus.toList
  mantissa ++ 'e' :: mark ++ Shortest.digitsOf lead.natAbs

/-- The text of a number. -/
def text (layout : Layout) (x : Binary64) : String :=
  if x.isNaN then layout.notANumber else
    let sign := if x.negative then ['-'] else []
    let body :=
      if x.isInfinite then layout.infinity.toList
      else if x.isZero then ['0', '.', '0']
      else
        let d := Shortest.decimal x
        let digits := Shortest.digitsOf d.digits
        let lead := d.exponent + (digits.length - 1 : Nat)
        if layout.leastPositional ≤ lead && lead < layout.firstScientific then
          positional digits d.exponent
        else
          layout.scientific digits lead
    String.ofList (sign ++ body)

end Layout

end ClassCli.Decimal
