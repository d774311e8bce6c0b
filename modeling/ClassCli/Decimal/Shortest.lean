import ClassCli.Decimal.Binary64

/-!
# The shortest decimal that reads back

A number is written with the fewest digits that round to it again, and of the decimals with that
many digits with the one nearest to it. For a given count of digits only the two neighbours of the
number on that decimal grid can be nearest, so only these are tried.

* **`Shortest.reads`** — a decimal reads back when rounding it gives the number.
* **`Shortest.decimal`** — the digits and the power of ten that the last of them counts.
-/

namespace ClassCli.Decimal.Shortest

/-- A decimal `digits * 10 ^ exponent`. -/
structure Scaled where
  /-- The integer formed by the digits. -/
  digits : Nat
  /-- The power of ten of the last digit. -/
  exponent : Int
  deriving DecidableEq, Repr, Inhabited

/-- The decimal digits of a number, most significant first. -/
def digitsOf (n : Nat) : List Char := Nat.toDigits 10 n

/-- The power of ten of the leading digit of `num / den`, for positive `num` and `den`. -/
def leadingPower (num den : Nat) : Int :=
  let guess : Int := ((digitsOf num).length : Int) - (digitsOf den).length
  if den * Nat.pow 10 guess.toNat ≤ num * Nat.pow 10 (-guess).toNat then guess else guess - 1

/-- Whether a decimal rounds to the number, sign aside. -/
def reads (x : Binary64) (d : Scaled) : Bool :=
  (Binary64.ofDecimal false d.digits d.exponent).magnitude == x.magnitude

/-- The neighbour below a number on the grid of multiples of `10 ^ exponent`. -/
def below (num den : Nat) (exponent : Int) : Nat :=
  num * Nat.pow 10 (-exponent).toNat / (den * Nat.pow 10 exponent.toNat)

/-- Whether the upper of the two neighbours is the nearer one; a tie goes to the even one. -/
def upperNearer (num den low : Nat) (exponent : Int) : Bool :=
  let scaledNum := num * Nat.pow 10 (-exponent).toNat
  let scaledDen := den * Nat.pow 10 exponent.toNat
  let twice := 2 * (scaledNum - low * scaledDen)
  scaledDen < twice || (scaledDen == twice && low % 2 == 1)

/-- The nearest decimal with a given count of digits, if it reads back. -/
def candidate (x : Binary64) (count : Nat) : Option Scaled :=
  let (num, den) := x.ratio
  let exponent := leadingPower num den - (count - 1 : Nat)
  let low := below num den exponent
  let lower : Scaled := ⟨low, exponent⟩
  let upper : Scaled := ⟨low + 1, exponent⟩
  match reads x lower, reads x upper with
  | true, true => some (if upperNearer num den low exponent then upper else lower)
  | true, false => some lower
  | false, true => some upper
  | false, false => none

/-- Moves the zeros at the end of the digits into the exponent. -/
def strip : Nat → Scaled → Scaled
  | 0, d => d
  | fuel + 1, d =>
    if d.digits ≠ 0 ∧ d.digits % 10 = 0 then strip fuel ⟨d.digits / 10, d.exponent + 1⟩ else d

/-- The shortest decimal that reads back to a finite number other than zero. Seventeen digits always
suffice, so the last grid stands for all the rest. -/
def decimal (x : Binary64) : Scaled :=
  let found := ((List.range 17).map (· + 1)).findSome? (candidate x)
  strip 17 (found.getD ⟨0, 0⟩)

end ClassCli.Decimal.Shortest
