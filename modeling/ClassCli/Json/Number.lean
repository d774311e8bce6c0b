import ClassCli.Json.Value

/-!
# Reading numbers in JSON

A number without point and exponent that fits in 64 bits is an integer; minus zero is not one. Every
other number is read in three steps: as many digits as fit in 64 bits become a floating-point
number, the others only count, and one multiplication or division by a power of ten gives the result.
The result of these roundings can differ from the nearest number in the last place.

* **`Json.readNumber`** — the number at the front of a text.
-/

namespace ClassCli.Json

open Decimal (Binary64)

/-- Digits that have been taken in, and the power of ten of the last of them. -/
structure Significand where
  digits : Nat
  exponent : Int
  /-- Whether a digit has been left out because the others fill 64 bits. -/
  full : Bool
  deriving Repr, Inhabited

namespace Significand

/-- Takes in a digit before the point, or counts it if there is no room left. -/
def addWhole (n : Significand) (digit : Nat) : Significand :=
  if n.full || 0x10000000000000000 ≤ n.digits * 10 + digit then
    { n with exponent := n.exponent + 1, full := true }
  else { n with digits := n.digits * 10 + digit }

/-- Takes in a digit after the point; the first one without room ends it. -/
def addFraction (n : Significand) (digit : Nat) : Significand :=
  if n.full || 0x10000000000000000 ≤ n.digits * 10 + digit then { n with full := true }
  else { n with digits := n.digits * 10 + digit, exponent := n.exponent - 1 }

end Significand

/-- A power of ten as a floating-point number. -/
def powerOfTen (n : Nat) : Binary64 := Binary64.ofDecimal false 1 n

/-- Scales a number down by a power of ten that is too small for a single division. -/
def scaleDown : Nat → Binary64 → Nat → Binary64
  | 0, x, n => x.div (powerOfTen (min n 308))
  | fuel + 1, x, n =>
    if n ≤ 308 then x.div (powerOfTen n)
    else if x.isZero then x
    else scaleDown fuel (x.div (powerOfTen 308)) (n - 308)

/-- The number of a significand; none if it is too large. -/
def fromParts (negative : Bool) (digits : Nat) (exponent : Int) : Option Binary64 :=
  let x := Binary64.ofNat digits
  let result :=
    if 0 ≤ exponent then
      if 308 < exponent then (if x.isZero then some x else none)
      else
        let y := x.mul (powerOfTen exponent.toNat)
        if y.isInfinite then none else some y
    else some (scaleDown 4 x (-exponent).toNat)
  result.map fun y => if negative then y.neg else y

/-- The value of a digit. -/
def digitOf (c : Char) : Nat := c.toNat - 48

/-- The exponent at the front of a text, after its letter. -/
def readExponent (s : List Char) : Option (Int × List Char) :=
  let (negative, s) := match s with
    | '-' :: rest => (true, rest)
    | '+' :: rest => (false, rest)
    | _ => (false, s)
  let digits := s.takeWhile Char.isDigit
  if digits.isEmpty then none
  else
    let n : Nat := digits.foldl (fun n c => n * 10 + digitOf c) 0
    some (if negative then -(n : Int) else n, s.dropWhile Char.isDigit)

/-- Finishes a number with the exponent that may come next. -/
def finishFloat (negative : Bool) (n : Significand) (s : List Char) :
    Option (Json × List Char) :=
  match s with
  | c :: rest =>
    if c = 'e' || c = 'E' then
      match readExponent rest with
      | none => none
      | some (e, rest) =>
        -- exponents that no 32-bit number holds are settled by the digits alone
        if 0x80000000 ≤ e then
          if n.digits = 0 then some (.float (Binary64.zero negative), rest) else none
        else if e ≤ -0x80000000 then some (.float (Binary64.zero negative), rest)
        else (fromParts negative n.digits (n.exponent + e)).map fun x => (.float x, rest)
    else (fromParts negative n.digits n.exponent).map fun x => (.float x, s)
  | [] => (fromParts negative n.digits n.exponent).map fun x => (.float x, s)

/-- The value of an integer without point and exponent. -/
def integerValue (negative : Bool) (digits : Nat) : Json :=
  if !negative then .int digits
  else if digits = 0 || 0x8000000000000000 < digits then .float (Binary64.ofNat digits).neg
  else .int (-digits)

/-- The number at the front of a text after its sign. -/
def readUnsigned (negative : Bool) (s : List Char) : Option (Json × List Char) :=
  let digits := s.takeWhile Char.isDigit
  let rest := s.dropWhile Char.isDigit
  let leadingZero := digits.head? == some '0' && digits.length != 1
  if digits.isEmpty || leadingZero then none
  else
    let n := digits.foldl (fun n c => n.addWhole (digitOf c)) ⟨0, 0, false⟩
    match rest with
    | '.' :: after =>
      let fraction := after.takeWhile Char.isDigit
      if fraction.isEmpty then none
      else
        let n := fraction.foldl (fun n c => n.addFraction (digitOf c)) { n with full := false }
        finishFloat negative n (after.dropWhile Char.isDigit)
    | c :: _ =>
      if c = 'e' || c = 'E' || n.full then finishFloat negative n rest
      else some (integerValue negative n.digits, rest)
    | [] =>
      if n.full then finishFloat negative n rest else some (integerValue negative n.digits, rest)

/-- The number at the front of a text. -/
def readNumber (s : List Char) : Option (Json × List Char) :=
  match s with
  | '-' :: rest => readUnsigned true rest
  | _ => readUnsigned false s

end ClassCli.Json
