/-!
# Binary floating-point numbers as 64-bit words

A number is its word: the sign in bit 63, then eleven exponent bits and fifty-two fraction bits.
Every operation here is exact arithmetic on natural numbers followed by one rounding to the nearest
word, a tie going to the even one, so nothing depends on the machine's own arithmetic.

* **`Binary64.ofRatio`** — the word nearest to a non-negative fraction, with a sign.
* **`Binary64.significand`, `Binary64.power`** — the exact value of a finite word is
  `significand * 2 ^ power`.
* **`Binary64.same`** — numeric equality: the zeros agree and a not-a-number differs from itself.
-/

namespace ClassCli.Decimal

/-- A double-precision number, given by its word. -/
structure Binary64 where
  /-- The word, sign bit first. -/
  bits : UInt64
  deriving DecidableEq, Repr, Inhabited

namespace Binary64

/-! ## Fields of a word -/

/-- The words of non-negative numbers lie below this one. -/
def signWord : Nat := 0x8000000000000000

/-- The word of positive infinity. -/
def infinityWord : Nat := 0x7ff0000000000000

/-- The lowest bit of the exponent, and the leading bit of the significand of all but the smallest words. -/
def leadingBit : Nat := 0x10000000000000

/-- Whether the sign bit is set. -/
def negative (x : Binary64) : Bool := signWord ≤ x.bits.toNat

/-- The word without its sign. -/
def magnitude (x : Binary64) : Nat := x.bits.toNat % signWord

/-- The number with a given sign and unsigned word. -/
def ofMagnitude (negative : Bool) (magnitude : Nat) : Binary64 :=
  ⟨UInt64.ofNat ((if negative then signWord else 0) + magnitude)⟩

/-- Positive or negative zero. -/
def zero (negative : Bool) : Binary64 := ofMagnitude negative 0

/-- Positive or negative infinity. -/
def infinity (negative : Bool) : Binary64 := ofMagnitude negative infinityWord

/-- The quiet not-a-number. -/
def nan : Binary64 := ofMagnitude false (infinityWord + 0x8000000000000)

/-- Whether the word denotes no number. -/
def isNaN (x : Binary64) : Bool := infinityWord < x.magnitude

/-- Whether the word denotes an infinity. -/
def isInfinite (x : Binary64) : Bool := x.magnitude == infinityWord

/-- Whether the word denotes a real number. -/
def isFinite (x : Binary64) : Bool := x.magnitude < infinityWord

/-- Whether the word is one of the two zeros. -/
def isZero (x : Binary64) : Bool := x.magnitude == 0

/-- The integer significand of a finite word: fifty-three bits, or fewer for the smallest words. -/
def significand (x : Binary64) : Nat :=
  if x.magnitude < leadingBit then x.magnitude else leadingBit + x.magnitude % leadingBit

/-- The power of two that the significand counts. -/
def power (x : Binary64) : Int :=
  if x.magnitude < leadingBit then -1074 else (x.magnitude / leadingBit : Nat) - 1075

/-- The absolute value of a finite word as a numerator and a denominator. -/
def ratio (x : Binary64) : Nat × Nat :=
  match x.power with
  | .ofNat e => (x.significand <<< e, 1)
  | .negSucc e => (x.significand, 1 <<< (e + 1))

/-! ## Rounding -/

/-- The integer nearest to `num / den`, a tie going to the even one. -/
def roundHalfEven (num den : Nat) : Nat :=
  let floor := num / den
  let twice := 2 * (num % den)
  if twice < den then floor
  else if den < twice then floor + 1
  else floor + floor % 2

/-- The word of the number nearest to `num / den`, a tie going to the even word. A significand that
rounds up to the next power of two carries into the exponent by itself, because the exponent field
stands above the fraction; a result beyond the largest number is infinity. -/
def roundedMagnitude (num den : Nat) : Nat :=
  if num = 0 then 0 else
    -- the exponent of the leading bit of the quotient, or one more
    let lead : Int := (Nat.log2 num : Int) - Nat.log2 den
    let lead := if den <<< lead.toNat ≤ num <<< (-lead).toNat then lead else lead - 1
    let unit := max (lead - 52) (-1074)
    let significand := roundHalfEven (num <<< (-unit).toNat) (den <<< unit.toNat)
    min ((unit + 1074).toNat * leadingBit + significand) infinityWord

/-- The number nearest to `num / den` with the given sign. -/
def ofRatio (negative : Bool) (num den : Nat) : Binary64 :=
  ofMagnitude negative (roundedMagnitude num den)

/-- The number nearest to `digits * 10 ^ exponent`. -/
def ofDecimal (negative : Bool) (digits : Nat) (exponent : Int) : Binary64 :=
  ofRatio negative (digits * Nat.pow 10 exponent.toNat) (Nat.pow 10 (-exponent).toNat)

/-- The number nearest to a natural number. -/
def ofNat (n : Nat) : Binary64 := ofRatio false n 1

/-! ## Arithmetic and comparison -/

/-- The number with the other sign. -/
def neg (x : Binary64) : Binary64 := ofMagnitude (!x.negative) x.magnitude

/-- The product of two finite numbers. -/
def mul (x y : Binary64) : Binary64 :=
  ofRatio (x.negative != y.negative) (x.ratio.1 * y.ratio.1) (x.ratio.2 * y.ratio.2)

/-- The quotient of two finite numbers, the second of which is not zero. -/
def div (x y : Binary64) : Binary64 :=
  ofRatio (x.negative != y.negative) (x.ratio.1 * y.ratio.2) (x.ratio.2 * y.ratio.1)

/-- Numeric equality: the two zeros are equal, and a not-a-number equals nothing. -/
def same (x y : Binary64) : Bool :=
  !x.isNaN && !y.isNaN && (x == y || (x.isZero && y.isZero))

end Binary64

end ClassCli.Decimal
