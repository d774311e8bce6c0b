import ClassCli.Decimal.Binary64
import ClassCli.Text.Basic

/-!
# Reading numbers

* **`spelledNat?`** — the number that digits spell in a base.
* **`decimalText?`**, **`DecimalText.value`** — the floating-point number nearest to a decimal.
-/

namespace ClassCli.Decimal

open Text (cut)

/-- The value of a digit in any base. -/
def digitValue (c : Char) : Nat :=
  if c.isDigit then c.toNat - 48
  else if 'a' ≤ c && c ≤ 'z' then c.toNat - 87
  else if 'A' ≤ c && c ≤ 'Z' then c.toNat - 55
  else 36

/-- The number that digits spell in a base, if all are digits of it and there is one at least. -/
def spelledNat? (base : Nat) (s : List Char) : Option Nat :=
  if s.isEmpty || s.any (fun c => base ≤ digitValue c) then none
  else some (s.foldl (fun n c => n * base + digitValue c) 0)

/-- A decimal with the place of its point settled: its digits and the power of ten of the last. -/
structure DecimalText where
  digits : List Char
  exponent : Int

/-- The exponent that stands after the letter `e`. -/
def exponentOf? (s : List Char) : Option Int :=
  match s with
  | '-' :: digits => (spelledNat? 10 digits).map fun n => -(n : Int)
  | '+' :: digits => (spelledNat? 10 digits).map Int.ofNat
  | digits => (spelledNat? 10 digits).map Int.ofNat

/-- The digits and the exponent of a decimal without a sign. -/
def decimalText? (s : List Char) : Option DecimalText :=
  let (mantissa, power) := cut (fun c => c == 'e' || c == 'E') s
  let exponent := match power with
    | [] => some 0
    | _ :: digits => exponentOf? digits
  let (whole, point) := cut (· == '.') mantissa
  let fraction := point.drop 1
  let digits := whole ++ fraction
  match exponent with
  | none => none
  | some e =>
    if digits.isEmpty || !digits.all Char.isDigit then none
    else some ⟨digits, e - fraction.length⟩

/-- The number nearest to a decimal. An exponent far beyond the range of the format is not worked
out digit by digit. -/
def DecimalText.value (d : DecimalText) : Binary64 :=
  let n := d.digits.foldl (fun n c => n * 10 + digitValue c) 0
  let lead := d.exponent + d.digits.length
  if n = 0 then Binary64.zero false
  else if d.digits.length + 400 < d.exponent then Binary64.infinity false
  else if lead < -400 then Binary64.zero false
  else Binary64.ofDecimal false n d.exponent

end ClassCli.Decimal
