import ClassCli.Decimal.Layout
import ClassCli.Text.Printable

/-!
# Literal values

The values that a default or a marker parameter can take without running any code: nothing, truth
values, 64-bit integers, floating-point numbers, strings, and lists of such values.

* **`Literal.same`** — equality with numbers compared by value.
* **`Literal.inspect`** — the form shown in messages, with the kind of every value spelled out.
-/

namespace ClassCli

open Decimal (Binary64)

/-- A value known without running any code. -/
inductive Literal where
  | none
  | bool (value : Bool)
  | int (value : Int64)
  | float (value : Binary64)
  | str (value : String)
  | list (items : List Literal)
  deriving Repr, Inhabited

namespace Literal

/-! ## Equality -/

mutual

/-- Decides equality of values. -/
def decideEq : (x y : Literal) → Decidable (x = y)
  | .none, .none => isTrue rfl
  | .bool a, .bool b =>
    if h : a = b then isTrue (by rw [h]) else isFalse fun e => h (by injection e)
  | .int a, .int b =>
    if h : a = b then isTrue (by rw [h]) else isFalse fun e => h (by injection e)
  | .float a, .float b =>
    if h : a = b then isTrue (by rw [h]) else isFalse fun e => h (by injection e)
  | .str a, .str b =>
    if h : a = b then isTrue (by rw [h]) else isFalse fun e => h (by injection e)
  | .list a, .list b =>
    match decideEqAll a b with
    | isTrue h => isTrue (by rw [h])
    | isFalse h => isFalse fun e => h (by injection e)
  | .none, .bool _ | .none, .int _ | .none, .float _ | .none, .str _ | .none, .list _
  | .bool _, .none | .bool _, .int _ | .bool _, .float _ | .bool _, .str _ | .bool _, .list _
  | .int _, .none | .int _, .bool _ | .int _, .float _ | .int _, .str _ | .int _, .list _
  | .float _, .none | .float _, .bool _ | .float _, .int _ | .float _, .str _ | .float _, .list _
  | .str _, .none | .str _, .bool _ | .str _, .int _ | .str _, .float _ | .str _, .list _
  | .list _, .none | .list _, .bool _ | .list _, .int _ | .list _, .float _ | .list _, .str _ =>
    isFalse (fun e => by injection e)

/-- Decides equality of lists of values. -/
def decideEqAll : (xs ys : List Literal) → Decidable (xs = ys)
  | [], [] => isTrue rfl
  | [], _ :: _ => isFalse (fun e => by injection e)
  | _ :: _, [] => isFalse (fun e => by injection e)
  | x :: xs, y :: ys =>
    match decideEq x y, decideEqAll xs ys with
    | isTrue h, isTrue hs => isTrue (by rw [h, hs])
    | isFalse h, _ => isFalse fun e => h (by injection e)
    | _, isFalse hs => isFalse fun e => hs (by injection e)

end

instance : DecidableEq Literal := decideEq

mutual

/-- Equality with floating-point numbers compared by value. -/
def same : Literal → Literal → Bool
  | .float x, .float y => x.same y
  | .list xs, .list ys => sameAll xs ys
  | .none, .none => true
  | .bool a, .bool b => a == b
  | .int a, .int b => a == b
  | .str a, .str b => a == b
  | _, _ => false

/-- Item by item, the same length included. -/
def sameAll : List Literal → List Literal → Bool
  | [], [] => true
  | x :: xs, y :: ys => same x y && sameAll xs ys
  | _, _ => false

end

/-! ## Text of numbers -/

/-- The decimal text of an integer. -/
def integerText (i : Int) : String :=
  String.ofList ((if i < 0 then ['-'] else []) ++ Decimal.Shortest.digitsOf i.natAbs)

/-- Numbers in messages: positional from `0.0001` up to but not including `1e16`. -/
def numberLayout : Decimal.Layout := ⟨-4, 16, "", "inf", "NaN"⟩

/-- The text of a floating-point number in messages. -/
def floatText (x : Binary64) : String := numberLayout.text x

/-! ## Messages -/

mutual

/-- The value with its kind spelled out, as messages show it. -/
def inspect : Literal → String
  | .none => "None"
  | .bool b => "Bool(" ++ (if b then "true" else "false") ++ ")"
  | .int i => "Int(" ++ integerText i.toInt ++ ")"
  | .float x => "Float(" ++ floatText x ++ ")"
  | .str s => "Str(" ++ Text.quoted s ++ ")"
  | .list items => "List([" ++ Text.joinStrings ", " (inspectAll items) ++ "])"

/-- The shown form of every item. -/
def inspectAll : List Literal → List String
  | [] => []
  | x :: xs => inspect x :: inspectAll xs

end

end Literal

end ClassCli
