import ClassCli.Proofs.Code.LegalText
import ClassCli.Proofs.Code.StringReading
import ClassCli.Proofs.Source.WrittenExpressions

/-!
# What written values stand for

The text of a value is an expression of Python: a word, a number, a quoted text, a call where Python has no literal,
or a list of such expressions. Python evaluates it to the value.

* **`Stands`** — the expressions that stand for a value.
* **`written_literal`** — the text of a value is such an expression.
* **`evaluate?`**, **`evaluate?_of_stands`** — what Python makes of it.
-/

namespace ClassCli.Code

open Decimal (Binary64 DecimalText WrittenDecimal decimalText? spelledNat?)
open Decimal.Binary64 (ofMagnitude)
open Decimal.Shortest (digitsOf)
open Source (Expr Written written_call written_decimal written_digits written_list written_minus written_quote written_word)
open StringReading (CharNames denote? points)

/-! ## Expressions that stand for values -/

/-- The expressions that stand for a value. A negative number is a sign in front of a number. -/
inductive Stands : Literal → Expr → Prop
  | none : Stands .none .none
  | bool (value : Bool) : Stands (.bool value) (.truth value)
  | int {i : Int64} (hi : 0 ≤ i.toInt) : Stands (.int i) (.integer (String.ofList (digitsOf i.toInt.natAbs)))
  | negativeInt {i : Int64} {text : String} (hi : i.toInt < 0) :
      Stands (.int i) (.unary "-" (.integer (String.ofList (digitsOf i.toInt.natAbs))) text)
  | float {x : Binary64} {w : WrittenDecimal} (hx : x.isFinite = true) (hsign : x.negative = false)
      (hvalue : DecimalText.value ⟨w.digits, w.exponent⟩ = ofMagnitude false x.magnitude) :
      Stands (.float x) (.float (String.ofList w.chars))
  | negativeFloat {x : Binary64} {w : WrittenDecimal} {text : String} (hx : x.isFinite = true)
      (hsign : x.negative = true)
      (hvalue : DecimalText.value ⟨w.digits, w.exponent⟩ = ofMagnitude false x.magnitude) :
      Stands (.float x) (.unary "-" (.float (String.ofList w.chars)) text)
  | nan {x : Binary64} {text : String} (hx : x.isNaN = true) :
      Stands (.float x) (.call (.name "float") [.string [quote "nan"] text])
  | infinity {x : Binary64} {text : String} (hx : x.isInfinite = true) (hsign : x.negative = false) :
      Stands (.float x) (.call (.name "float") [.string [quote "inf"] text])
  | negativeInfinity {x : Binary64} {text text' : String} (hx : x.isInfinite = true) (hsign : x.negative = true) :
      Stands (.float x) (.unary "-" (.call (.name "float") [.string [quote "inf"] text]) text')
  | str {value text : String} (hvalue : NoNull value) : Stands (.str value) (.string [quote value] text)
  | list {items : List Literal} {xs : List Expr} (h : List.Forall₂ Stands items xs) : Stands (.list items) (.list xs)

/-! ## Texts of values -/

theorem written_integerText (i : Int64) : Written (Literal.integerText i.toInt).toList (Stands (.int i)) := by
  rw [Literal.integerText, String.toList_ofList]
  split
  · rename_i hi
    refine (written_minus (written_digits _)).imp ?_
    rintro x ⟨operand, text, rfl, rfl⟩
    exact .negativeInt hi
  · rename_i hi
    refine (written_digits _).imp ?_
    rintro x rfl
    exact .int (Int.not_lt.mp hi)

/-- The call that Python has instead of a literal. -/
theorem written_floatCall (word : String) (h : NoNull word) :
    Written ("float(".toList ++ ((quote word).toList ++ [')']))
      (fun x => ∃ text, x = .call (.name "float") [.string [quote word] text]) := by
  have hargument : ∀ s ∈ [word], Source.WrittenArgument (quote s).toList
      (fun x => ∃ text, x = .string [quote s] text) := by
    intro s hs
    rw [List.mem_singleton.mp hs]
    exact (written_quote h).argument
  have hcall := written_call "float" (by decide +kernel) (by decide) (by decide) hargument
  have hopening : "float(".toList = "float".toList ++ ['('] := by decide +kernel
  rw [hopening, List.append_assoc, List.singleton_append]
  refine hcall.imp ?_
  rintro x ⟨xs, rfl, hxs⟩
  rcases hxs with _ | ⟨⟨text, rfl⟩, _ | _⟩
  exact ⟨text, rfl⟩

theorem written_number (x : Binary64) : Written (number x).toList (Stands (.float x)) := by
  unfold number
  split
  · rename_i hnan
    refine (written_floatCall "nan" (by decide)).imp ?_
    rintro y ⟨text, rfl⟩
    exact .nan hnan
  split
  · rename_i hinfinite
    cases hsign : x.negative with
    | true =>
      refine (written_minus (written_floatCall "inf" (by decide))).imp ?_
      rintro y ⟨operand, text', rfl, text, rfl⟩
      exact .negativeInfinity hinfinite hsign
    | false =>
      refine (written_floatCall "inf" (by decide)).imp ?_
      rintro y ⟨text, rfl⟩
      exact .infinity hinfinite hsign
  · rename_i hnan hinfinite
    have hfinite : x.isFinite = true := by
      simp only [Binary64.isNaN, Binary64.isInfinite, Binary64.isFinite, decide_eq_true_iff, beq_iff_eq] at *
      omega
    obtain ⟨w, hform, htext, hvalue⟩ := Decimal.exists_written hfinite
    have hdecimal := written_decimal hform
    rw [htext]
    cases hsign : x.negative with
    | true =>
      refine (written_minus hdecimal).imp ?_
      rintro y ⟨operand, text, rfl, rfl⟩
      exact .negativeFloat hfinite hsign hvalue
    | false =>
      refine hdecimal.imp ?_
      rintro y rfl
      exact .float hfinite hsign hvalue

theorem literals_eq_map (items : List Literal) : literals items = items.map literal := by
  induction items with
  | nil => rfl
  | cons x xs ih => rw [literals, ih, List.map_cons]

mutual

/-- **The text of a value is an expression that stands for it**, if its strings have no null characters. -/
theorem written_literal : ∀ value : Literal, (∀ text ∈ value.strings, NoNull text) →
    Written (literal value).toList (Stands value)
  | .none, _ => by
    refine (written_word "None" (by decide +kernel) Source.reads_none).imp ?_
    rintro x rfl
    exact .none
  | .bool true, _ => by
    refine (written_word "True" (by decide +kernel) Source.reads_true).imp ?_
    rintro x rfl
    exact .bool true
  | .bool false, _ => by
    refine (written_word "False" (by decide +kernel) Source.reads_false).imp ?_
    rintro x rfl
    exact .bool false
  | .int i, _ => by
    rw [literal]
    exact written_integerText i
  | .float x, _ => by
    rw [literal]
    exact written_number x
  | .str s, h => by
    have hs : NoNull s := h s (by rw [Literal.strings]; exact List.mem_singleton_self s)
    rw [literal]
    refine (written_quote hs).imp ?_
    rintro x ⟨text, rfl⟩
    exact .str hs
  | .list items, h => by
    rw [Literal.strings] at h
    have hlist := written_list (fun value => (literal value).toList) (written_literals items h)
    have htext : (literal (.list items)).toList
        = '[' :: (Text.join [',', ' '] (items.map fun value => (literal value).toList) ++ [']']) := by
      rw [literal, literals_eq_map, Text.joinStrings, List.map_map]
      simp
      rfl
    rw [htext]
    refine hlist.imp ?_
    rintro x ⟨xs, rfl, hxs⟩
    exact .list hxs

/-- The texts of values are expressions that stand for them. -/
theorem written_literals : ∀ items : List Literal, (∀ text ∈ Literal.stringsAll items, NoNull text) →
    ∀ value ∈ items, Written (literal value).toList (Stands value)
  | [], _, _, hvalue => absurd hvalue List.not_mem_nil
  | x :: xs, h, value, hvalue => by
    rw [Literal.stringsAll] at h
    rcases List.mem_cons.mp hvalue with hvalue | hvalue
    · rw [hvalue]
      exact written_literal x fun text ht => h text (List.mem_append_left _ ht)
    · exact written_literals xs (fun text ht => h text (List.mem_append_right _ ht)) value hvalue

end

/-! ## Values of Python -/

/-- A value of Python. A string is a sequence of code points, and there is one number that is none. -/
inductive PythonValue where
  | none
  | bool (value : Bool)
  | int (value : ℤ)
  | float (value : Binary64)
  | str (value : List ℕ)
  | list (items : List PythonValue)
  /-- A type that is known by name. -/
  | type (name : String)
  deriving Repr, Inhabited

/-- The types that are known by name. -/
def typeNames : List String := ["int", "float", "str", "bool"]

mutual

/-- What an expression is evaluated to, if it is made of literals, signs, the names of types, and calls that make
numbers of strings. -/
def evaluate? (names : CharNames) : Expr → Option PythonValue
  | .none => some .none
  | .truth value => some (.bool value)
  | .integer text => (spelledNat? 10 text.toList).map fun n => .int n
  | .float text => (decimalText? text.toList).map fun d => .float d.value
  | .string parts _ => (denote? names parts).map .str
  | .unary "-" operand _ =>
    match evaluate? names operand with
    | some (.int i) => some (.int (-i))
    | some (.float x) => some (.float x.neg)
    | _ => none
  | .call (.name "float") [.string parts _] =>
    match denote? names parts with
    | some value =>
      if value = points "nan".toList then some (.float .nan)
      else if value = points "inf".toList then some (.float (.infinity false))
      else none
    | none => none
  | .name name => if name ∈ typeNames then some (.type name) else none
  | .list items => (evaluateAll? names items).map .list
  | _ => none

/-- What expressions are evaluated to. -/
def evaluateAll? (names : CharNames) : List Expr → Option (List PythonValue)
  | [] => some []
  | x :: xs =>
    match evaluate? names x, evaluateAll? names xs with
    | some value, some values => some (value :: values)
    | _, _ => none

end

end ClassCli.Code

namespace ClassCli.Literal

open Code (PythonValue)

mutual

/-- The value of Python that a literal is. -/
def value : Literal → PythonValue
  | .none => .none
  | .bool b => .bool b
  | .int i => .int i.toInt
  | .float x => .float (if x.isNaN then .nan else x)
  | .str s => .str (Code.StringReading.points s.toList)
  | .list items => .list (values items)

/-- The values of literals. -/
def values : List Literal → List PythonValue
  | [] => []
  | x :: xs => value x :: values xs

end

end ClassCli.Literal

namespace ClassCli.Code

open Decimal (Binary64)
open Decimal.Shortest (digitsOf)
open Source (Expr)
open StringReading (CharNames denote? points)

variable {names : CharNames}

theorem value_float {x : Binary64} (h : x.isNaN = false) : (Literal.float x).value = .float x := by
  rw [Literal.value, h]
  rfl

theorem evaluate?_digits (n : ℕ) : evaluate? names (.integer (String.ofList (digitsOf n))) = some (.int n) := by
  rw [evaluate?, String.toList_ofList,
    Decimal.spelledNat?_digits (Decimal.digitsOf_ne_nil n) (Decimal.areDigits_digitsOf n), Decimal.spelled_digitsOf]
  rfl

theorem evaluate?_chars (w : Decimal.WrittenDecimal) :
    evaluate? names (.float (String.ofList w.chars)) = some (.float (Decimal.DecimalText.value ⟨w.digits, w.exponent⟩)) := by
  rw [evaluate?, String.toList_ofList, w.decimalText?_chars]
  rfl

theorem evaluate?_infinity (text : String) :
    evaluate? names (.call (.name "float") [.string [quote "inf"] text]) = some (.float (.infinity false)) := by
  rw [evaluate?, StringReading.denote?_quote]
  rfl

theorem evaluate?_minus {operand : Expr} {x : Binary64} (h : evaluate? names operand = some (.float x)) (text : String) :
    evaluate? names (.unary "-" operand text) = some (.float x.neg) := by
  rw [evaluate?, h]

mutual

/-- **An expression that stands for a value is evaluated to it.** -/
theorem evaluate?_of_stands : ∀ (value : Literal) {x : Expr}, Stands value x →
    evaluate? names x = some value.value
  | .none, _, .none => rfl
  | .bool _, _, .bool _ => rfl
  | .int i, _, .int hi => by
    rw [evaluate?_digits, Int.natAbs_of_nonneg hi]
    rfl
  | .int i, _, .negativeInt hi => by
    rw [evaluate?, evaluate?_digits]
    simp only [Literal.value, Option.some.injEq, PythonValue.int.injEq]
    omega
  | .float x, _, .float hx hsign hvalue => by
    rw [evaluate?_chars, hvalue, Binary64.ofMagnitude_of_positive hsign, value_float (Binary64.isNaN_of_isFinite hx)]
  | .float x, _, .negativeFloat hx hsign hvalue => by
    rw [evaluate?_minus (evaluate?_chars _), hvalue, Binary64.neg_ofMagnitude hsign,
      value_float (Binary64.isNaN_of_isFinite hx)]
  | .float x, _, .nan hx => by
    rw [evaluate?, StringReading.denote?_quote, Literal.value, hx]
    rfl
  | .float x, _, .infinity hx hsign => by
    have hmagnitude : x.magnitude = Binary64.infinityWord := by simpa [Binary64.isInfinite] using hx
    rw [evaluate?_infinity, Binary64.infinity, ← hmagnitude, Binary64.ofMagnitude_of_positive hsign,
      value_float (Binary64.isNaN_of_isInfinite hx)]
  | .float x, _, .negativeInfinity hx hsign => by
    have hmagnitude : x.magnitude = Binary64.infinityWord := by simpa [Binary64.isInfinite] using hx
    rw [evaluate?_minus (evaluate?_infinity _), Binary64.infinity, ← hmagnitude, Binary64.neg_ofMagnitude hsign,
      value_float (Binary64.isNaN_of_isInfinite hx)]
  | .str value, _, .str hvalue => by
    rw [evaluate?, StringReading.denote?_quote, if_neg hvalue]
    rfl
  | .list items, _, .list h => by
    rw [evaluate?, evaluateAll?_of_stands items h]
    rfl

/-- Expressions that stand for values are evaluated to them. -/
theorem evaluateAll?_of_stands : ∀ (items : List Literal) {xs : List Expr}, List.Forall₂ Stands items xs →
    evaluateAll? names xs = some (Literal.values items)
  | [], _, .nil => rfl
  | value :: items, _, .cons hfirst hrest => by
    rw [evaluateAll?, evaluate?_of_stands value hfirst, evaluateAll?_of_stands items hrest]
    rfl

end

end ClassCli.Code
