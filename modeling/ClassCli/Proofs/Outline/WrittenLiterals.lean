import ClassCli.Outline.Lowering
import ClassCli.Proofs.Code.LiteralValues
import ClassCli.Proofs.Interface.Literals
import ClassCli.Proofs.Outline.LineEnds
import ClassCli.Proofs.Outline.StringValues
import ClassCli.Proofs.Source.WrittenDefaults

/-!
# Values that are read back from generated code

The text of a value in generated code is read again when that code is a source: a negative number is then a sign in
front of a number, a string is unescaped, and a list is read item by item. What comes out is the value, if its
floating-point numbers are finite, none of its integers is the least one and its strings hold no null characters.
Lowering gives no other integers, as the least one is the negative of a number that does not fit.

* **`Literal.Negatable`**, **`Literal.IsReadable`** — what is asked of a value.
* **`integer?_digits`**, **`float?_chars`** — numbers that are read.
* **`literal?_of_stands`** — the value of an expression that stands for one.
* **`negatable_of_literal?`** — the integers that lowering gives.
* **`literal_reads_back`** — the text of a value is read as the value.
-/

namespace ClassCli

/-! ## Values that are read -/

namespace Literal

mutual

/-- Whether no integer in a literal is the least one. Any other integer has a negative. -/
def Negatable : Literal → Prop
  | .int i => i ≠ Int64.minValue
  | .list items => NegatableAll items
  | _ => True

/-- The same for every literal of a list. -/
def NegatableAll : List Literal → Prop
  | [] => True
  | x :: xs => Negatable x ∧ NegatableAll xs

end

/-- What is asked of a value that is read back from its text. -/
structure IsReadable (value : Literal) : Prop where
  finite : value.Finite
  negatable : value.Negatable
  legal : ∀ text ∈ value.strings, Code.NoNull text

end Literal

namespace Outline

open Code (Stands)
open Decimal (AreDigits Binary64 DecimalText WrittenDecimal)
open Decimal.Shortest (digitsOf)
open Source (defaultSource)
open Text (afterStart)

/-! ## Numbers -/

/-- Digits have no marks between them, and no lower case. -/
theorem plain_digits {s : List Char} (h : AreDigits s) : Text.asciiLower (s.filter (· != '_')) = s := by
  have hfilter : s.filter (· != '_') = s := by
    rw [List.filter_eq_self]
    intro c hc
    exact bne_iff_ne.mpr (Source.Lexer.ne_of_class (h c hc) (by decide))
  have hlower : ∀ c ∈ s, c.toLower = id c := by
    intro c hc
    have hlow : c.toNat ≤ 57 := (Text.toNat_of_isDigit (h c hc)).2
    have hsmall : ¬(c.val ≥ 'A'.val ∧ c.val ≤ 'Z'.val) := by
      rintro ⟨hupper, -⟩
      have hhigh : 65 ≤ c.toNat := hupper
      omega
    delta Char.toLower
    rw [dif_neg hsmall, id]
  rw [hfilter, Text.asciiLower, List.map_congr_left hlower, List.map_id]

/-- Digits open with no letter of another base. -/
theorem afterStart_digits {s : List Char} (h : AreDigits s) {letter : Char} (hletter : letter.isDigit = false) :
    afterStart ['0', letter] s = none := by
  match s, h with
  | [], _ => rfl
  | [c], _ =>
    rw [afterStart]
    split <;> rfl
  | c :: d :: more, h =>
    have hd : letter ≠ d := (Source.Lexer.ne_of_class (h d (by simp)) hletter).symm
    rw [afterStart]
    split
    · exact Text.afterStart_eq_none fun heq => hd (Option.some.inj heq).symm
    · rfl

theorem integerNat?_digits (n : ℕ) : integerNat? (String.ofList (digitsOf n)) = some n := by
  have hdigits := Decimal.areDigits_digitsOf n
  have hbase (letter : Char) (hletter : letter.isDigit = false) : afterStart ['0', letter] (digitsOf n) = none :=
    afterStart_digits hdigits hletter
  rw [integerNat?, String.toList_ofList, plain_digits hdigits]
  simp only [hbase 'x' rfl, hbase 'o' rfl, hbase 'b' rfl]
  rw [Decimal.spelledNat?_digits (Decimal.digitsOf_ne_nil n) hdigits, Decimal.spelled_digitsOf]

/-- **An integer is read** if it fits. -/
theorem integer?_digits {n : ℕ} (h : n < 0x8000000000000000) :
    integer? (String.ofList (digitsOf n)) = some (Int64.ofNat n) := by
  rw [integer?, integerNat?_digits]
  exact if_pos h

/-- **A decimal is read** as the number that it stands for. -/
theorem float?_chars (w : WrittenDecimal) :
    float? (String.ofList w.chars) = some (DecimalText.value ⟨w.digits, w.exponent⟩) := by
  have hmark : ∀ c ∈ w.chars, (c != '_') = true := by
    intro c hc
    rw [bne_iff_ne]
    rintro rfl
    exact absurd (WrittenDecimal.of_mem_chars hc) (by decide)
  rw [float?, String.toList_ofList, List.filter_eq_self.mpr hmark, w.decimalText?_chars]
  rfl

/-- An integer that is not negative is its magnitude. -/
theorem ofNat_natAbs {i : Int64} (hi : 0 ≤ i.toInt) : Int64.ofNat i.toInt.natAbs = i := by
  rw [← Int64.ofInt_eq_ofNat, Int.natAbs_of_nonneg hi, Int64.ofInt_toInt]

/-- A negative integer is its magnitude with a sign. -/
theorem neg_ofNat_natAbs {i : Int64} (hi : i.toInt < 0) : -Int64.ofNat i.toInt.natAbs = i := by
  have hneg : i.toInt = -(i.toInt.natAbs : ℤ) := by omega
  rw [← Int64.ofInt_eq_ofNat, ← Int64.ofInt_neg, ← hneg, Int64.ofInt_toInt]

theorem natAbs_lt {i : Int64} (h : i ≠ Int64.minValue) : i.toInt.natAbs < 0x8000000000000000 := by
  have hlow : -0x8000000000000000 ≤ i.toInt := i.le_toInt
  have hhigh : i.toInt < 0x8000000000000000 := i.toInt_lt
  have hne : i.toInt ≠ -0x8000000000000000 := fun heq => h (Int64.toInt_inj.mp heq)
  omega

/-! ## Expressions that stand for values -/

theorem lowerExpr_integer {n : ℕ} (h : n < 0x8000000000000000) :
    lowerExpr (.integer (String.ofList (digitsOf n))) = .literal (.int (Int64.ofNat n)) := by
  rw [lowerExpr, integer?_digits h, literalOr]

theorem lowerExpr_float (w : WrittenDecimal) :
    lowerExpr (.float (String.ofList w.chars)) = .literal (.float (DecimalText.value ⟨w.digits, w.exponent⟩)) := by
  rw [lowerExpr, float?_chars, literalOr]

/-- A minus in front of a number. -/
theorem lowerExpr_minus {operand : Source.Expr} {value negative : Literal} {text : String}
    (hoperand : lowerExpr operand = .literal value) (h : signed? "-" (.literal value) = some negative) :
    lowerExpr (.unary "-" operand text) = .literal negative := by
  rw [lowerExpr, hoperand, h, literalOr, id]

mutual

/-- **An expression that stands for a value is lowered to it.** -/
theorem literal?_of_stands : ∀ (value : Literal), value.Finite → value.Negatable → ∀ {x : Source.Expr}, Stands value x →
    (lowerExpr x).literal? = some value
  | .none, _, _, _, .none => rfl
  | .bool _, _, _, _, .bool _ => rfl
  | .int i, _, hleast, _, .int hi => by
    rw [lowerExpr_integer (natAbs_lt hleast), ofNat_natAbs hi, Expr.literal?]
  | .int i, _, hleast, _, .negativeInt hi => by
    rw [lowerExpr_minus (lowerExpr_integer (natAbs_lt hleast)) rfl, neg_ofNat_natAbs hi, Expr.literal?]
  | .float x, _, _, _, .float _ hsign hvalue => by
    rw [lowerExpr_float, hvalue, Binary64.ofMagnitude_of_positive hsign, Expr.literal?]
  | .float x, _, _, _, .negativeFloat _ hsign hvalue => by
    rw [lowerExpr_minus (lowerExpr_float _) rfl, hvalue, Binary64.neg_ofMagnitude hsign, Expr.literal?]
  | .float x, hfinite, _, _, .nan hx => by
    rw [Binary64.isNaN_of_isFinite hfinite] at hx
    cases hx
  | .float x, hfinite, _, _, .infinity hx _ | .float x, hfinite, _, _, .negativeInfinity hx _ => by
    rw [Binary64.isInfinite_of_isFinite hfinite] at hx
    cases hx
  | .str s, _, _, _, .str _ => by
    rw [lowerExpr, StringLiteral.values?, StringLiteral.value?_quote, StringLiteral.values?]
    simp [literalOr, Expr.literal?]
  | .list items, hfinite, hleast, _, .list h => by
    rw [lowerExpr, Expr.literal?, literals?_of_stands items hfinite hleast h]
    rfl

/-- Expressions that stand for values are lowered to them. -/
theorem literals?_of_stands : ∀ (items : List Literal), Literal.FiniteAll items → Literal.NegatableAll items →
    ∀ {xs : List Source.Expr}, List.Forall₂ Stands items xs → Expr.literals? (lowerExprs xs) = some items
  | [], _, _, _, .nil => rfl
  | value :: items, hfinite, hleast, _, .cons hfirst hrest => by
    rw [lowerExprs, Expr.literals?, literal?_of_stands value hfinite.1 hleast.1 hfirst,
      literals?_of_stands items hfinite.2 hleast.2 hrest]

end

/-! ## The integers that lowering gives -/

theorem negatable_of_integer? {text : String} {i : Int64} (h : integer? text = some i) : i ≠ Int64.minValue := by
  rintro rfl
  unfold integer? at h
  split at h
  · rename_i n hn
    split at h
    · rename_i hfits
      have hvalue := congrArg Int64.toInt (Option.some.inj h)
      rw [Int64.toInt_ofNat_of_lt hfits] at hvalue
      exact absurd hvalue (by rw [Int64.toInt_minValue]; omega)
    · cases h
  · cases h

theorem neg_ne_minValue {i : Int64} (h : i ≠ Int64.minValue) : -i ≠ Int64.minValue := by
  intro hneg
  apply h
  calc
    i = - -i := Int64.neg_neg.symm
    _ = -Int64.minValue := by rw [hneg]
    _ = Int64.minValue := rfl

/-- The value of a number that a sign stands in front of. -/
theorem literal?_of_number? {x : Expr} {value : Literal} (h : number? x = some value) : x.literal? = some value := by
  unfold number? at h
  split at h
  · exact h
  · exact h
  · cases h

theorem negatable_signed? {operator : String} {operand : Expr} {value : Literal}
    (h : signed? operator operand = some value) (hoperand : ∀ value, operand.literal? = some value → value.Negatable) :
    value.Negatable := by
  unfold signed? at h
  split at h
  · rename_i i hi
    cases h
    exact neg_ne_minValue (hoperand _ (literal?_of_number? hi))
  · cases h
    trivial
  · rename_i v hv
    cases h
    exact hoperand _ (literal?_of_number? hv)
  · cases h

mutual

/-- **No integer that lowering gives is the least one**, since a sign stands in front of a number that fits. -/
theorem negatable_of_literal? : ∀ (x : Source.Expr) {value : Literal}, (lowerExpr x).literal? = some value →
    value.Negatable
  | .integer text, value, h => by
    rw [lowerExpr, literal?_literalOr] at h
    obtain ⟨i, hi, rfl⟩ := Option.map_eq_some_iff.mp h
    exact negatable_of_integer? hi
  | .float text, value, h => by
    rw [lowerExpr, literal?_literalOr] at h
    obtain ⟨x, -, rfl⟩ := Option.map_eq_some_iff.mp h
    trivial
  | .string parts text, value, h => by
    rw [lowerExpr, literal?_literalOr] at h
    obtain ⟨s, -, rfl⟩ := Option.map_eq_some_iff.mp h
    trivial
  | .truth b, value, h => by
    cases h
    trivial
  | .none, value, h => by
    cases h
    trivial
  | .list items, value, h | .tuple items, value, h => by
    rw [lowerExpr, Expr.literal?] at h
    obtain ⟨values, hvalues, rfl⟩ := Option.map_eq_some_iff.mp h
    exact negatableAll_of_literals? items hvalues
  | .group inner, value, h => negatable_of_literal? inner h
  | .unary operator operand text, value, h => by
    rw [lowerExpr, literal?_literalOr] at h
    obtain ⟨v, hv, rfl⟩ := Option.map_eq_some_iff.mp h
    exact negatable_signed? hv fun _ hoperand => negatable_of_literal? operand hoperand
  | .keyword _ x, value, h => negatable_of_literal? x h
  | .name _, _, h | .attribute .., _, h | .call .., _, h | .generatorCall .., _, h | .subscript _, _, h
  | .splat _, _, h | .other _, _, h => by cases h

/-- The same for all expressions of a list. -/
theorem negatableAll_of_literals? : ∀ (xs : List Source.Expr) {values : List Literal},
    Expr.literals? (lowerExprs xs) = some values → Literal.NegatableAll values
  | [], _, h => by
    cases h
    trivial
  | x :: xs, values, h => by
    rw [lowerExprs, Expr.literals?] at h
    split at h
    · rename_i v vs hv hvs
      cases h
      exact ⟨negatable_of_literal? x hv, negatableAll_of_literals? xs hvs⟩
    · cases h

end

/-! ## Texts that are read back -/

/-- **The text of a value is read as the value**, both by itself and as the default of a parameter. A value without
null characters and with finite numbers only is of this kind if lowering gives it at all. -/
theorem literal_reads_back :
    (∀ value : Literal, value.IsReadable →
      (∃ x rest, Source.expression (.statement 0) (Source.Lexer.tokens (Code.literal value)) = .ok (x, rest)
        ∧ Source.atStatementEnd rest = true ∧ (lowerExpr x).literal? = some value)
      ∧ ∃ x line, outline? (defaultSource (Code.literal value)) = .ok [.functionDef
          ⟨"f", { args := [⟨"p", none⟩], defaults := [x] }, [], none, none, line⟩ [.other]]
        ∧ x.literal? = some value)
    ∧ ∀ (x : Source.Expr) (value : Literal), (lowerExpr x).literal? = some value → value.Finite →
        (∀ text ∈ value.strings, Code.NoNull text) → value.IsReadable := by
  constructor
  · intro value h
    have hwritten : Source.Written (Code.literal value).toList fun x => (lowerExpr x).literal? = some value :=
      (Code.written_literal value h.legal).imp fun _ hx => literal?_of_stands value h.finite h.negatable hx
    constructor
    · have hread := hwritten.expression
      rwa [String.ofList_toList] at hread
    · obtain ⟨x, line, hread, hx⟩ := Source.readModule_defaultSource hwritten
      refine ⟨lowerExpr x, line, ?_, hx⟩
      rw [outline?, hread]
      rfl
  · intro x value hx hfinite hlegal
    exact ⟨hfinite, negatable_of_literal? x hx, hlegal⟩

/-- A list with the ends of what is read, and with a string that looks like one of its own kind. -/
theorem literal_reads_back_nested :
    let value : Literal := .list [.none, .bool true, .int (-9223372036854775807), .float ⟨0x8000000000000000⟩,
      .float ⟨0x7fefffffffffffff⟩, .str "it's [-1, ']\n", .list [], .list [.list [.str ""]]]
    let source : Source.Expr := .unary "-" (.integer "0x7fff_ffff_ffff_ffff") "-0x7fff_ffff_ffff_ffff"
    (value.IsReadable ∧ ∃ x line, outline? (defaultSource (Code.literal value)) = .ok [.functionDef
          ⟨"f", { args := [⟨"p", none⟩], defaults := [x] }, [], none, none, line⟩ [.other]]
        ∧ x.literal? = some value)
      ∧ (lowerExpr source).literal? = some (.int (-9223372036854775807))
      ∧ (Literal.int (-9223372036854775807)).IsReadable := by
  intro value source
  have hfinite : Binary64.isFinite ⟨0x8000000000000000⟩ = true ∧ Binary64.isFinite ⟨0x7fefffffffffffff⟩ = true := by
    decide
  have hleast : (-9223372036854775807 : Int64) ≠ Int64.minValue := by decide
  have hstrings : ∀ text ∈ value.strings, Code.NoNull text := by decide +kernel
  have hvalue : value.IsReadable :=
    ⟨⟨trivial, trivial, trivial, hfinite.1, hfinite.2, trivial, trivial, ⟨⟨trivial, trivial⟩, trivial⟩, trivial⟩,
      ⟨trivial, trivial, hleast, trivial, trivial, trivial, trivial, ⟨⟨trivial, trivial⟩, trivial⟩, trivial⟩, hstrings⟩
  have hsource : (lowerExpr source).literal? = some (.int (-9223372036854775807)) := by decide +kernel
  exact ⟨⟨hvalue, (literal_reads_back.1 value hvalue).2⟩, hsource,
    literal_reads_back.2 source _ hsource trivial (by decide)⟩

example : (lowerExpr (.unary "-" (.integer "9223372036854775808") "-9223372036854775808")).literal? = none := by
  decide +kernel

end Outline

end ClassCli
