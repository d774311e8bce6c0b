import ClassCli.Proofs.Outline.WrittenLiterals
import ClassCli.Proofs.Source.WrittenIntegers

/-!
# Integers are exact

An integer token becomes an integer if its magnitude fits in 63 bits, and signs and brackets around it change it as they
change a number. So no integer is the least one of its type, which has no negative: negation never overflows. Something
else than an integer comes of a token that is too large, and of brackets that open with a joined line end, which is
taken for what they hold.

* **`integer?_token`** — the value of a token.
* **`IsExact`** — what becomes of signs and brackets around a token, and **`isExact_of_wrapped`**.
* **`Node.intsAll`**, **`negatable_outline`** — the integers of an outline.
* **`integers_exact`** — everything about integers.
-/

namespace ClassCli

namespace Literal

mutual

/-- The integers in a value. -/
def ints : Literal → List Int64
  | .int i => [i]
  | .list items => intsAll items
  | _ => []

/-- The integers in values. -/
def intsAll : List Literal → List Int64
  | [] => []
  | value :: rest => ints value ++ intsAll rest

end

end Literal

namespace Outline

open Decimal (digitValue spelledNat?)
open Source (Behind Digit IsInteger Lays MarkedBase Wrapped Wrapper defaultSource magnitude spaced)
open Text (afterStart asciiLower)

variable {text : List Char} {n base : ℕ} {ws : List Wrapper}

/-! ## Tokens -/

theorem filter_spaced (ds : List (Bool × Digit)) :
    (spaced ds).filter (· != '_') = (ds.map Prod.snd).map Digit.char := by
  induction ds with
  | nil => rfl
  | cons d ds ih =>
    obtain ⟨underscore, d⟩ := d
    have hd : (d.char != '_') = true := bne_iff_ne.mpr d.ne_underscore
    rw [Source.spaced_cons, List.filter_append, List.filter_cons, if_pos hd, ih]
    cases underscore with
    | false => rfl
    | true => rfl

/-- Digits spell their magnitude, letters in either case. -/
theorem spelledNat?_digitsOf {ds : List Digit} (hne : ds ≠ []) (h : ∀ d ∈ ds, d.value < base) :
    spelledNat? base (asciiLower (ds.map Digit.char)) = some (magnitude base ds) := by
  have hvalue (d : Digit) : digitValue d.char.toLower = d.value := by
    have htable : ∀ entry ∈ Source.digitTable, digitValue entry.1.toLower = entry.2 := by decide
    exact htable _ d.listed
  have hsmall : (asciiLower (ds.map Digit.char)).any (fun c => base ≤ digitValue c) = false := by
    rw [List.any_eq_false]
    intro c hc
    rw [asciiLower, List.map_map] at hc
    obtain ⟨d, hd, rfl⟩ := List.mem_map.mp hc
    rw [Function.comp_apply, hvalue, decide_eq_true_eq, not_le]
    exact h d hd
  have hspelled : (asciiLower (ds.map Digit.char)).foldl (fun n c => n * base + digitValue c) 0 = magnitude base ds := by
    rw [asciiLower, List.map_map, List.foldl_map, magnitude, Nat.ofDigits_eq_foldr, List.foldr_reverse, List.foldl_map]
    congr 1
    funext n d
    rw [Function.comp_apply, hvalue]
    simp only [Nat.cast_id]
    ring
  have hempty : (asciiLower (ds.map Digit.char)).isEmpty = false := by
    simpa [asciiLower] using hne
  rw [spelledNat?, hempty, hsmall, Bool.or_self, if_neg Bool.false_ne_true, hspelled]

/-- **A token denotes its magnitude**. -/
theorem integerNat?_token (h : IsInteger text n) : integerNat? (String.ofList text) = some n := by
  rw [integerNat?, String.toList_ofList]
  cases h with
  | decimal first more hbase hzero =>
    have hareDigits : Decimal.AreDigits ((first :: more.map Prod.snd).map Digit.char) := by
      intro c hc
      obtain ⟨d, hd, rfl⟩ := List.mem_map.mp hc
      exact Digit.isDigit_of_lt (hbase d hd)
    have hmarks (ds : List Digit) : (ds.map Digit.char).filter (· != '_') = ds.map Digit.char := by
      rw [List.filter_eq_self]
      intro c hc
      obtain ⟨d, -, rfl⟩ := List.mem_map.mp hc
      exact bne_iff_ne.mpr d.ne_underscore
    have hfilter : (first.char :: spaced more).filter (· != '_') = (first :: more.map Prod.snd).map Digit.char := by
      rw [List.filter_cons, if_pos (bne_iff_ne.mpr first.ne_underscore), filter_spaced, List.map_cons]
    have hlower := plain_digits hareDigits
    rw [hmarks] at hlower
    have hletter (letter : Char) (h : letter.isDigit = false) :
        afterStart ['0', letter] (asciiLower ((first :: more.map Prod.snd).map Digit.char)) = none := by
      rw [hlower]
      exact afterStart_digits hareDigits h
    rw [hfilter]
    simp only [hletter 'x' rfl, hletter 'o' rfl, hletter 'b' rfl]
    exact spelledNat?_digitsOf (List.cons_ne_nil _ _) hbase
  | marked m hletter hne hbase =>
    rename_i letter ds
    have hdigits := spelledNat?_digitsOf (mt List.map_eq_nil_iff.mp hne) hbase
    have hfilter (hmark : letter ≠ '_') : ('0' :: letter :: spaced ds).filter (· != '_')
        = '0' :: letter :: (ds.map Prod.snd).map Digit.char := by
      rw [List.filter_cons_of_pos (by decide), List.filter_cons, if_pos (bne_iff_ne.mpr hmark), filter_spaced]
    cases m with
    | hexadecimal | octal | binary =>
      rcases List.mem_pair.mp hletter with rfl | rfl
      all_goals
        rw [hfilter (by decide)]
        exact hdigits

/-- **The value of a token**, if it fits. -/
theorem integer?_token (h : IsInteger text n) :
    integer? (String.ofList text) = if n < 0x8000000000000000 then some (Int64.ofNat n) else none := by
  rw [integer?, integerNat?_token h]

/-! ## Signs and brackets -/

/-- **What becomes of signs and brackets around a token**: an integer exactly if the magnitude of the token fits and no
bracket opens with a joined line end. The integer is the value of the whole. -/
structure IsExact (n : ℕ) (ws : List Wrapper) (x : Expr) : Prop where
  int_iff : (∃ i, x = .literal (.int i)) ↔ n ≤ 2 ^ 63 - 1 ∧ Wrapper.round true ∉ ws
  value : ∀ i, x = .literal (.int i) → i.toInt = Wrapper.value ws n

/-- Only the least integer has no negative. -/
theorem toInt_neg {i : Int64} (h : i ≠ Int64.minValue) : (-i).toInt = -i.toInt := by
  have hsmall := natAbs_lt h
  rw [Int64.toInt_neg]
  apply Int.bmod_eq_of_le
  · omega
  · omega

/-- A token that fits, with signs and brackets around it. -/
theorem lowerExpr_wrapped {x : Source.Expr} (h : IsInteger text n) (hfits : n < 0x8000000000000000)
    (hx : Wrapped (String.ofList text) ws x) (hws : Wrapper.round true ∉ ws) :
    ∃ i, lowerExpr x = .literal (.int i) ∧ i.toInt = Wrapper.value ws n := by
  induction hx with
  | token =>
    refine ⟨Int64.ofNat n, ?_, Int64.toInt_ofNat_of_lt hfits⟩
    rw [lowerExpr, integer?_token h, if_pos hfits, literalOr]
  | plus hx text ih =>
    obtain ⟨i, hi, hvalue⟩ := ih (fun hmem => hws (List.mem_cons_of_mem _ hmem))
    refine ⟨i, ?_, hvalue⟩
    rw [lowerExpr, hi]
    rfl
  | minus hx text ih =>
    obtain ⟨i, hi, hvalue⟩ := ih (fun hmem => hws (List.mem_cons_of_mem _ hmem))
    refine ⟨-i, lowerExpr_minus hi rfl, ?_⟩
    have hleast : (Literal.int i).Negatable := negatable_of_literal? _ (by rw [hi]; rfl)
    rw [toInt_neg hleast, hvalue, Wrapper.value]
  | round hx ih =>
    obtain ⟨i, hi, hvalue⟩ := ih (fun hmem => hws (List.mem_cons_of_mem _ hmem))
    exact ⟨i, by rw [lowerExpr, hi], hvalue⟩
  | joined ws mark => exact absurd List.mem_cons_self hws

/-- A token that does not fit, or a joined line end behind an opening bracket. -/
theorem lowerExpr_lost {integer : String} {x : Source.Expr} (hx : Wrapped integer ws x)
    (hlost : integer? integer = none ∨ Wrapper.round true ∈ ws) : ∃ text, lowerExpr x = .other text := by
  induction hx with
  | token =>
    rcases hlost with hlost | hmem
    · exact ⟨integer, by rw [lowerExpr, hlost, literalOr]⟩
    · cases hmem
  | plus hx text ih =>
    obtain ⟨inner, hinner⟩ := ih (hlost.imp_right fun hmem => List.mem_of_ne_of_mem (by decide) hmem)
    exact ⟨text, by rw [lowerExpr, hinner]; rfl⟩
  | minus hx text ih =>
    obtain ⟨inner, hinner⟩ := ih (hlost.imp_right fun hmem => List.mem_of_ne_of_mem (by decide) hmem)
    exact ⟨text, by rw [lowerExpr, hinner]; rfl⟩
  | round hx ih =>
    obtain ⟨inner, hinner⟩ := ih (hlost.imp_right fun hmem => List.mem_of_ne_of_mem (by decide) hmem)
    exact ⟨inner, by rw [lowerExpr, hinner]⟩
  | joined ws mark => exact ⟨mark, by rw [lowerExpr, lowerExpr]⟩

theorem isExact_of_wrapped {x : Source.Expr} (h : IsInteger text n) (hx : Wrapped (String.ofList text) ws x) :
    IsExact n ws (lowerExpr x) := by
  by_cases hexact : n < 0x8000000000000000 ∧ Wrapper.round true ∉ ws
  · obtain ⟨i, hi, hvalue⟩ := lowerExpr_wrapped h hexact.1 hx hexact.2
    refine ⟨⟨fun _ => ⟨by omega, hexact.2⟩, fun _ => ⟨i, hi⟩⟩, ?_⟩
    intro j hj
    rw [hi] at hj
    cases hj
    exact hvalue
  · have hlost : integer? (String.ofList text) = none ∨ Wrapper.round true ∈ ws := by
      rw [integer?_token h]
      by_cases hfits : n < 0x8000000000000000
      · exact Or.inr (not_not.mp fun hws => hexact ⟨hfits, hws⟩)
      · exact Or.inl (if_neg hfits)
    obtain ⟨other, hother⟩ := lowerExpr_lost hx hlost
    have hnone : ¬∃ i, lowerExpr x = .literal (.int i) := by
      rintro ⟨i, hi⟩
      rw [hother] at hi
      cases hi
    refine ⟨⟨fun hi => absurd hi hnone, fun hfits => absurd ⟨by omega, hfits.2⟩ hexact⟩, ?_⟩
    intro i hi
    exact absurd ⟨i, hi⟩ hnone

/-! ## The integers of an outline -/

mutual

/-- The integers in an expression. -/
def Expr.ints : Expr → List Int64
  | .attribute value _ => ints value
  | .call callee args keywords => ints callee ++ intsAll args ++ intsOfKeywords keywords
  | .literal value => value.ints
  | .list items => intsAll items
  | _ => []

/-- The integers in expressions. -/
def Expr.intsAll : List Expr → List Int64
  | [] => []
  | x :: xs => ints x ++ intsAll xs

/-- The integers in the keyword arguments of a call. -/
def Expr.intsOfKeywords : List (String × Expr) → List Int64
  | [] => []
  | keyword :: rest => intsOfKeyword keyword ++ intsOfKeywords rest

/-- The integers in a keyword argument. -/
def Expr.intsOfKeyword : String × Expr → List Int64
  | (_, x) => ints x

end

/-- The integers in the defaults of parameters. -/
def Parameters.ints (ps : Parameters) : List Int64 :=
  Expr.intsAll ps.defaults ++ Expr.intsAll (ps.keywordDefaults.filterMap id)

mutual

/-- The integers in a statement. -/
def Node.ints : Node → List Int64
  | .classDef head body => Expr.intsAll head.decorators ++ intsAll body
  | .functionDef head body => Expr.intsAll head.decorators ++ head.parameters.ints ++ intsAll body
  | .compound body => intsAll body
  | _ => []

/-- The integers in statements. -/
def Node.intsAll : List Node → List Int64
  | [] => []
  | node :: rest => ints node ++ intsAll rest

end

/-- Whether each of several integers has a negative. -/
def AreNegatable (ints : List Int64) : Prop := ∀ i ∈ ints, i ≠ Int64.minValue

theorem AreNegatable.append {front back : List Int64} (hfront : AreNegatable front) (hback : AreNegatable back) :
    AreNegatable (front ++ back) :=
  List.forall_mem_append.mpr ⟨hfront, hback⟩

theorem areNegatable_nil : AreNegatable [] := List.forall_mem_nil _

theorem areNegatable_singleton {i : Int64} (h : i ≠ Int64.minValue) : AreNegatable [i] :=
  List.forall_mem_singleton.mpr h

theorem areNegatable_literalOr {α : Type} {text : String} {wrap : α → Literal} {value? : Option α}
    (h : ∀ value, value? = some value → AreNegatable (wrap value).ints) :
    AreNegatable (literalOr text wrap value?).ints := by
  cases value? with
  | none => exact areNegatable_nil
  | some value => exact h value rfl

theorem eq_literal_of_number? {x : Expr} {value : Literal} (h : number? x = some value) : x = .literal value := by
  unfold number? at h
  split at h
  · cases h
    rfl
  · cases h
    rfl
  · cases h

/-- The negative of an integer is not the least one either. -/
theorem areNegatable_signed? {operator : String} {operand : Expr} {value : Literal}
    (h : signed? operator operand = some value) (hoperand : AreNegatable operand.ints) : AreNegatable value.ints := by
  unfold signed? at h
  split at h
  · rename_i i hi
    rw [eq_literal_of_number? hi] at hoperand
    cases h
    exact areNegatable_singleton (neg_ne_minValue (hoperand i List.mem_cons_self))
  · cases h
    exact areNegatable_nil
  · rename_i v hv
    rw [eq_literal_of_number? hv] at hoperand
    cases h
    exact hoperand
  · cases h

mutual

/-- **No integer in an expression is the least one.** -/
theorem areNegatable_lowerExpr : ∀ x : Source.Expr, AreNegatable (lowerExpr x).ints
  | .name _ | .truth _ | .none | .subscript _ | .splat _ | .other _ => areNegatable_nil
  | .attribute object _ => areNegatable_lowerExpr object
  | .call callee arguments =>
    ((areNegatable_lowerExpr callee).append (areNegatable_lowerArgs arguments)).append
      (areNegatable_lowerKeywords arguments)
  | .generatorCall callee _ =>
    ((areNegatable_lowerExpr callee).append areNegatable_nil).append areNegatable_nil
  | .integer _ => areNegatable_literalOr fun _ hi => areNegatable_singleton (negatable_of_integer? hi)
  | .float _ | .string _ _ => areNegatable_literalOr fun _ _ => areNegatable_nil
  | .list items | .tuple items => areNegatable_lowerExprs items
  | .group inner | .keyword _ inner => areNegatable_lowerExpr inner
  | .unary _ operand _ =>
    areNegatable_literalOr fun _ hvalue => areNegatable_signed? hvalue (areNegatable_lowerExpr operand)

theorem areNegatable_lowerExprs : ∀ xs : List Source.Expr, AreNegatable (Expr.intsAll (lowerExprs xs))
  | [] => areNegatable_nil
  | x :: xs => (areNegatable_lowerExpr x).append (areNegatable_lowerExprs xs)

theorem areNegatable_lowerArgs : ∀ xs : List Source.Expr, AreNegatable (Expr.intsAll (lowerArgs xs))
  | [] => areNegatable_nil
  | x :: xs => by
    have hfirst := areNegatable_lowerExpr x
    have hrest := areNegatable_lowerArgs xs
    unfold lowerArgs
    split
    · exact areNegatable_nil
    · rename_i heq
      cases heq
      exact hrest
    · rename_i heq
      cases heq
      exact hfirst.append hrest

theorem areNegatable_lowerKeywords : ∀ xs : List Source.Expr, AreNegatable (Expr.intsOfKeywords (lowerKeywords xs))
  | [] => areNegatable_nil
  | x :: xs => by
    have hfirst := areNegatable_lowerExpr x
    have hrest := areNegatable_lowerKeywords xs
    unfold lowerKeywords
    split
    · exact areNegatable_nil
    · rename_i heq
      cases heq
      exact hfirst.append hrest
    · rename_i heq
      cases heq
      exact hrest

end

theorem intsAll_append (xs ys : List Expr) : Expr.intsAll (xs ++ ys) = Expr.intsAll xs ++ Expr.intsAll ys := by
  induction xs with
  | nil => rfl
  | cons x xs ih => rw [List.cons_append, Expr.intsAll, Expr.intsAll, ih, List.append_assoc]

theorem areNegatable_map (xs : List Source.Expr) : AreNegatable (Expr.intsAll (xs.map lowerExpr)) := by
  induction xs with
  | nil => exact areNegatable_nil
  | cons x xs ih => exact (areNegatable_lowerExpr x).append ih

/-- A parameter is added with a default that was lowered. -/
theorem areNegatable_add {ps : Parameters} (h : AreNegatable ps.ints) (keywordOnly : Bool) (param : Param)
    (default : Option Source.Expr) : AreNegatable (ps.add keywordOnly param (default.map lowerExpr)).ints := by
  obtain ⟨hargs, hkeywords⟩ := List.forall_mem_append.mp h
  have hdefault : AreNegatable (Expr.intsAll (default.map lowerExpr).toList) := by
    cases default with
    | none => exact areNegatable_nil
    | some x => exact (areNegatable_lowerExpr x).append areNegatable_nil
  cases keywordOnly with
  | true =>
    have hone : [default.map lowerExpr].filterMap id = (default.map lowerExpr).toList := by cases default <;> rfl
    show AreNegatable (Expr.intsAll ps.defaults ++
      Expr.intsAll ((ps.keywordDefaults ++ [default.map lowerExpr]).filterMap id))
    rw [List.filterMap_append, intsAll_append, hone]
    exact AreNegatable.append hargs (AreNegatable.append hkeywords hdefault)
  | false =>
    show AreNegatable (Expr.intsAll (ps.defaults ++ (default.map lowerExpr).toList) ++
      Expr.intsAll (ps.keywordDefaults.filterMap id))
    rw [intsAll_append]
    exact AreNegatable.append (AreNegatable.append hargs hdefault) hkeywords

theorem areNegatable_sortParams (params : List Source.Param) : ∀ (keywordOnly : Bool) (ps : Parameters),
    AreNegatable ps.ints → AreNegatable (sortParams keywordOnly ps params).ints := by
  induction params with
  | nil => exact fun _ _ h => h
  | cons param params ih =>
    intro keywordOnly ps h
    cases param with
    | plain name typeHint default => exact ih _ _ (areNegatable_add h keywordOnly _ default)
    | star name typeHint => exact ih _ _ h
    | bareStar => exact ih _ _ h
    | doubleStar name typeHint => exact ih _ _ h
    | tuple => exact ih _ _ h
    | slash => exact ih _ _ h

theorem nodeInts_append (front back : List Node) : Node.intsAll (front ++ back) = Node.intsAll front ++ Node.intsAll back := by
  induction front with
  | nil => rfl
  | cons node front ih => rw [List.cons_append, Node.intsAll, Node.intsAll, ih, List.append_assoc]

mutual

/-- No integer in a statement is the least one. -/
theorem areNegatable_lowerStmt : ∀ stmt : Source.Stmt, AreNegatable (lowerStmt stmt).ints
  | .classDef decorators _ body _ => (areNegatable_map decorators).append (areNegatable_lowerBlock body)
  | .functionDef decorators _ params _ body _ =>
    ((areNegatable_map decorators).append (areNegatable_sortParams params false {} areNegatable_nil)).append
      (areNegatable_lowerBlock body)
  | .importNames _ | .importFrom .. | .expression _ | .assign _ | .other => areNegatable_nil
  | .compound suites => by
    have hsuites := areNegatable_lowerSuites suites
    rw [lowerStmt, compoundOf]
    split
    · exact areNegatable_nil
    · exact hsuites

theorem areNegatable_lowerBlock : ∀ stmts : List Source.Stmt, AreNegatable (Node.intsAll (lowerBlock stmts))
  | [] => areNegatable_nil
  | stmt :: stmts => (areNegatable_lowerStmt stmt).append (areNegatable_lowerBlock stmts)

theorem areNegatable_lowerSuites : ∀ suites : List (List Source.Stmt), AreNegatable (Node.intsAll (lowerSuites suites))
  | [] => areNegatable_nil
  | suite :: suites => by
    rw [lowerSuites, nodeInts_append]
    exact (areNegatable_lowerBlock suite).append (areNegatable_lowerSuites suites)

end

/-! ## All integers -/

theorem neg_le_toInt {i : Int64} (h : i ≠ Int64.minValue) : -(2 ^ 63 - 1) ≤ i.toInt := by
  have hsmall := natAbs_lt h
  omega

/-- **Integers are exact.** A token is split off code as a whole. Signs and brackets around it are read as an expression
wherever they stand, however they are laid out, and their text is read as the default behind whose equals sign it
stands. What they become is an integer exactly if the magnitude of the token fits and no bracket opens with a joined
line end, and then it is their value. No integer of an outline is the least one, and the negative of a lowered number
is exact. -/
theorem integers_exact (ws : List Wrapper) {token : List Char} {n : ℕ} (h : IsInteger token n) :
    (∀ {rest : List Char}, Source.Lexer.Stops Source.Lexer.endsNumber rest →
      Source.Number.split (token ++ rest) = some (.integer, token, rest))
    ∧ (∀ {ts behind : Source.Tokens} {p : Source.Place}, Lays (String.ofList token) ws ts → Behind p behind →
      ∃ x, Source.expression p (ts ++ behind) = .ok (x, behind) ∧ IsExact n ws (lowerExpr x))
    ∧ (Wrapper.round true ∉ ws →
      ∃ x line, outline? (defaultSource (String.ofList (Wrapper.around ws token))) = .ok [.functionDef
        ⟨"f", { args := [⟨"p", none⟩], defaults := [x] }, [], none, none, line⟩ [.other]] ∧ IsExact n ws x)
    ∧ (∀ {source : String} {outline : List Node}, outline? source = .ok outline →
      ∀ i ∈ Node.intsAll outline, -(2 ^ 63 - 1) ≤ i.toInt)
    ∧ ∀ {operand : Source.Expr} {i : Int64}, number? (lowerExpr operand) = some (.int i) → (-i).toInt = -i.toInt := by
  refine ⟨Source.split_integer h, ?_, ?_, ?_, ?_⟩
  · intro ts behind p hts hbehind
    obtain ⟨x, hread, hx⟩ := hts.expression hbehind
    exact ⟨x, hread, isExact_of_wrapped h hx⟩
  · intro hws
    have hwritten := Source.written_around h hws
    rw [← String.toList_ofList (l := Wrapper.around ws token)] at hwritten
    obtain ⟨x, line, hread, hx⟩ := Source.readModule_defaultSource hwritten
    refine ⟨lowerExpr x, line, ?_, isExact_of_wrapped h hx⟩
    rw [outline?, hread]
    rfl
  · intro source outline hread i hi
    rw [outline?] at hread
    cases hmodule : Source.readModule source with
    | error line =>
      rw [hmodule] at hread
      cases hread
    | ok stmts =>
      rw [hmodule] at hread
      cases hread
      exact neg_le_toInt (areNegatable_lowerBlock stmts i hi)
  · intro operand i hi
    have hints := areNegatable_lowerExpr operand
    rw [eq_literal_of_number? hi] at hints
    exact toInt_neg (hints i List.mem_cons_self)

/-- The digits of the largest integer in base sixteen, in either case. -/
def limitDigits : List (Bool × Digit) :=
  let seven : Digit := ⟨'7', 7, by decide⟩
  let upper : Digit := ⟨'F', 15, by decide⟩
  let lower : Digit := ⟨'f', 15, by decide⟩
  [(true, seven), (false, upper), (false, upper), (false, upper), (true, lower), (false, lower), (false, lower),
    (false, lower), (true, lower), (false, lower), (false, lower), (false, lower), (true, lower), (false, lower),
    (false, lower), (false, lower)]

/-- The tokens of an integer in brackets on two lines, with a joined line end between them. -/
def joinedTokens (integer : String) : Source.Tokens :=
  [⟨.symbol "(", "", [], 1⟩, ⟨.integer integer, "\\\n", ["\\\n"], 1⟩, ⟨.symbol ")", "", [], 2⟩]

/-- The largest integer in base sixteen. -/
def limitToken : List Char := '0' :: 'X' :: spaced limitDigits

theorem isInteger_limitToken : IsInteger limitToken 9223372036854775807 := by
  have hmarked : IsInteger limitToken (magnitude 16 (limitDigits.map Prod.snd)) :=
    .marked .hexadecimal (by decide) (by decide) (by decide)
  have hmagnitude : magnitude 16 (limitDigits.map Prod.snd) = 9223372036854775807 := by decide +kernel
  rwa [hmagnitude] at hmarked

/-- The largest integer behind signs, and in brackets that open with a joined line end. -/
theorem integers_exact_limitToken :
    String.ofList limitToken = "0X_7FFF_ffff_ffff_ffff"
      ∧ IsInteger limitToken 9223372036854775807
      ∧ Source.Number.split (limitToken ++ [')']) = some (.integer, limitToken, [')'])
      ∧ (∃ x, Source.expression (.head 0) (joinedTokens (String.ofList limitToken) ++ []) = .ok (x, [])
        ∧ ¬∃ i, lowerExpr x = .literal (.int i))
      ∧ (∃ line, outline? (defaultSource (String.ofList (Wrapper.around [.plus, .round false, .minus] limitToken)))
        = .ok [.functionDef ⟨"f", { args := [⟨"p", none⟩], defaults := [.literal (.int (-9223372036854775807))] }, [],
          none, none, line⟩ [.other]])
      ∧ -(2 ^ 63 - 1) ≤ (-9223372036854775807 : Int64).toInt
      ∧ (- -9223372036854775807 : Int64).toInt = -(-9223372036854775807 : Int64).toInt := by
  have hinner : Lays (String.ofList limitToken) [] [⟨.integer (String.ofList limitToken), "\\\n", ["\\\n"], 1⟩] :=
    .token rfl
  have hlays : Lays (String.ofList limitToken) [.round true] (joinedTokens (String.ofList limitToken)) :=
    .round rfl rfl hinner
  have hbehind : Behind (.head 0) [] := rfl
  have hstops : Source.Lexer.Stops Source.Lexer.endsNumber [')'] := Source.Lexer.stops_cons (by decide)
  have hws : Wrapper.round true ∉ [.plus, .round false, .minus] := by decide
  obtain ⟨x, hread, hx⟩ := (integers_exact [.round true] isInteger_limitToken).2.1 hlays hbehind
  obtain ⟨hsplit, -, htext, hleast, hneg⟩ := integers_exact [.plus, .round false, .minus] isInteger_limitToken
  obtain ⟨y, line, houtline, hy⟩ := htext hws
  obtain ⟨i, rfl⟩ := hy.int_iff.mpr ⟨by decide, hws⟩
  have hi : i = -9223372036854775807 := Int64.toInt_inj.mp ((hy.value i rfl).trans (by decide +kernel))
  subst hi
  have hnumber : number? (lowerExpr (.unary "-" (.integer "9223372036854775807") "-9223372036854775807"))
      = some (.int (-9223372036854775807)) := by decide +kernel
  refine ⟨by decide +kernel, isInteger_limitToken, hsplit hstops, ⟨x, hread, ?_⟩, ⟨line, houtline⟩,
    hleast houtline _ List.mem_cons_self, hneg hnumber⟩
  intro hint
  exact absurd (hx.int_iff.mp hint).2 (by decide)

/-- The values of the defaults of functions. -/
def defaultValues (outline : List Node) : List (Option Literal) :=
  outline.flatMap fun
    | .functionDef head _ => head.parameters.defaults.map Expr.literal?
    | _ => []

/-- Brackets around an integer that open with a joined line end lose it. -/
theorem joined_bracket_loses_integer :
    (∃ n ≤ 2 ^ 63 - 1, IsInteger ['5'] n)
      ∧ (outline? (defaultSource "(5)")).map defaultValues = .ok [some (.int 5)]
      ∧ (outline? (defaultSource "(\\\n5)")).map defaultValues = .ok [none] := by
  refine ⟨⟨5, by decide, ?_⟩, by decide +kernel, by decide +kernel⟩
  exact .decimal ⟨'5', 5, by decide⟩ [] (by decide) (by decide)

end Outline

end ClassCli
