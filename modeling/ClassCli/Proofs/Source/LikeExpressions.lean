import ClassCli.Source.ExprReading
import ClassCli.Proofs.Attempt
import ClassCli.Proofs.Source.Likeness

/-!
# Expressions that are read alike

The trees of alike tokens have the same form: the names in them are the same words, and the texts of
strings and of expressions that are kept as text are alike.

* **`Expr.Like`** — alike trees of expressions.
* **`Readers.Uniform`** — readers of expressions and targets that respect a likeness.
* **`uniform_readers`** — the readers of every depth do.
-/

namespace ClassCli.Source

/-! ## Alike trees -/

/-- The same word, which has the property asked for. -/
def Likeness.SameWord (L : Likeness) (a b : String) : Prop := a = b ∧ L.Word a

/-- Alike trees. -/
inductive Expr.Like (L : Likeness) : Expr → Expr → Prop
  | name {text : String} : L.Word text → Like L (.name text) (.name text)
  | attr {x x' : Expr} {field : String} :
      Like L x x' → L.Word field → Like L (.attribute x field) (.attribute x' field)
  | subscript {a b : String} : L.Text a b → Like L (.subscript a) (.subscript b)
  | call {f f' : Expr} {xs xs' : List Expr} :
      Like L f f' → List.Forall₂ (Like L) xs xs' → Like L (.call f xs) (.call f' xs')
  | generatorCall {f f' : Expr} {a b : String} :
      Like L f f' → L.Text a b → Like L (.generatorCall f a) (.generatorCall f' b)
  | keyword {name : String} {x x' : Expr} :
      L.Word name → Like L x x' → Like L (.keyword name x) (.keyword name x')
  | integer (text : String) : Like L (.integer text) (.integer text)
  | float (text : String) : Like L (.float text) (.float text)
  | string {parts parts' : List String} {a b : String} :
      List.Forall₂ L.Text parts parts' → L.Text a b → Like L (.string parts a) (.string parts' b)
  | truth (value : Bool) : Like L (.truth value) (.truth value)
  | none : Like L .none .none
  | list {xs xs' : List Expr} : List.Forall₂ (Like L) xs xs' → Like L (.list xs) (.list xs')
  | tuple {xs xs' : List Expr} : List.Forall₂ (Like L) xs xs' → Like L (.tuple xs) (.tuple xs')
  | group {x x' : Expr} : Like L x x' → Like L (.group x) (.group x')
  | unary {operator : String} {x x' : Expr} {a b : String} :
      Like L x x' → L.Text a b → Like L (.unary operator x a) (.unary operator x' b)
  | splat {a b : String} : L.Text a b → Like L (.splat a) (.splat b)
  | other {a b : String} : L.Text a b → Like L (.other a) (.other b)

variable {L : Likeness} {ts ts' rest rest' : Tokens} {x x' : Expr}

theorem Expr.Like.isPlace (h : Expr.Like L x x') : x.isPlace = x'.isPlace := by
  cases h <;> rfl

mutual

theorem Expr.Like.isTarget {x x' : Expr} (h : Expr.Like L x x') : x.isTarget = x'.isTarget := by
  cases h with
  | list hs | tuple hs =>
    simp only [Expr.isTarget]
    exact areTargets_like hs
  | group hx =>
    simp only [Expr.isTarget]
    exact Expr.Like.isTarget hx
  | _ => rfl

theorem areTargets_like {xs xs' : List Expr} (h : List.Forall₂ (Expr.Like L) xs xs') :
    Expr.areTargets xs = Expr.areTargets xs' := by
  cases h with
  | nil => rfl
  | cons hx hs => simp only [Expr.areTargets, Expr.Like.isTarget hx, areTargets_like hs]

end

theorem joinItems_like (h : Tokens.Like L ts ts') :
    List.Forall₂ (Expr.Like L) (joinItems ts) (joinItems ts') := by
  cases h.pairs with
  | nil => exact .nil
  | cons ht _ => exact List.forall₂_map_left_iff.2 (List.forall₂_map_right_iff.2 (ht.joins.imp fun _ _ => .other))

/-- A joined line end that stands for what it comes before. -/
theorem firstJoin_like (h : Tokens.Like L ts ts') (hx : Expr.Like L x x') :
    Expr.Like L ((joinItems ts).head?.getD x) ((joinItems ts').head?.getD x') := by
  have hs := joinItems_like h
  generalize joinItems ts = xs, joinItems ts' = xs' at hs ⊢
  cases hs with
  | nil => exact hx
  | cons hy _ => exact hy

/-- Splicing what was read with joined line ends in front of and behind it. -/
theorem around_like (h : Tokens.Like L ts ts') (hx : Expr.Like L x x')
    (hrest : Tokens.Like L rest rest') :
    List.Forall₂ (Expr.Like L) (joinItems ts ++ x :: joinItems rest)
      (joinItems ts' ++ x' :: joinItems rest') :=
  List.rel_append (joinItems_like h) (.cons hx (joinItems_like hrest))

/-! ## Lists -/

theorem respects_bracketItems {item : Tokens → Except Tokens (Expr × Tokens)}
    (hitem : Respects L (Expr.Like L) item) (close : String) (fuel : Nat) :
    Respects L (List.Forall₂ (Expr.Like L)) (bracketItems item close fuel) := by
  induction fuel with
  | zero => exact fun _ _ _ => .error
  | succ fuel ih =>
    intro ts ts' h
    refine .ite (h.atSymbol close) (.ok (joinItems_like h) (h.drop 1)) ?_
    refine .bind (hitem h) fun hx hrest => ?_
    have here := around_like h hx hrest
    refine .ite (hrest.atSymbol ",") ?_ ?_
    · exact .bind (ih (hrest.drop 1)) fun hxs hrest => .ok (List.rel_append here hxs) hrest
    · exact .ite (hrest.atSymbol close) (.ok here (hrest.drop 1)) .error

theorem respects_identifier : Respects L L.SameWord identifier := by
  intro ts ts' h
  have hrest := h.drop 1
  cases h.pairs with
  | nil => exact .error
  | @cons t t' _ _ ht _ =>
    obtain ⟨l, gap, joins, line⟩ := t
    obtain ⟨l', gap', joins', line'⟩ := t'
    cases ht.lexeme with
    | same l hs hl =>
      cases l with
      | word text => exact .ok ⟨rfl, hs⟩ hrest
      | _ => exact .error
    | _ => exact .error

/-- Readers of expressions that respect a likeness at every place. -/
def Uniform (L : Likeness) (e : ExprReader) : Prop := ∀ p, Respects L (Expr.Like L) (e p)

section Complete

variable {e : ExprReader} (he : Uniform L e)

include he

theorem respects_expressions (p : Place) :
    Respects L (List.Forall₂ (Expr.Like L)) (expressions e p) := by
  intro ts ts' h
  unfold expressions
  rw [h.length_eq]
  exact respects_commaList (he p) Tokens.Like.atExpressionEnd (·.next p) _ (h.start p)

theorem respects_expressionList (p : Place) : Respects L (Expr.Like L) (expressionList e p) := by
  intro ts ts' h
  refine .bind (respects_expressions he p h) fun {xs xs' rest rest'} hxs hrest => ?_
  have htext := spelled_like (h.start p) hrest
  cases hxs with
  | nil => exact .ok (.other htext) hrest
  | cons hx hxs =>
    cases hxs with
    | nil => exact .ok hx hrest
    | cons => exact .ok (.other htext) hrest

theorem respects_yieldExpr (p : Place) : Respects L (Expr.Like L) (yieldExpr e p) := by
  intro ts ts' h
  refine .bind (respects_word "yield" h) fun _ hrest => ?_
  refine .ite (hrest.atWord "from") ?_ (.ite hrest.atExpressionEnd ?_ ?_)
  · exact .bind (he p (hrest.drop 1)) fun _ hrest => .ok (.other (spelled_like h hrest)) hrest
  · exact .ok (.other (spelled_like h hrest)) hrest
  · exact .bind (respects_expressions he p hrest) fun _ hrest =>
      .ok (.other (spelled_like h hrest)) hrest

/-! ## Strings -/

omit he in
theorem respects_formatPieces {field : Tokens → Except Tokens (Unit × Tokens)} {isEnd : Lexeme → Bool}
    (hfield : Respects L (fun _ _ => True) field)
    (hend : ∀ {l l' : Lexeme}, Lexeme.Like L l l' → isEnd l = isEnd l') (fuel : Nat) :
    Respects L (fun _ _ => True) (formatPieces field isEnd fuel) := by
  induction fuel with
  | zero => exact fun _ _ _ => .error
  | succ fuel ih =>
    intro ts ts' h
    refine .ite (hend h.lexeme?) (.ok trivial (h.drop 1)) ?_
    have hl := h.lexeme?
    generalize lexeme? ts = l, lexeme? ts' = l' at hl ⊢
    cases hl with
    | same l hs =>
      cases l with
      | fieldOpen => exact .bind (hfield (h.drop 1)) fun _ hrest => ih hrest
      | formatText => exact ih (h.drop 1)
      | _ => exact .error
    | formatText => exact ih (h.drop 1)
    | _ => exact .error

omit he in
theorem pastConversion_like (h : Tokens.Like L ts ts') :
    Tokens.Like L (match lexeme? ts with | .conversion _ => ts.drop 1 | _ => ts)
      (match lexeme? ts' with | .conversion _ => ts'.drop 1 | _ => ts') := by
  have hl := h.lexeme?
  generalize lexeme? ts = l, lexeme? ts' = l' at hl ⊢
  cases hl with
  | same l hs =>
    cases l with
    | conversion => exact h.drop 1
    | _ => exact h
  | _ => exact h

omit he in
/-- What may stand behind the expression of a field. -/
theorem fieldEnd_agree {field : Tokens → Except Tokens (Unit × Tokens)}
    (hfield : Respects L (fun _ _ => True) field) (hrest : Tokens.Like L rest rest') :
    Agree (ε := Tokens) L (fun _ _ => True)
      (match lexeme? rest with
        | .fieldClose => .ok ((), rest.drop 1)
        | .fieldColon => formatPieces field (· == .fieldClose) rest.length (rest.drop 1)
        | _ => .error rest)
      (match lexeme? rest' with
        | .fieldClose => .ok ((), rest'.drop 1)
        | .fieldColon => formatPieces field (· == .fieldClose) rest'.length (rest'.drop 1)
        | _ => .error rest') := by
  have hl := hrest.lexeme?
  rw [hrest.length_eq]
  generalize lexeme? rest = l, lexeme? rest' = l' at hl ⊢
  cases hl with
  | same l hs =>
    cases l with
    | fieldClose => exact .ok trivial (hrest.drop 1)
    | fieldColon =>
      refine respects_formatPieces hfield ?_ _ (hrest.drop 1)
      intro l l' hl
      cases hl <;> rfl
    | _ => exact .error
  | _ => exact .error

theorem respects_formatField (p : Place) (fuel : Nat) :
    Respects L (fun _ _ => True) (formatField e p fuel) := by
  induction fuel with
  | zero => exact fun _ _ _ => .error
  | succ fuel ih =>
    intro ts ts' h
    refine .ite (h.atWord "yield") (.bind (respects_yieldExpr he p h) fun _ hrest => ?_)
      (.bind (respects_expressionList he p h) fun _ hrest => ?_)
    · exact fieldEnd_agree ih (pastConversion_like ((hrest.drop 1).ite hrest (hrest.atSymbol "=")))
    · exact fieldEnd_agree ih (pastConversion_like ((hrest.drop 1).ite hrest (hrest.atSymbol "=")))

/-- The parts of a string with fields. -/
theorem formatted_agree (p : Place) (fuel : Nat) (h : Tokens.Like L ts ts') : Agree L L.Text
    (do let ((), rest) ← formatPieces (formatField e p.inside fuel) closesFormat fuel (ts.drop 1)
        .ok (Token.spelled ts rest, rest))
    (do let ((), rest) ← formatPieces (formatField e p.inside fuel) closesFormat fuel (ts'.drop 1)
        .ok (Token.spelled ts' rest, rest)) := by
  refine .bind (respects_formatPieces (respects_formatField he p.inside _) ?_ _ (h.drop 1)) ?_
  · intro l l' hl
    cases hl <;> rfl
  · intro _ _ rest rest' _ hrest
    exact .ok (spelled_like h hrest) hrest

/-- One string literal. -/
theorem respects_stringPart (p : Place) : Respects L L.Text (stringPart e p) := by
  intro ts ts' h
  unfold stringPart
  have hl := h.lexeme?
  rw [h.length_eq]
  generalize lexeme? ts = l, lexeme? ts' = l' at hl ⊢
  cases hl with
  | same l hs =>
    cases l with
    | string => exact hs.elim
    | formatOpen => exact formatted_agree he p _ h
    | _ => exact .error
  | string htext => exact .ok htext (h.drop 1)
  | _ => exact .error

omit he in
theorem atString_like (h : Tokens.Like L ts ts') : atString ts = atString ts' := by
  have hl := h.lexeme?
  unfold atString
  generalize lexeme? ts = l, lexeme? ts' = l' at hl ⊢
  cases hl <;> rfl

theorem respects_stringParts (p : Place) (fuel : Nat) :
    Respects L (List.Forall₂ L.Text) (stringParts e p fuel) := by
  induction fuel with
  | zero => exact fun _ _ _ => .error
  | succ fuel ih =>
    intro ts ts' h
    refine .bind (respects_stringPart he p h) fun hpart hrest => ?_
    refine .ite (atString_like (hrest.next p)) ?_ (.ok (.cons hpart .nil) hrest)
    exact .bind (ih (hrest.next p)) fun hparts hrest => .ok (.cons hpart hparts) hrest

/-! ## Brackets -/

omit he in
/-- A star makes a splat of the same expressions on both sides. -/
theorem starred_like (hx : Expr.Like L x x') {a b : String} (htext : L.Text a b) :
    Expr.Like L (if x.isPlace then .splat a else .other a) (if x'.isPlace then .splat b else .other b) := by
  rw [hx.isPlace]
  split
  · exact .splat htext
  · exact .other htext

theorem respects_element (p : Place) : Respects L (Expr.Like L) (element e p) := by
  intro ts ts' h
  refine .ite (h.atSymbol "*") ?_ (.ite (h.atWord "yield") (respects_yieldExpr he p h) (he p h))
  refine .bind (he p (h.drop 1)) fun hx hrest => ?_
  exact .ok (starred_like hx (spelled_like h hrest)) hrest

omit he in
theorem atComprehension_like (h : Tokens.Like L ts ts') : atComprehension ts = atComprehension ts' := by
  unfold atComprehension
  rw [h.atWord, h.atWord, (h.drop 1).atWord]

omit he in
theorem endsClause_like (h : Tokens.Like L ts ts') : endsClause ts = endsClause ts' := by
  unfold endsClause
  rw [h.atExpressionEnd, atComprehension_like h, h.atWord]

theorem respects_comprehension {target : Tokens → Except Tokens (Expr × Tokens)}
    (htarget : Respects L (Expr.Like L) target) (p : Place) (fuel : Nat) :
    Respects L (fun _ _ => True) (comprehension e target p fuel) := by
  induction fuel with
  | zero => exact fun _ _ _ => .error
  | succ fuel ih =>
    intro ts ts' h
    refine .ite (atComprehension_like h) ?_ (.ite (h.atWord "if") ?_ (.ok trivial h))
    · have hstart := (h.drop 2).ite (h.drop 1) (h.atWord "async")
      dsimp only
      rw [hstart.length_eq]
      refine .bind (respects_commaList htarget (·.atWord "in") (fun h => h) _ hstart) fun _ hrest => ?_
      refine .bind (respects_word "in" hrest) fun {_ _ rest rest'} _ hrest => ?_
      dsimp only
      rw [hrest.length_eq]
      refine .bind (respects_commaList (he p.inClause) endsClause_like (fun h => h) _ hrest) fun _ hrest => ?_
      exact ih hrest
    · exact .bind (he p.inClause (h.drop 1)) fun _ hrest => ih hrest

end Complete

/-! ## Operands -/

/-- Readers of expressions and targets that respect a likeness. -/
structure Readers.Uniform (L : Likeness) (r : Readers) : Prop where
  expression : Source.Uniform L r.expression
  target (p : Place) : Respects L (Expr.Like L) (r.target p)

namespace Readers.Uniform

variable {r : Readers} (hr : r.Uniform L)

include hr

theorem clauses (p : Place) (close : String) :
    Respects L (fun _ _ => True) (r.clauses p close) := by
  intro ts ts' h
  unfold Readers.clauses
  rw [h.length_eq]
  exact .bind (respects_comprehension hr.expression (hr.target p) p _ h) fun _ hrest =>
    respects_symbol close hrest

theorem round (p : Place) : Respects L (Expr.Like L) (r.round p) := by
  intro ts ts' h
  refine .bind (respects_symbol "(" h) fun _ hinner => ?_
  refine .ite (hinner.atSymbol ")") (.ok (.tuple (joinItems_like hinner)) (hinner.drop 1)) ?_
  refine .bind (respects_element hr.expression p.inside hinner) fun {x x' rest rest'} hx hrest => ?_
  refine .ite (atComprehension_like hrest) ?_ (.ite (hrest.atSymbol ")") ?_ (.ite (hrest.atSymbol ",") ?_ .error))
  · exact .bind (hr.clauses p.inside ")" hrest) fun _ hrest => .ok (.other (spelled_like h hrest)) hrest
  · exact .ok (.group (firstJoin_like hinner hx)) (hrest.drop 1)
  · dsimp only
    rw [hrest.length_eq]
    refine .bind (respects_bracketItems (respects_element hr.expression p.inside) ")" _ (hrest.drop 1))
      fun hxs hrest' => ?_
    exact .ok (.tuple (List.rel_append (around_like hinner hx hrest) hxs)) hrest'

theorem square (p : Place) : Respects L (Expr.Like L) (r.square p) := by
  intro ts ts' h
  refine .bind (respects_symbol "[" h) fun _ hinner => ?_
  refine .ite (hinner.atSymbol "]") (.ok (.list (joinItems_like hinner)) (hinner.drop 1)) ?_
  refine .bind (respects_element hr.expression p.inside hinner) fun {x x' rest rest'} hx hrest => ?_
  refine .ite (atComprehension_like hrest) ?_ (.ite (hrest.atSymbol "]") ?_ (.ite (hrest.atSymbol ",") ?_ .error))
  · exact .bind (hr.clauses p.inside "]" hrest) fun _ hrest => .ok (.other (spelled_like h hrest)) hrest
  · exact .ok (.list (around_like hinner hx hrest)) (hrest.drop 1)
  · dsimp only
    rw [hrest.length_eq]
    refine .bind (respects_bracketItems (respects_element hr.expression p.inside) "]" _ (hrest.drop 1))
      fun hxs hrest' => ?_
    exact .ok (.list (List.rel_append (around_like hinner hx hrest) hxs)) hrest'

theorem entry (p : Place) : Respects L (Expr.Like L) (r.entry p) := by
  intro ts ts' h
  refine .ite (h.atSymbol "**") (hr.expression p (h.drop 1)) ?_
  refine .bind (hr.expression p h) fun _ hrest => ?_
  exact .bind (respects_symbol ":" hrest) fun _ hrest => hr.expression p hrest

theorem curly (p : Place) : Respects L (Expr.Like L) (r.curly p) := by
  intro ts ts' h
  have hitem (isEntry : Bool) : Respects L (Expr.Like L)
      (if isEntry then r.entry p.inside else element r.expression p.inside) := by
    cases isEntry
    · exact respects_element hr.expression p.inside
    · exact hr.entry p.inside
  refine .bind (respects_symbol "\x7b" h) fun _ hinner => ?_
  refine .ite (hinner.atSymbol "\x7d") (.ok (.other (spelled_like h (hinner.drop 1))) (hinner.drop 1)) ?_
  refine .ite (hinner.atSymbol ",") ?_ ?_
  · exact .bind (respects_symbol "\x7d" (hinner.drop 1)) fun _ hrest =>
      .ok (.other (spelled_like h hrest)) hrest
  -- what follows the first item is the same in each case, whichever the item was
  refine .ite (hinner.atSymbol "**")
    (.bind (hr.entry p.inside hinner) fun {_ _ rest rest'} _ hrest => ?_)
    (.bind (respects_element hr.expression p.inside hinner) fun _ hrest => .ite (hrest.atSymbol ":")
      (.bind (hr.expression p.inside (hrest.drop 1)) fun {_ _ rest rest'} _ hrest => ?_) ?_)
  all_goals
    refine .ite (atComprehension_like hrest) ?_
      (.ite (hrest.atSymbol "\x7d") ?_ (.ite (hrest.atSymbol ",") ?_ .error))
    · exact .bind (hr.clauses p.inside "\x7d" hrest) fun _ hrest =>
        .ok (.other (spelled_like h hrest)) hrest
    · exact .ok (.other (spelled_like h (hrest.drop 1))) (hrest.drop 1)
    · dsimp only
      rw [hrest.length_eq]
      exact .bind (respects_bracketItems (hitem _) "\x7d" _ (hrest.drop 1)) fun _ hrest =>
        .ok (.other (spelled_like h hrest)) hrest

theorem argument (p : Place) : Respects L (Expr.Like L) (r.argument p) := by
  intro ts ts' h
  unfold Readers.argument
  have hl := h.lexeme?
  generalize lexeme? ts = l, lexeme? ts' = l' at hl ⊢
  cases hl with
  | same l hs =>
    split
    · exact .bind (hr.expression p (h.drop 1)) fun _ hrest => .ok (.other (spelled_like h hrest)) hrest
    · exact .bind (hr.expression p (h.drop 1)) fun _ hrest => .ok (.other (spelled_like h hrest)) hrest
    · rw [(h.drop 1).atSymbol]
      split
      · exact .bind (hr.expression p (h.drop 2)) fun hx hrest => .ok (.keyword hs hx) hrest
      · exact hr.expression p h
    · exact hr.expression p h
  | _ => exact hr.expression p h

theorem arguments (p : Place) {callee callee' : Expr} (hcallee : Expr.Like L callee callee')
    (h : Tokens.Like L ts ts') :
    Agree L (Expr.Like L) (r.arguments p callee ts) (r.arguments p callee' ts') := by
  refine .bind (respects_symbol "(" h) fun _ hinner => ?_
  refine .ite (hinner.atSymbol ",") ?_ (.ite (hinner.atSymbol ")") ?_ ?_)
  · refine .bind (respects_symbol ")" (hinner.drop 1)) fun _ hrest => ?_
    exact .ok (.call hcallee (List.rel_append (joinItems_like hinner) (joinItems_like (hinner.drop 1)))) hrest
  · exact .ok (.call hcallee (joinItems_like hinner)) (hinner.drop 1)
  refine .bind (hr.argument p.inside hinner) fun {x x' rest rest'} hx hrest => ?_
  have here := around_like hinner hx hrest
  refine .ite (atComprehension_like hrest) ?_ (.ite (hrest.atSymbol ")") ?_ (.ite (hrest.atSymbol ",") ?_ .error))
  · exact .bind (hr.clauses p.inside ")" hrest) fun _ hrest =>
      .ok (.generatorCall hcallee (spelled_like h hrest)) hrest
  · exact .ok (.call hcallee here) (hrest.drop 1)
  · dsimp only
    rw [hrest.length_eq]
    exact .bind (respects_bracketItems (hr.argument p.inside) ")" _ (hrest.drop 1)) fun hxs hrest =>
      .ok (.call hcallee (List.rel_append here hxs)) hrest

theorem optional (p : Place) : Respects L (fun _ _ => True) (r.optional p) := by
  intro ts ts' h
  refine .ite h.atExpressionEnd (.ok trivial h) ?_
  exact .bind (hr.expression p h) fun _ hrest => .ok trivial hrest

/-- What may follow the first bound of a slice. -/
theorem slice_agree (p : Place) (hx : Expr.Like L x x') (hrest : Tokens.Like L rest rest') :
    Agree (ε := Tokens) L (Expr.Like L)
      (if atSymbol ":" rest then do
        let ((), rest) ← r.optional p (rest.drop 1)
        if atSymbol ":" rest then
          let ((), rest) ← r.optional p (rest.drop 1)
          .ok (.other "", rest)
        else .ok (.other "", rest)
      else .ok (x, rest))
      (if atSymbol ":" rest' then do
        let ((), rest') ← r.optional p (rest'.drop 1)
        if atSymbol ":" rest' then
          let ((), rest') ← r.optional p (rest'.drop 1)
          .ok (.other "", rest')
        else .ok (.other "", rest')
      else .ok (x', rest')) := by
  refine .ite (hrest.atSymbol ":") ?_ (.ok hx hrest)
  refine .bind (hr.optional p (hrest.drop 1)) fun _ hrest => ?_
  refine .ite (hrest.atSymbol ":") ?_ (.ok (.other L.empty) hrest)
  exact .bind (hr.optional p (hrest.drop 1)) fun _ hrest => .ok (.other L.empty) hrest

theorem index (p : Place) : Respects L (Expr.Like L) (r.index p) := by
  intro ts ts' h
  refine .ite (h.atSymbol ":") (hr.slice_agree p (.other L.empty) h) ?_
  exact .bind (hr.expression p h) (hr.slice_agree p)

theorem indices (p : Place) : Respects L (fun _ _ => True) (r.indices p) := by
  intro ts ts' h
  refine .bind (respects_symbol "[" h) fun {_ _ inner inner'} _ hinner => ?_
  dsimp only
  rw [hinner.length_eq]
  refine .bind (respects_commaList (hr.index p.inside) (·.atSymbol "]") (fun h => h) _ hinner) fun _ hrest => ?_
  exact respects_symbol "]" hrest

/-- A string, in any number of parts. -/
theorem string_agree (p : Place) (h : Tokens.Like L ts ts') : Agree (ε := Tokens) L (Expr.Like L)
    (do let (parts, rest) ← stringParts r.expression p ts.length ts
        .ok (.string parts (Token.spelled ts rest), rest))
    (do let (parts, rest) ← stringParts r.expression p ts'.length ts'
        .ok (.string parts (Token.spelled ts' rest), rest)) := by
  rw [h.length_eq]
  exact .bind (respects_stringParts hr.expression p _ h) fun hparts hrest =>
    .ok (.string hparts (spelled_like h hrest)) hrest

theorem atom (p : Place) : Respects L (Expr.Like L) (r.atom p) := by
  intro ts ts' h
  unfold Readers.atom
  have hl := h.lexeme?
  have hstring := hr.string_agree p h
  generalize lexeme? ts = l, lexeme? ts' = l' at hl ⊢
  cases hl with
  | same l hs htext =>
    split
    · exact .ok .none (h.drop 1)
    · exact .ok (.truth true) (h.drop 1)
    · exact .ok (.truth false) (h.drop 1)
    · exact .ok (.name hs) (h.drop 1)
    · exact .ok (.integer _) (h.drop 1)
    · exact .ok (.float _) (h.drop 1)
    · exact hs.elim
    · exact hstring
    · exact .ok (.other htext) (h.drop 1)
    · exact hr.round p h
    · exact hr.square p h
    · exact hr.curly p h
    · exact .error
  | string => exact hstring
  | _ => exact .error

theorem trailers (p : Place) {origin origin' : Tokens} (horigin : Tokens.Like L origin origin')
    (fuel : Nat) {x x' : Expr} (hx : Expr.Like L x x') (h : Tokens.Like L ts ts') :
    Agree L (Expr.Like L) (r.trailers p origin fuel x ts) (r.trailers p origin' fuel x' ts') := by
  induction fuel generalizing x x' ts ts' with
  | zero => exact .error
  | succ fuel ih =>
    unfold Readers.trailers
    have hnext := h.next p
    have hl := hnext.lexeme?
    generalize lexeme? (p.next ts) = l, lexeme? (p.next ts') = l' at hl ⊢
    cases hl with
    | same l hs =>
      split
      · exact .bind (respects_identifier ((hnext.drop 1).start p)) fun ⟨hname, hword⟩ hrest =>
          ih (hname ▸ .attr hx hword) hrest
      · exact .bind (hr.arguments p hx hnext) fun hcall hrest => ih hcall hrest
      · exact .bind (hr.indices p hnext) fun _ hrest => ih (.subscript (spelled_like horigin hrest)) hrest
      · exact .ok hx h
    | _ => exact .ok hx h

theorem postfixed (p : Place) : Respects L (Expr.Like L) (r.postfixed p) := by
  intro ts ts' h
  refine .bind (hr.atom p h) fun hx hrest => ?_
  dsimp only
  rw [h.length_eq]
  exact hr.trailers p h _ hx hrest

omit hr in
theorem atOperand_like (h : Tokens.Like L ts ts') : atOperand ts = Readers.atOperand ts' := by
  have hl := h.lexeme?
  unfold atOperand
  generalize lexeme? ts = l, lexeme? ts' = l' at hl ⊢
  cases hl <;> rfl

omit hr in
/-- A sign and what it stands before. -/
theorem signed_agree {operand : Tokens → Except Tokens (Expr × Tokens)}
    (hoperand : Respects L (Expr.Like L) operand) (mark : String) (h : Tokens.Like L ts ts') :
    Agree (ε := Tokens) L (Expr.Like L)
      (do let (x, rest) ← operand (ts.drop 1)
          .ok (.unary mark x (Token.spelled ts rest), rest))
      (do let (x, rest) ← operand (ts'.drop 1)
          .ok (.unary mark x (Token.spelled ts' rest), rest)) :=
  .bind (hoperand (h.drop 1)) fun hx hrest => .ok (.unary hx (spelled_like h hrest)) hrest

theorem primary (p : Place) (fuel : Nat) : Respects L (Expr.Like L) (r.primary p fuel) := by
  induction fuel with
  | zero => exact fun _ _ _ => .error
  | succ fuel ih =>
    intro ts ts' h
    unfold Readers.primary
    replace h := h.start p
    generalize p.start ts = ts, p.start ts' = ts' at h ⊢
    have hsigned (mark : String) := signed_agree ih mark h
    have hl := h.lexeme?
    dsimp only
    generalize lexeme? ts = l, lexeme? ts' = l' at hl ⊢
    cases hl with
    | same l hs =>
      split
      · exact hsigned "+"
      · exact hsigned "-"
      · exact hsigned "~"
      · exact .bind (hr.postfixed p ((h.drop 1).start p)) fun hx hrest =>
          .ok (starred_like hx (spelled_like h hrest)) hrest
      · refine .ite (atOperand_like (h.drop 1)) ?_ (hr.postfixed p h)
        exact .bind (ih (h.drop 1)) fun _ hrest => .ok (.other (spelled_like h hrest)) hrest
      · exact hr.postfixed p h
    | _ => exact hr.postfixed p h

/-! ## Chains of operators -/

omit hr in
theorem afterOperator_like (h : Tokens.Like L ts ts') :
    Option.Rel (Tokens.Like L) (afterOperator ts) (Readers.afterOperator ts') := by
  unfold Readers.afterOperator
  have hl := h.lexeme?
  generalize lexeme? ts = l, lexeme? ts' = l' at hl ⊢
  cases hl with
  | same l hs =>
    split
    · split
      · exact .some (h.drop 1)
      · exact .none
    · exact .some (h.drop 1)
    · rw [(h.drop 1).atWord]
      split
      · exact .some (h.drop 2)
      · exact .none
    · rw [(h.drop 1).atWord]
      split
      · exact .some (h.drop 2)
      · exact .some (h.drop 1)
    · exact .none
  | _ => exact .none

theorem chain (p : Place) (fuel : Nat) : Respects L (fun _ _ => True) (r.chain p fuel) := by
  induction fuel with
  | zero => exact fun _ _ _ => .error
  | succ fuel ih =>
    intro ts ts' h
    unfold Readers.chain
    have hafter := afterOperator_like (h.next p)
    generalize afterOperator (p.next ts) = o, afterOperator (p.next ts') = o' at hafter ⊢
    cases hafter with
    | none => exact .ok trivial h
    | some hrest =>
      dsimp only
      rw [hrest.length_eq]
      exact .bind (hr.primary p _ hrest) fun _ hrest => ih hrest

omit hr in
theorem whole_like (h : Tokens.Like L ts ts') (hx : Expr.Like L x x') {before before' : Tokens}
    (hbefore : Tokens.Like L before before') (hrest : Tokens.Like L rest rest') :
    Expr.Like L (whole ts x before rest) (Readers.whole ts' x' before' rest') := by
  unfold Readers.whole
  rw [hrest.length_eq, hbefore.length_eq]
  split
  · exact hx
  · exact .other (spelled_like h hrest)

theorem lambdaParam (p : Place) : Respects L (fun _ _ => True) (r.lambdaParam p) := by
  intro ts ts' h
  unfold Readers.lambdaParam
  have hl := h.lexeme?
  generalize lexeme? ts = l, lexeme? ts' = l' at hl ⊢
  cases hl with
  | same l hs =>
    split
    · exact .ok trivial (h.drop 1)
    · rw [(h.drop 1).atSymbol, (h.drop 1).atSymbol]
      split
      · exact .ok trivial (h.drop 1)
      · exact .bind (hr.postfixed p (h.drop 1)) fun _ hrest => .ok trivial hrest
    · exact .bind (hr.postfixed p (h.drop 1)) fun _ hrest => .ok trivial hrest
    · refine .bind (hr.round p h) fun hx hrest => ?_
      refine .ite (by rw [hx.isTarget]) .error (.ite (hrest.atSymbol "=") ?_ (.ok trivial hrest))
      exact .bind (hr.expression p (hrest.drop 1)) fun _ hrest => .ok trivial hrest
    · refine .ite ((h.drop 1).atSymbol "=") ?_ (.ok trivial (h.drop 1))
      exact .bind (hr.expression p (h.drop 2)) fun _ hrest => .ok trivial hrest
    · exact .error
  | _ => exact .error

/-- An operand and the operators behind it. -/
theorem chained_agree (p : Place) (h : Tokens.Like L ts ts') : Agree (ε := Tokens) L (Expr.Like L)
    (do let (x, rest) ← r.primary p (ts.length + 1) ts
        let ((), after) ← r.chain p (ts.length + 1) rest
        .ok (whole ts x rest after, after))
    (do let (x, rest) ← r.primary p (ts'.length + 1) ts'
        let ((), after) ← r.chain p (ts'.length + 1) rest
        .ok (whole ts' x rest after, after)) := by
  rw [h.length_eq]
  refine .bind (hr.primary p _ h) fun hx hrest => ?_
  exact .bind (hr.chain p _ hrest) fun _ hafter => .ok (whole_like h hx hrest hafter) hafter

/-- The body of an anonymous function. -/
theorem lambdaBody_agree (p : Place) (h : Tokens.Like L ts ts') (hrest : Tokens.Like L rest rest') :
    Agree (ε := Tokens) L (Expr.Like L)
      (do let ((), rest) ← symbol ":" rest
          let (_, rest) ← r.expression p rest
          .ok (.other (Token.spelled ts rest), rest))
      (do let ((), rest') ← symbol ":" rest'
          let (_, rest') ← r.expression p rest'
          .ok (.other (Token.spelled ts' rest'), rest')) := by
  refine .bind (respects_symbol ":" hrest) fun _ hrest => ?_
  exact .bind (hr.expression p hrest) fun _ hrest => .ok (.other (spelled_like h hrest)) hrest

theorem part (p : Place) (fuel : Nat) : Respects L (Expr.Like L) (r.part p fuel) := by
  induction fuel with
  | zero => exact fun _ _ _ => .error
  | succ fuel ih =>
    intro ts ts' h
    unfold Readers.part
    replace h := h.start p
    generalize p.start ts = ts, p.start ts' = ts' at h ⊢
    have hchain := hr.chained_agree p h
    have hl := h.lexeme?
    dsimp only
    generalize lexeme? ts = l, lexeme? ts' = l' at hl ⊢
    cases hl with
    | same l hs =>
      split
      · exact .bind (ih (h.drop 1)) fun _ hrest => .ok (.other (spelled_like h hrest)) hrest
      · have hparams := (h.drop 1).start p
        rw [hparams.length_eq]
        refine .ite (hparams.atSymbol ":") (hr.lambdaBody_agree p h hparams) ?_
        exact .bind (respects_commaList (hr.lambdaParam p) (·.atSymbol ":") (·.start p) _ hparams)
          fun _ hrest => hr.lambdaBody_agree p h (hrest.start p)
      · refine .ite ?_ ?_ hchain
        · cases l with
          | word => exact (h.drop 1).atSymbol ":="
          | _ => rfl
        · exact .bind (hr.expression p (h.drop 2)) fun _ hrest => .ok (.other (spelled_like h hrest)) hrest
    | _ => exact hchain

/-- A part behind a connective, and what follows it. -/
theorem connectedPart_agree (p : Place) {more : Tokens → Except Tokens (Unit × Tokens)}
    (hmore : Respects L (fun _ _ => True) more) (h : Tokens.Like L ts ts') :
    Agree (ε := Tokens) L (fun _ _ => True)
      (do let (_, rest) ← r.part p (ts.length + 1) (ts.drop 1)
          more rest)
      (do let (_, rest) ← r.part p (ts'.length + 1) (ts'.drop 1)
          more rest) := by
  rw [h.length_eq]
  exact .bind (hr.part p _ (h.drop 1)) fun _ hrest => hmore hrest

theorem connected (p : Place) (fuel : Nat) : Respects L (fun _ _ => True) (r.connected p fuel) := by
  induction fuel with
  | zero => exact fun _ _ _ => .error
  | succ fuel ih =>
    intro ts ts' h
    unfold Readers.connected
    have here := h.next p
    generalize p.next ts = next, p.next ts' = next' at here ⊢
    have hpart := hr.connectedPart_agree p ih here
    have hl := here.lexeme?
    dsimp only
    generalize lexeme? next = l, lexeme? next' = l' at hl ⊢
    cases hl with
    | same l hs =>
      split
      · exact hpart
      · exact hpart
      · exact hpart
      · split
        · refine .bind (hr.expression _ (here.drop 1)) fun _ hrest => ?_
          refine .bind (respects_word "else" (hrest.start p)) fun _ hrest => ?_
          dsimp only
          rw [hrest.length_eq]
          exact .bind (hr.part p _ hrest) fun _ hrest => ih hrest
        · exact .ok trivial h
      · exact .ok trivial h
    | _ => exact .ok trivial h

theorem complete (p : Place) : Respects L (Expr.Like L) (r.complete p) := by
  intro ts ts' h
  replace h := h.start p
  unfold Readers.complete
  dsimp only
  rw [h.length_eq]
  refine .bind (hr.part p _ h) fun hx hrest => ?_
  exact .bind (hr.connected p _ hrest) fun _ hafter => .ok (whole_like h hx hrest hafter) hafter

theorem bindable (p : Place) : Respects L (Expr.Like L) (r.bindable p) := by
  intro ts ts' h
  replace h := h.start p
  unfold Readers.bindable
  generalize p.start ts = ts, p.start ts' = ts' at h ⊢
  have htarget {x x' : Expr} {rest rest' : Tokens} (hx : Expr.Like L x x') (hrest : Tokens.Like L rest rest') :
      Agree L (Expr.Like L) (if x.isTarget then .ok (x, rest) else .error ts)
        (if x'.isTarget then .ok (x', rest') else .error ts') :=
    .ite hx.isTarget (.ok hx hrest) .error
  refine .ite (h.atSymbol "*") ?_ (.bind (hr.postfixed p h) htarget)
  refine .bind (hr.postfixed p ((h.drop 1).start p)) fun hx hrest => ?_
  exact .ite hx.isPlace (htarget (.splat (spelled_like h hrest)) hrest) .error

end Readers.Uniform

/-! ## Readers of every depth -/

/-- Readers at every depth respect a likeness: those of the next depth are made of them. -/
theorem uniform_readers (L : Likeness) (depth : Nat) : (readers depth).Uniform L := by
  induction depth with
  | zero => exact ⟨fun _ _ _ _ => .error, fun _ _ _ _ => .error⟩
  | succ depth ih => exact ⟨fun p => ih.complete p, fun p => ih.bindable p⟩

theorem respects_expression (p : Place) : Respects L (Expr.Like L) (expression p) := by
  intro ts ts' h
  unfold expression readersFor
  rw [h.length_eq]
  exact (uniform_readers L _).expression p h

theorem respects_target (p : Place) : Respects L (Expr.Like L) (target p) := by
  intro ts ts' h
  unfold target readersFor
  rw [h.length_eq]
  exact (uniform_readers L _).target p h

/-! ## What brackets take -/

/-- Any texts are alike, and no list of tokens is longer than a bound. -/
def Likeness.bounded (n : Nat) : Likeness where
  Text _ _ := True
  Word _ := True
  Within ts := ts.length ≤ n
  empty := trivial
  append _ _ := trivial
  tail h := Nat.le_of_succ_le h

theorem like_bounded (ts : Tokens) {n : Nat} (h : ts.length ≤ n) :
    Tokens.Like (.bounded n) ts ts := by
  refine ⟨List.forall₂_same.2 fun t _ => ⟨?_, trivial, List.forall₂_same.2 fun _ _ => trivial, rfl⟩, h⟩
  cases t.lexeme with
  | string => exact .string trivial
  | formatText => exact .formatText trivial
  | stray => exact .stray trivial
  | _ => exact .same _ trivial trivial

/-- A reader that respects the bound on the number of tokens leaves no more tokens than it finds. -/
theorem length_le_of_respects {α ε : Type} {X : α → α → Prop} {r : Tokens → Except ε (α × Tokens)}
    {x : α} (hr : Respects (.bounded ts.length) X r) (h : r ts = .ok (x, rest)) :
    rest.length ≤ ts.length := by
  have hagree := hr (like_bounded ts (Nat.le_refl _))
  rw [h] at hagree
  cases hagree with
  | ok _ hrest => exact hrest.within

theorem length_lt_of_symbol {mark : String} (h : symbol mark ts = .ok ((), rest)) :
    rest.length < ts.length := by
  unfold symbol at h
  split at h
  · rename_i hat
    cases h
    cases ts with
    | nil => cases hat
    | cons t ts => simp
  · cases h

/-- What opens with a round bracket takes at least the bracket. -/
theorem length_lt_of_round {depth : Nat} {p : Place} {x : Expr}
    (h : (readers depth).round p ts = .ok (x, rest)) : rest.length < ts.length := by
  have hr (ts : Tokens) := uniform_readers (.bounded ts.length) depth
  unfold Readers.round at h
  obtain ⟨⟨⟨⟩, inner⟩, hopen, h⟩ := except_bind_eq_ok.1 h
  have hinner := length_lt_of_symbol hopen
  dsimp only at h
  split at h
  · cases h
    simp only [List.length_drop]
    omega
  · obtain ⟨⟨y, after⟩, helement, h⟩ := except_bind_eq_ok.1 h
    have hafter := length_le_of_respects (respects_element (hr inner).expression p.inside) helement
    dsimp only at h
    split at h
    · obtain ⟨⟨⟨⟩, last⟩, hclauses, h⟩ := except_bind_eq_ok.1 h
      have hlast := length_le_of_respects ((hr after).clauses p.inside ")") hclauses
      cases h
      dsimp only
      omega
    · split at h
      · cases h
        simp only [List.length_drop]
        omega
      · split at h
        · obtain ⟨⟨ys, last⟩, hitems, h⟩ := except_bind_eq_ok.1 h
          have hlast := length_le_of_respects (respects_bracketItems
            (respects_element (hr (after.drop 1)).expression p.inside) ")" _) hitems
          rw [List.length_drop] at hlast
          cases h
          dsimp only
          omega
        · cases h

end ClassCli.Source
