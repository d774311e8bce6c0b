import ClassCli.Source.StmtReading
import ClassCli.Proofs.Source.LikeExpressions

/-!
# Modules that are read alike

Statements of alike tokens have alike trees, and they stand on the same lines. Patterns leave nothing
behind, so that of them only the tokens left count.

* **`Stmt.Like`** — alike trees of statements.
* **`respects_statements`** — the statements of a block respect a likeness.
* **`readModule_like`** — sources with alike tokens have alike modules, or neither can be read.
-/

namespace ClassCli.Source

/-! ## Alike trees -/

/-- Alike imported names. -/
structure ImportedName.Like (L : Likeness) (n n' : ImportedName) : Prop where
  name : L.Text n.name n'.name
  asName : Option.Rel L.SameWord n.asName n'.asName

/-- Whether a text opens with a round bracket, as that of a tuple of parameters does. -/
def IsRound (text : String) : Prop := ∃ tail, text = "(" ++ tail

/-- Alike parameters. A tuple with a default is named by its text. -/
inductive Param.Like (L : Likeness) : Param → Param → Prop
  | named {name : String} {typeHint typeHint' : Option String} {default default' : Option Expr} :
      L.Word name → Option.Rel L.Text typeHint typeHint' → Option.Rel (Expr.Like L) default default' →
      Like L (.plain name typeHint default) (.plain name typeHint' default')
  | tupled {a b : String} {default default' : Expr} :
      IsRound a → IsRound b → L.Text a b → Expr.Like L default default' →
      Like L (.plain a .none (some default)) (.plain b .none (some default'))
  | tuple : Like L .tuple .tuple
  | star {name name' : Option String} {typeHint typeHint' : Option String} :
      Option.Rel L.SameWord name name' → Option.Rel L.Text typeHint typeHint' →
      Like L (.star name typeHint) (.star name' typeHint')
  | bareStar : Like L .bareStar .bareStar
  | slash : Like L .slash .slash
  | doubleStar {name name' : Option String} {typeHint typeHint' : Option String} :
      Option.Rel L.SameWord name name' → Option.Rel L.Text typeHint typeHint' →
      Like L (.doubleStar name typeHint) (.doubleStar name' typeHint')

/-- Alike statements. -/
inductive Stmt.Like (L : Likeness) : Stmt → Stmt → Prop
  | classDef {decorators decorators' : List Expr} {name : String} {body body' : List Stmt} {line : Nat} :
      List.Forall₂ (Expr.Like L) decorators decorators' → L.Word name →
      List.Forall₂ (Like L) body body' →
      Like L (.classDef decorators name body line) (.classDef decorators' name body' line)
  | functionDef {decorators decorators' : List Expr} {name : String} {params params' : List Param}
      {returns returns' : Option String} {body body' : List Stmt} {line : Nat} :
      List.Forall₂ (Expr.Like L) decorators decorators' → L.Word name →
      List.Forall₂ (Param.Like L) params params' → Option.Rel L.Text returns returns' →
      List.Forall₂ (Like L) body body' →
      Like L (.functionDef decorators name params returns body line)
        (.functionDef decorators' name params' returns' body' line)
  | importNames {names names' : List ImportedName} :
      List.Forall₂ (ImportedName.Like L) names names' →
      Like L (.importNames names) (.importNames names')
  | importFrom {module module' : String} {names names' : List ImportedName} {wildcard : Bool} :
      L.Text module module' → List.Forall₂ (ImportedName.Like L) names names' →
      Like L (.importFrom module names wildcard) (.importFrom module' names' wildcard)
  | expression {x x' : Expr} : Expr.Like L x x' → Like L (.expression x) (.expression x')
  | assign {xs xs' : List Expr} :
      List.Forall₂ (Expr.Like L) xs xs' → Like L (.assign xs) (.assign xs')
  | compound {suites suites' : List (List Stmt)} :
      List.Forall₂ (List.Forall₂ (Like L)) suites suites' →
      Like L (.compound suites) (.compound suites')
  | other : Like L .other .other

variable {L : Likeness} {ts ts' rest rest' : Tokens}

/-! ## Names in imports -/

theorem respects_dottedRest (p : Place) (fuel : Nat) :
    Respects L (fun _ _ => True) (dottedRest p fuel) := by
  induction fuel with
  | zero => exact fun _ _ _ => .error
  | succ fuel ih =>
    intro ts ts' h
    refine .ite ((h.next p).atSymbol ".") ?_ (.ok trivial h)
    exact .bind (respects_identifier (((h.next p).drop 1).start p)) fun _ hrest => ih hrest

theorem respects_dottedName (p : Place) : Respects L L.Text (dottedName p) := by
  intro ts ts' h
  replace h := h.start p
  refine .bind (respects_identifier h) fun _ hrest => ?_
  dsimp only
  rw [hrest.length_eq]
  exact .bind (respects_dottedRest p _ hrest) fun _ hrest => .ok (spelled_like h hrest) hrest

theorem respects_importedName (p : Place) : Respects L (ImportedName.Like L) (importedName p) := by
  intro ts ts' h
  refine .bind (respects_dottedName p h) fun hname hrest => ?_
  refine .ite ((hrest.next p).atWord "as") ?_ (.ok ⟨hname, .none⟩ hrest)
  exact .bind (respects_identifier (((hrest.next p).drop 1).start p)) fun hword hrest =>
    .ok ⟨hname, .some hword⟩ hrest

theorem respects_importedNames (p : Place) :
    Respects L (List.Forall₂ (ImportedName.Like L)) (importedNames p) := by
  intro ts ts' h
  unfold importedNames
  rw [h.length_eq]
  refine respects_commaList (respects_importedName p) (fun h => ?_) (·.next p) _ (h.start p)
  rw [h.atStatementEnd, h.atSymbol]

theorem respects_importList (p : Place) :
    Respects L (List.Forall₂ (ImportedName.Like L)) (importList p) := by
  intro ts ts' h
  replace h := h.start p
  refine .ite (h.atSymbol "(") ?_ (respects_importedNames p h)
  refine .bind (respects_importedNames p.inside (h.drop 1)) fun hnames hrest => ?_
  exact .bind (respects_symbol ")" hrest) fun _ hrest => .ok hnames hrest

theorem leadingPoints_like (fuel : Nat) (h : Tokens.Like L ts ts') :
    Tokens.Like L (leadingPoints fuel ts) (leadingPoints fuel ts') := by
  induction fuel generalizing ts ts' with
  | zero => exact h
  | succ fuel ih => exact (ih (h.drop 1)).ite h (by rw [h.atSymbol, h.atSymbol])

theorem respects_modulePath (p : Place) : Respects L L.Text (modulePath p) := by
  intro ts ts' h
  replace h := h.start p
  unfold modulePath
  dsimp only
  have hrest := leadingPoints_like (p.start ts').length h
  rw [h.length_eq]
  refine .ite ?_ (.ok (spelled_like h hrest) hrest) ?_
  · rw [hrest.length_eq, (hrest.start p).atWord]
  · exact .bind (respects_dottedName p hrest) fun _ hrest => .ok (spelled_like h hrest) hrest

theorem respects_importFrom (p : Place) : Respects L (Stmt.Like L) (importFrom p) := by
  intro ts ts' h
  refine .ite ((h.start p).atWord "__future__") ?_ ?_
  · refine .bind (respects_word "import" (((h.start p).drop 1).start p)) fun _ hrest => ?_
    exact .bind (respects_importList p hrest) fun _ hrest => .ok .other hrest
  · refine .bind (respects_modulePath p h) fun hmodule hrest => ?_
    refine .bind (respects_word "import" (hrest.start p)) fun _ hrest => ?_
    refine .ite ((hrest.start p).atSymbol "*") (.ok (.importFrom hmodule .nil) ((hrest.start p).drop 1)) ?_
    exact .bind (respects_importList p hrest) fun hnames hrest => .ok (.importFrom hmodule hnames) hrest

/-! ## Expressions and assignments as statements -/

theorem respects_typeText (p : Place) : Respects L L.Text (typeText p) := by
  intro ts ts' h
  replace h := h.start p
  refine .bind (respects_expression p ((h.drop 1).ite h (h.atSymbol "**"))) fun _ hrest => ?_
  exact .ok (spelled_like h hrest) hrest

theorem atAugmented_like (h : Tokens.Like L ts ts') : atAugmented ts = atAugmented ts' := by
  have hl := h.lexeme?
  unfold atAugmented
  generalize lexeme? ts = l, lexeme? ts' = l' at hl ⊢
  cases hl <;> rfl

theorem gathered_like {xs xs' : List Expr} (h : List.Forall₂ (Expr.Like L) xs xs') :
    Expr.Like L (gathered xs) (gathered xs') := by
  cases h with
  | nil => exact .tuple .nil
  | cons hx hxs =>
    cases hxs with
    | nil => exact hx
    | cons hy hys => exact .tuple (.cons hx (.cons hy hys))

theorem respects_statementExprs (p : Place) :
    Respects L (List.Forall₂ (Expr.Like L)) (statementExprs p) := by
  intro ts ts' h
  replace h := h.start p
  unfold statementExprs readersFor
  dsimp only
  rw [h.length_eq]
  have he := (uniform_readers L ((p.start ts').length + 1)).expression
  refine .ite (h.atWord "yield") ?_ (respects_expressions he p h)
  exact .bind (respects_yieldExpr he p h) fun hx hrest => .ok (.cons hx .nil) hrest

/-- A value behind an equals sign, and further ones behind it. -/
theorem assigned_agree (p : Place) {fuel : Nat}
    (hmore : ∀ {ts ts' : Tokens} {ys ys' : List Expr}, List.Forall₂ (Expr.Like L) ys ys' →
      Tokens.Like L ts ts' → Agree L (List.Forall₂ (Expr.Like L)) (assignments p fuel ys ts) (assignments p fuel ys' ts'))
    {x x' : Expr} (hx : Expr.Like L x x') (hrest : Tokens.Like L rest rest') :
    Agree (ε := Tokens) L (List.Forall₂ (Expr.Like L))
      (if atSymbol "=" rest then do
        let (ys, rest) ← statementExprs p (rest.drop 1)
        let (targets, rest) ← assignments p fuel ys rest
        .ok (x :: targets, rest)
      else .ok ([x], rest))
      (if atSymbol "=" rest' then do
        let (ys, rest') ← statementExprs p (rest'.drop 1)
        let (targets, rest') ← assignments p fuel ys rest'
        .ok (x' :: targets, rest')
      else .ok ([x'], rest')) := by
  refine .ite (hrest.atSymbol "=") ?_ (.ok (.cons hx .nil) hrest)
  refine .bind (respects_statementExprs p (hrest.drop 1)) fun hys hrest => ?_
  exact .bind (hmore hys hrest) fun htargets hrest => .ok (.cons hx htargets) hrest

theorem respects_assignments (p : Place) (fuel : Nat) {xs xs' : List Expr}
    (hxs : List.Forall₂ (Expr.Like L) xs xs') (h : Tokens.Like L ts ts') :
    Agree L (List.Forall₂ (Expr.Like L)) (assignments p fuel xs ts) (assignments p fuel xs' ts') := by
  induction fuel generalizing xs xs' ts ts' with
  | zero => exact .error
  | succ fuel ih =>
    have hx := gathered_like hxs
    have hvalue {rest rest' : Tokens} (hrest : Tokens.Like L rest rest') := assigned_agree p ih hx hrest
    refine .ite ?_ (.ite (by rw [hx.isTarget]) .error (.ite (atAugmented_like h) ?_ ?_)) (.ok .nil h)
    · rw [h.atSymbol, h.atSymbol, atAugmented_like h]
    · refine .bind (respects_statementExprs p (h.drop 1)) fun hys hrest => ?_
      exact .bind (ih hys hrest) fun _ hrest => .ok .nil hrest
    · refine .ite (h.atSymbol ":") ?_ (hvalue h)
      exact .bind (respects_typeText p (h.drop 1)) fun _ hrest => hvalue hrest

theorem respects_expressionStatement (p : Place) :
    Respects L (Stmt.Like L) (expressionStatement p) := by
  intro ts ts' h
  refine .bind (respects_statementExprs p h) fun {xs xs' rest rest'} hxs hrest => ?_
  dsimp only
  rw [hrest.length_eq]
  refine .bind (respects_assignments p _ hxs hrest) fun {ys ys' after after'} hys hafter => ?_
  cases hys with
  | nil =>
    cases hxs with
    | nil => exact .ok (.assign .nil) hafter
    | cons hx _ =>
      dsimp only
      rw [hafter.length_eq]
      refine .ok ?_ hafter
      split
      · exact .expression hx
      · exact .other
  | cons hy hys => exact .ok (.assign (.cons hy hys)) hafter

/-! ## Statements that a word opens -/

theorem respects_dropped (p : Place) : Respects L (fun _ _ => True) (dropped p) := by
  intro ts ts' h
  unfold dropped readersFor
  rw [h.length_eq]
  exact .bind (respects_expressions (uniform_readers L _).expression p h) fun _ hrest => .ok trivial hrest

theorem respects_droppedIfAny (p : Place) : Respects L (fun _ _ => True) (droppedIfAny p) := by
  intro ts ts' h
  refine .ite ?_ (.ok trivial h) (respects_dropped p h)
  rw [h.atStatementEnd, h.atWord]

theorem respects_names (p : Place) : Respects L (List.Forall₂ L.SameWord) (names p) := by
  intro ts ts' h
  unfold names
  rw [h.length_eq]
  exact respects_commaList (fun _ _ h => respects_identifier (h.start p)) (fun _ => rfl) (·.next p) _ h

theorem respects_printStatement (p : Place) : Respects L (Stmt.Like L) (printStatement p) := by
  intro ts ts' h
  replace h := h.start p
  refine .ite (h.atSymbol ">>") ?_ ?_
  · exact .bind (respects_dropped p (h.drop 1)) fun _ hrest => .ok .other hrest
  · exact .bind (respects_dropped p h) fun _ hrest => .ok .other hrest

/-- Where code is to be executed. -/
theorem execPlace_agree (p : Place) (hrest : Tokens.Like L rest rest') :
    Agree (ε := Tokens) L (Stmt.Like L)
      (if atWord "in" (p.next rest) then do
        let ((), rest) ← dropped p ((p.next rest).drop 1)
        .ok (.other, rest)
      else .ok (.other, rest))
      (if atWord "in" (p.next rest') then do
        let ((), rest') ← dropped p ((p.next rest').drop 1)
        .ok (.other, rest')
      else .ok (.other, rest')) := by
  refine .ite ((hrest.next p).atWord "in") ?_ (.ok .other hrest)
  exact .bind (respects_dropped p ((hrest.next p).drop 1)) fun _ hrest => .ok .other hrest

theorem respects_execStatement (p : Place) : Respects L (Stmt.Like L) (execStatement p) := by
  intro ts ts' h
  replace h := h.start p
  unfold execStatement readersFor
  dsimp only
  rw [h.length_eq]
  refine .ite (atString_like h) ?_ ?_
  · exact .bind (respects_stringPart (uniform_readers L _).expression p h) fun _ hrest => execPlace_agree p hrest
  · exact .bind (respects_identifier h) fun _ hrest => execPlace_agree p hrest

theorem respects_typeStatement (p : Place) : Respects L (Stmt.Like L) (typeStatement p) := by
  intro ts ts' h
  refine .bind (respects_typeText p h) fun _ hrest => ?_
  refine .bind (respects_symbol "=" (hrest.start p)) fun _ hrest => ?_
  exact .bind (respects_typeText p hrest) fun _ hrest => .ok .other hrest

/-- The choice between two readings falls alike: a reading that fails or stops early does so on both
sides. -/
theorem orElse_agree {r r' s s' : Except Tokens (Stmt × Tokens)} (hr : Agree L (Stmt.Like L) r r')
    (hs : Agree L (Stmt.Like L) s s') : Agree L (Stmt.Like L) (orElse r s) (orElse r' s') := by
  cases hr with
  | error => exact hs
  | ok hx hrest => exact .ite hrest.atStatementEnd (.ok hx hrest) hs

theorem plain_agree {r r' : Except Tokens (Unit × Tokens)} (hr : Agree L (fun _ _ => True) r r') :
    Agree L (Stmt.Like L) (plain r) (plain r') := by
  cases hr with
  | error => exact .error
  | ok _ hrest => exact .ok .other hrest

theorem respects_simpleStatement (p : Place) : Respects L (Stmt.Like L) (simpleStatement p) := by
  intro ts ts' h
  unfold simpleStatement
  have hrest := h.drop 1
  have hl := h.lexeme?
  dsimp only
  generalize lexeme? ts = l, lexeme? ts' = l' at hl ⊢
  cases hl with
  | same l hs =>
    split
    · exact .bind (respects_importedNames p hrest) fun hnames hrest => .ok (.importNames hnames) hrest
    · exact respects_importFrom p hrest
    · exact .ok .other hrest
    · exact .ok .other hrest
    · exact .ok .other hrest
    · exact plain_agree (respects_dropped p hrest)
    · exact plain_agree (respects_dropped p hrest)
    · exact plain_agree (respects_droppedIfAny p hrest)
    · refine .bind (respects_droppedIfAny p hrest) fun _ hrest => ?_
      refine .ite (hrest.atWord "from") ?_ (.ok .other hrest)
      exact .bind (respects_expression p (hrest.drop 1)) fun _ hrest => .ok .other hrest
    · exact .bind (respects_names p hrest) fun _ hrest => .ok .other hrest
    · exact .bind (respects_names p hrest) fun _ hrest => .ok .other hrest
    · exact orElse_agree (respects_expressionStatement p h) (respects_printStatement p hrest)
    · exact orElse_agree (respects_expressionStatement p h) (respects_execStatement p hrest)
    · exact orElse_agree (respects_typeStatement p hrest) (respects_expressionStatement p h)
    · exact respects_expressionStatement p h
  | _ => exact respects_expressionStatement p h

/-! ## Patterns -/

/-- Readers of patterns that respect a likeness. -/
abbrev Steady (L : Likeness) (r : PatternReader) : Prop := Respects L (fun _ _ => True) r

theorem steady_patternItems {item : PatternReader} (hitem : Steady L item) (close : String) (fuel : Nat) :
    Steady L (patternItems item close fuel) := by
  induction fuel with
  | zero => exact fun _ _ _ => .error
  | succ fuel ih =>
    intro ts ts' h
    refine .ite (h.atSymbol close) (.ok trivial (h.drop 1)) ?_
    refine .bind (hitem h) fun _ hrest => ?_
    exact .ite (hrest.atSymbol ",") (ih (hrest.drop 1)) (respects_symbol close hrest)

theorem steady_starPattern : Steady L starPattern := by
  intro ts ts' h
  exact .bind (respects_identifier (h.drop 1)) fun _ hrest => .ok trivial hrest

theorem number_agree (h : Tokens.Like L ts ts') : Agree (ε := Tokens) L (fun _ _ => True)
    (match lexeme? ts with
      | .integer _ | .float _ => .ok ((), ts.drop 1)
      | _ => .error ts)
    (match lexeme? ts' with
      | .integer _ | .float _ => .ok ((), ts'.drop 1)
      | _ => .error ts') := by
  have hl := h.lexeme?
  generalize lexeme? ts = l, lexeme? ts' = l' at hl ⊢
  cases hl with
  | same l hs =>
    cases l with
    | integer | float => exact .ok trivial (h.drop 1)
    | _ => exact .error
  | _ => exact .error

theorem steady_numberPattern : Steady L numberPattern := by
  intro ts ts' h
  refine .bind (number_agree ((h.drop 1).ite h (h.atSymbol "-"))) fun _ hrest => ?_
  refine .ite ?_ (number_agree (hrest.drop 1)) (.ok trivial hrest)
  rw [hrest.atSymbol, hrest.atSymbol]

theorem steady_dottedPattern (fuel : Nat) : Steady L (dottedPattern fuel) := by
  induction fuel with
  | zero => exact fun _ _ _ => .error
  | succ fuel ih =>
    intro ts ts' h
    refine .bind (respects_identifier h) fun _ hrest => ?_
    exact .ite (hrest.atSymbol ".") (ih (hrest.drop 1)) (.ok trivial hrest)

theorem stringPattern_agree (p : Place) (h : Tokens.Like L ts ts') :
    Agree (ε := Tokens) L (fun _ _ => True)
      (do let (_, rest) ← stringParts (readersFor ts).expression p ts.length ts
          .ok ((), rest))
      (do let (_, rest) ← stringParts (readersFor ts').expression p ts'.length ts'
          .ok ((), rest)) := by
  unfold readersFor
  rw [h.length_eq]
  exact .bind (respects_stringParts (uniform_readers L _).expression p _ h) fun _ hrest => .ok trivial hrest

/-- Whether a name with a value stands at the front. -/
theorem keyword_like (h : Tokens.Like L ts ts') :
    (match lexeme? ts with | .word _ => atSymbol "=" (ts.drop 1) | _ => false)
      = (match lexeme? ts' with | .word _ => atSymbol "=" (ts'.drop 1) | _ => false) := by
  have hl := h.lexeme?
  rw [(h.drop 1).atSymbol]
  generalize lexeme? ts = l, lexeme? ts' = l' at hl ⊢
  cases hl <;> rfl

section Inner

variable {inner : PatternReader} (hinner : Steady L inner)

include hinner

theorem steady_simplePattern (p : Place) : Steady L (simplePattern p inner) := by
  intro ts ts' h
  unfold simplePattern
  have hstrings := stringPattern_agree p h
  rw [h.length_eq] at *
  have hl := h.lexeme?
  generalize lexeme? ts = l, lexeme? ts' = l' at hl ⊢
  cases hl with
  | same l hs =>
    split
    · exact steady_starPattern h
    · exact steady_starPattern h
    · exact steady_patternItems hinner "]" _ (h.drop 1)
    · exact steady_patternItems hinner ")" _ (h.drop 1)
    · exact steady_numberPattern h
    · exact steady_numberPattern h
    · exact steady_numberPattern h
    · exact hstrings
    · exact hstrings
    · refine .bind (steady_dottedPattern _ h) fun _ hrest => ?_
      dsimp only
      rw [hrest.length_eq]
      exact .ite (hrest.atSymbol "(") (steady_patternItems hinner ")" _ (hrest.drop 1)) (.ok trivial hrest)
    · exact .error
  | string => exact hstrings
  | _ => exact .error

theorem steady_entryPattern (p : Place) : Steady L (entryPattern p inner) := by
  intro ts ts' h
  refine .ite (by rw [h.atSymbol, h.atSymbol]) (steady_starPattern h) ?_
  refine .bind (steady_simplePattern hinner p h) fun _ hrest => ?_
  exact .bind (respects_symbol ":" hrest) fun _ hrest => hinner hrest

theorem steady_closedPattern (p : Place) : Steady L (closedPattern p inner) := by
  intro ts ts' h
  unfold closedPattern
  rw [h.length_eq]
  exact .ite (h.atSymbol "\x7b") (steady_patternItems (steady_entryPattern hinner p) "\x7d" _ (h.drop 1))
    (steady_simplePattern hinner p h)

theorem steady_alternatives (p : Place) (fuel : Nat) : Steady L (alternatives p inner fuel) := by
  induction fuel with
  | zero => exact fun _ _ _ => .error
  | succ fuel ih =>
    intro ts ts' h
    refine .ite (h.atSymbol "|") ?_ (.ok trivial h)
    exact .bind (steady_closedPattern hinner p (h.drop 1)) fun _ hrest => ih hrest

theorem steady_namedPattern (p : Place) : Steady L (namedPattern p inner) := by
  intro ts ts' h
  refine .bind (steady_closedPattern hinner p ((h.drop 2).ite h (keyword_like h))) fun _ hrest => ?_
  dsimp only
  rw [hrest.length_eq]
  refine .bind (steady_alternatives hinner p _ hrest) fun _ hrest => ?_
  refine .ite (hrest.atWord "as") ?_ (.ok trivial hrest)
  exact .bind (respects_identifier (hrest.drop 1)) fun _ hrest => .ok trivial hrest

end Inner

theorem steady_patternTo (p : Place) (depth : Nat) : Steady L (patternTo p depth) := by
  induction depth with
  | zero => exact fun _ _ _ => .error
  | succ depth ih => exact fun _ _ h => steady_namedPattern ih p h

theorem steady_pattern (p : Place) : Steady L (pattern p) := by
  intro ts ts' h
  unfold pattern
  rw [h.length_eq]
  exact steady_patternTo p _ (h.start p)

end ClassCli.Source
