import ClassCli.Proofs.Source.LikeStatements

/-!
# Modules that are read alike

Blocks, clauses and definitions of alike tokens have alike trees, and their statements stand on the same
lines. Fuel is the number of tokens, which is the same on both sides.

* **`respects_statements`** — the statements of a block respect a likeness.
* **`readModule_like`** — sources with alike tokens have alike modules, or neither can be read.
-/

namespace ClassCli.Source

variable {L : Likeness} {ts ts' rest rest' : Tokens}

theorem lineHere_like (h : Tokens.Like L ts ts') : lineHere ts = lineHere ts' := by
  cases h.pairs with
  | nil => rfl
  | cons ht _ => exact ht.line

theorem located_agree {α : Type} {X : α → α → Prop} {r r' : Except Tokens (α × Tokens)}
    (start start' : Tokens) (h : Agree L X r r') :
    Agree L X (located start r) (located start' r') := by
  cases h with
  | ok hx hrest => exact .ok hx hrest
  | error => exact .error

/-! ## Lines of simple statements -/

theorem joinStmts_like (h : Tokens.Like L ts ts') :
    List.Forall₂ (Stmt.Like L) (joinStmts ts) (joinStmts ts') := by
  cases h.pairs with
  | nil => exact .nil
  | cons ht _ =>
    exact List.forall₂_map_left_iff.2 (List.forall₂_map_right_iff.2 (ht.joins.imp fun _ _ _ => .other))

/-- Alike statements, one list or several. -/
abbrev Stmts.Like (L : Likeness) : List Stmt → List Stmt → Prop := List.Forall₂ (Stmt.Like L)

theorem respects_simpleLine (level fuel : Nat) :
    Respects L (Stmts.Like L) (simpleLine level fuel) := by
  induction fuel with
  | zero => exact fun _ _ _ => .error
  | succ fuel ih =>
    intro ts ts' h
    refine .bind (located_agree ts ts' (respects_simpleStatement (.statement level) h)) fun hx hrest => ?_
    have hfollowing := hrest.drop 1
    refine .ite (hrest.atSymbol ";") (.ite ?_ ?_ ?_) (.ite hrest.atStatementEnd ?_ .error)
    · rw [hfollowing.atStatementEnd, hfollowing.atSymbol]
    · exact .ok (.cons hx (joinStmts_like hrest)) hfollowing
    · refine .bind (ih hfollowing) fun hxs hlast => ?_
      exact .ok (.cons hx (List.rel_append (List.rel_append (joinStmts_like hrest)
        (joinStmts_like hfollowing)) hxs)) hlast
    · exact .ok (.cons hx .nil) hrest

/-! ## Suites and clauses -/

/-- A reader of blocks that respects a likeness at every indentation. -/
def BlockReader.Uniform (L : Likeness) (block : BlockReader) : Prop :=
  ∀ level, Respects L (Stmts.Like L) (block level)

section Block

variable {block : BlockReader} (hblock : block.Uniform L)

include hblock

theorem respects_suite (level : Nat) : Respects L (Stmts.Like L) (suite block level) := by
  intro ts ts' h
  cases h.ahead with
  | lineBreak hrest =>
    simp only [suite]
    split
    · exact hblock _ hrest
    · exact .ok .nil h
  | other hts hts' =>
    simp only [suite]
    rw [h.length_eq]
    exact respects_simpleLine level _ h

theorem respects_colonSuite (level : Nat) (start start' : Tokens) (h : Tokens.Like L ts ts') :
    Agree L (Stmts.Like L) (colonSuite block level start ts) (colonSuite block level start' ts') :=
  .bind (located_agree start start' (respects_symbol ":" (h.skipBreak level))) fun _ hrest =>
    respects_suite hblock level hrest

omit hblock in
theorem clauseAhead_like (level : Nat) (opener : String) (h : Tokens.Like L ts ts') :
    Option.Rel (Tokens.Like L) (clauseAhead level opener ts) (clauseAhead level opener ts') := by
  cases h.ahead with
  | lineBreak hrest =>
    simp only [clauseAhead]
    rw [hrest.atWord]
    split
    · exact .some hrest
    · exact .none
  | other hts hts' =>
    simp only [clauseAhead]
    exact .none

theorem respects_wordClause (level : Nat) (opener : String) :
    Respects L (List.Forall₂ (Stmts.Like L)) (wordClause block level opener) := by
  intro ts ts' h
  unfold wordClause
  have hahead := clauseAhead_like level opener h
  generalize clauseAhead level opener ts = o, clauseAhead level opener ts' = o' at hahead ⊢
  cases hahead with
  | none => exact .ok .nil h
  | some hstart =>
    exact .bind (respects_colonSuite hblock level _ _ (hstart.drop 1)) fun hbody hrest =>
      .ok (.cons hbody .nil) hrest

theorem respects_conditionClause (level : Nat) :
    Respects L (Stmts.Like L) (conditionClause block level) := by
  intro ts ts' h
  refine .bind (located_agree ts ts' (respects_expression (.head level) (h.drop 1))) fun _ hrest => ?_
  exact respects_colonSuite hblock level ts ts' hrest

omit hblock in
theorem respects_repeated {clause : Tokens → Except Nat (List Stmt × Tokens)}
    (hclause : Respects L (Stmts.Like L) clause) (level : Nat) (opener : String) (fuel : Nat) :
    Respects L (List.Forall₂ (Stmts.Like L)) (repeated clause level opener fuel) := by
  induction fuel with
  | zero => exact fun _ _ h => .ok .nil h
  | succ fuel ih =>
    intro ts ts' h
    unfold repeated
    have hahead := clauseAhead_like level opener h
    generalize clauseAhead level opener ts = o, clauseAhead level opener ts' = o' at hahead ⊢
    cases hahead with
    | none => exact .ok .nil h
    | some hstart =>
      refine .bind (hclause hstart) fun hbody hrest => ?_
      exact .bind (ih hrest) fun hbodies hrest => .ok (.cons hbody hbodies) hrest

/-! ## Compound statements -/

theorem respects_ifStatement (level : Nat) : Respects L (Stmt.Like L) (ifStatement block level) := by
  intro ts ts' h
  refine .bind (respects_conditionClause hblock level h) fun hbody hrest => ?_
  dsimp only
  rw [hrest.length_eq]
  refine .bind (respects_repeated (respects_conditionClause hblock level) level "elif" _ hrest)
    fun hothers hrest => ?_
  exact .bind (respects_wordClause hblock level "else" hrest) fun hlast hrest =>
    .ok (.compound (List.rel_append (.cons hbody hothers) hlast)) hrest

theorem respects_whileStatement (level : Nat) :
    Respects L (Stmt.Like L) (whileStatement block level) := by
  intro ts ts' h
  refine .bind (respects_conditionClause hblock level h) fun hbody hrest => ?_
  exact .bind (respects_wordClause hblock level "else" hrest) fun hlast hrest =>
    .ok (.compound (.cons hbody hlast)) hrest

omit hblock in
theorem respects_forHead (level : Nat) : Respects L (fun _ _ => True) (forHead level) := by
  intro ts ts' h
  refine .bind (respects_word "for" h) fun _ hrest => ?_
  dsimp only
  rw [hrest.length_eq]
  refine .bind (respects_commaList (respects_target _) (fun h => ?_) (·.next _) _ (hrest.start _))
    fun _ hrest => ?_
  · exact (h.start _).atWord "in"
  · exact .bind (respects_word "in" (hrest.start _)) fun _ hrest => respects_dropped _ hrest

theorem respects_forStatement (level : Nat) (start start' : Tokens) (h : Tokens.Like L ts ts') :
    Agree L (Stmt.Like L) (forStatement block level start ts) (forStatement block level start' ts') := by
  refine .bind (located_agree start start' (respects_forHead level h)) fun _ hrest => ?_
  refine .bind (respects_colonSuite hblock level start start' hrest) fun hbody hrest => ?_
  exact .bind (respects_wordClause hblock level "else" hrest) fun hlast hrest =>
    .ok (.compound (.cons hbody hlast)) hrest

theorem respects_withStatement (level : Nat) (start start' : Tokens) (h : Tokens.Like L ts ts') :
    Agree L (Stmt.Like L) (withStatement block level start ts)
      (withStatement block level start' ts') := by
  refine .bind (located_agree start start' (respects_dropped (.head level) (h.drop 1))) fun _ hrest => ?_
  exact .bind (respects_colonSuite hblock level start start' hrest) fun hbody hrest =>
    .ok (.compound (.cons hbody .nil)) hrest

omit hblock in
theorem respects_handlerHead (level : Nat) : Respects L (fun _ _ => True) (handlerHead level) := by
  intro ts ts' h
  replace h := h.start (.head level)
  refine .ite (h.atSymbol ":") (.ok trivial h) ?_
  refine .bind (respects_expression (.head level) ((h.drop 1).ite h (h.atSymbol "*"))) fun _ hrest => ?_
  refine .ite ((hrest.next _).atSymbol ",") ?_ (.ok trivial hrest)
  exact .bind (respects_expression (.head level) ((hrest.next _).drop 1)) fun _ hrest => .ok trivial hrest

theorem respects_handler (level : Nat) : Respects L (Stmts.Like L) (handler block level) := by
  intro ts ts' h
  refine .bind (located_agree ts ts' (respects_handlerHead level (h.drop 1))) fun _ hrest => ?_
  exact respects_colonSuite hblock level ts ts' hrest

omit hblock in
theorem isEmpty_like {xs xs' : List (List Stmt)} (h : List.Forall₂ (Stmts.Like L) xs xs') :
    xs.isEmpty = xs'.isEmpty := by
  cases h <;> rfl

/-- The last block of a statement with handlers, one of which has to be there. -/
theorem lastBlock_agree (level : Nat) {origin origin' : Tokens} {body body' : List Stmt}
    (hbody : Stmts.Like L body body') {handlers handlers' others others' : List (List Stmt)}
    (hhandlers : List.Forall₂ (Stmts.Like L) handlers handlers')
    (hothers : List.Forall₂ (Stmts.Like L) others others') (hrest : Tokens.Like L rest rest') :
    Agree (ε := Nat) L (Stmt.Like L)
      (do let (last, rest) ← wordClause block level "finally" rest
          if handlers.isEmpty && last.isEmpty then .error (faultLine origin rest)
          else .ok (.compound (body :: handlers ++ others ++ last), rest))
      (do let (last, rest') ← wordClause block level "finally" rest'
          if handlers'.isEmpty && last.isEmpty then .error (faultLine origin' rest')
          else .ok (.compound (body' :: handlers' ++ others' ++ last), rest')) := by
  refine .bind (respects_wordClause hblock level "finally" hrest) fun hlast hrest => ?_
  refine .ite (by rw [isEmpty_like hhandlers, isEmpty_like hlast]) .error ?_
  exact .ok (.compound (List.rel_append (List.rel_append (.cons hbody hhandlers) hothers) hlast)) hrest

theorem respects_tryStatement (level : Nat) : Respects L (Stmt.Like L) (tryStatement block level) := by
  intro ts ts' h
  refine .bind (respects_colonSuite hblock level ts ts' (h.drop 1)) fun {body body' _ _} hbody hrest => ?_
  dsimp only
  rw [hrest.length_eq]
  refine .bind (respects_repeated (respects_handler hblock level) level "except" _ hrest)
    fun {handlers handlers' rest rest'} hhandlers hrest => ?_
  refine .ite (isEmpty_like hhandlers) (lastBlock_agree hblock level hbody hhandlers .nil hrest) ?_
  exact .bind (respects_wordClause hblock level "else" hrest) (lastBlock_agree hblock level hbody hhandlers)

/-! ## Matching -/

omit hblock in
theorem respects_caseHead (level : Nat) : Respects L (fun _ _ => True) (caseHead level) := by
  intro ts ts' h
  unfold caseHead
  dsimp only
  rw [h.length_eq]
  refine .bind (respects_commaList (steady_pattern (.head level)) (fun h => ?_) (·.next _) _ (h.start _))
    fun _ hrest => ?_
  · rw [h.atSymbol, h.atWord]
  · refine .ite ((hrest.next _).atWord "if") ?_ (.ok trivial hrest)
    exact .bind (respects_expression (.head level) ((hrest.next _).drop 1)) fun _ hrest => .ok trivial hrest

theorem respects_caseClause (level : Nat) : Respects L (Stmt.Like L) (caseClause block level) := by
  intro ts ts' h
  refine .bind (located_agree ts ts' (respects_word "case" h)) fun _ hrest => ?_
  refine .bind (located_agree ts ts' (respects_caseHead level hrest)) fun _ hrest => ?_
  exact .bind (respects_colonSuite hblock level ts ts' hrest) fun hbody hrest =>
    .ok (.compound (.cons hbody .nil)) hrest

theorem respects_cases (level fuel : Nat) : Respects L (Stmts.Like L) (cases block level fuel) := by
  induction fuel with
  | zero => exact fun _ _ _ => .error
  | succ fuel ih =>
    intro ts ts' h
    refine .bind (respects_caseClause hblock level h) fun hfirst hrest => ?_
    cases hrest.ahead with
    | lineBreak hfollowing =>
      dsimp only
      refine .ite ?_ ?_ (.ok (.cons hfirst .nil) hrest)
      · rw [hfollowing.atFinish]
      · exact .bind (ih hfollowing) fun hothers hrest => .ok (.cons hfirst hothers) hrest
    | other hts hts' =>
      simp only
      exact .ok (.cons hfirst .nil) hrest

omit hblock in
theorem matchSubject_agree (level : Nat) (h : Tokens.Like L ts ts') : Agree (ε := Tokens) L (fun _ _ => True)
    (do let ((), rest) ← dropped (.head level) (ts.drop 1)
        symbol ":" ((Place.head level).next rest))
    (do let ((), rest) ← dropped (.head level) (ts'.drop 1)
        symbol ":" ((Place.head level).next rest)) :=
  .bind (respects_dropped (.head level) (h.drop 1)) fun _ hrest => respects_symbol ":" (hrest.next _)

omit hblock in
/-- What is behind the colon has to stand on the next line. -/
theorem headEnd_like (r r' : Except Tokens (Unit × Tokens)) : Agree L (fun _ _ => True) r r' →
    Option.Rel (Tokens.Like L)
      (match r with
        | .ok ((), rest) => if atStatementEnd rest && !atSymbol ";" rest then some rest else none
        | .error _ => none)
      (match r' with
        | .ok ((), rest) => if atStatementEnd rest && !atSymbol ";" rest then some rest else none
        | .error _ => none) := by
  intro h
  cases h with
  | error => exact .none
  | ok _ hrest =>
    dsimp only
    rw [hrest.atStatementEnd, hrest.atSymbol]
    split
    · exact .some hrest
    · exact .none

omit hblock in
theorem matchHead?_like (level : Nat) (h : Tokens.Like L ts ts') :
    Option.Rel (Tokens.Like L) (matchHead? level ts) (matchHead? level ts') :=
  headEnd_like _ _ (matchSubject_agree level h)

theorem respects_matchBody (level : Nat) : Respects L (Stmt.Like L) (matchBody block level) := by
  intro ts ts' h
  cases h.ahead with
  | lineBreak hrest =>
    simp only [matchBody]
    rw [hrest.length_eq]
    split
    · exact .bind (respects_cases hblock _ _ hrest) fun hclauses hrest =>
        .ok (.compound (.cons hclauses .nil)) hrest
    · exact .ok (.compound .nil) h
  | other hts hts' =>
    simp only [matchBody]
    exact .ok (.compound .nil) h

end Block

/-! ## Definitions -/

/-- One parameter of a type. -/
theorem respects_typeParam (p : Place) : Respects (ε := Tokens) L (fun _ _ => True) (fun ts => do
    let (_, rest) ← typeText p.inside ts
    if atSymbol ":" rest then
      let (_, rest) ← typeText p.inside (rest.drop 1)
      .ok ((), rest)
    else .ok ((), rest)) := by
  intro ts ts' h
  refine .bind (respects_typeText p.inside h) fun _ hrest => ?_
  refine .ite (hrest.atSymbol ":") ?_ (.ok trivial hrest)
  exact .bind (respects_typeText p.inside (hrest.drop 1)) fun _ hrest => .ok trivial hrest

theorem respects_typeParams (p : Place) : Respects L (fun _ _ => True) (typeParams p) := by
  intro ts ts' h
  have hrest := (h.start p).drop 1
  unfold typeParams
  dsimp only
  rw [hrest.length_eq]
  refine .ite ((h.start p).atSymbol "[") ?_ (.ok trivial h)
  refine .bind (respects_commaList (respects_typeParam p) (·.atSymbol "]") (fun h => h) _ hrest) fun _ hrest => ?_
  exact respects_symbol "]" hrest

theorem respects_typeHint? (p : Place) : Respects L (Option.Rel L.Text) (typeHint? p) := by
  intro ts ts' h
  refine .ite (h.atSymbol ":") ?_ (.ok .none h)
  exact .bind (respects_typeText p (h.drop 1)) fun htext hrest => .ok (.some htext) hrest

theorem respects_default? (p : Place) : Respects L (Option.Rel (Expr.Like L)) (default? p) := by
  intro ts ts' h
  refine .ite (h.atSymbol "=") ?_ (.ok .none h)
  exact .bind (respects_expression p (h.drop 1)) fun hx hrest => .ok (.some hx) hrest

theorem respects_starred (p : Place) : Respects L (Option.Rel L.SameWord) (starred p) := by
  intro ts ts' h
  unfold starred readersFor
  rw [h.length_eq]
  refine .bind ((uniform_readers L _).postfixed p h) fun hx hrest => ?_
  cases hx with
  | name hword => exact .ok (.some ⟨rfl, hword⟩) hrest
  | attr | subscript => exact .ok .none hrest
  | _ => exact .error

/-- What starts with a round bracket is spelled so. -/
theorem spelled_round (h : lexeme? ts = .symbol "(") (hrest : rest.length < ts.length) :
    IsRound (Token.spelled ts rest) := by
  cases ts with
  | nil => cases h
  | cons t ts =>
    obtain ⟨n, hn⟩ : ∃ n, (t :: ts).length - rest.length = n + 1 := Nat.exists_eq_succ_of_ne_zero (by omega)
    have ht : t.lexeme = .symbol "(" := h
    unfold Token.spelled Token.consumed
    rw [hn, List.take_succ_cons]
    exact ⟨Token.writtenAll (ts.take n), by rw [Token.spelling, ht]; rfl⟩

/-- A tuple, named by its text if it has a default. -/
theorem tuple_agree (p : Place) (h : Tokens.Like L ts ts') (hts : lexeme? ts = .symbol "(")
    (hts' : lexeme? ts' = .symbol "(") :
    Agree L (Param.Like L)
      (do let (x, rest) ← (readersFor ts).round p ts
          if !x.isTarget then .error ts
          else
            let (default, after) ← default? p rest
            .ok (if default.isSome then .plain (Token.spelled ts rest) none default else .tuple, after))
      (do let (x, rest) ← (readersFor ts').round p ts'
          if !x.isTarget then .error ts'
          else
            let (default, after) ← default? p rest
            .ok (if default.isSome then .plain (Token.spelled ts' rest) none default else .tuple,
              after)) := by
  have hround := (uniform_readers L (ts'.length + 1)).round p h
  unfold readersFor
  rw [h.length_eq]
  refine hround.bind_of_eq fun {x x' rest rest'} heq hx hrest => ?_
  refine .ite (by rw [hx.isTarget]) .error ?_
  refine .bind (respects_default? p hrest) fun hdefault hafter => .ok ?_ hafter
  cases hdefault with
  | none => exact .tuple
  | some hy =>
    have hlt := length_lt_of_round heq
    have hlt' : rest'.length < ts'.length := by rwa [← hrest.length_eq, ← h.length_eq]
    exact .tupled (spelled_round hts hlt) (spelled_round hts' hlt') (spelled_like h hrest) hy

theorem respects_param (p : Place) : Respects L (Param.Like L) (param p) := by
  intro ts ts' h
  have htuple := tuple_agree p h
  unfold param
  have hl := h.lexeme?
  generalize lexeme? ts = l, lexeme? ts' = l' at hl htuple ⊢
  cases hl with
  | same l hs =>
    split
    · exact .ok .slash (h.drop 1)
    · refine .ite (by rw [(h.drop 1).atSymbol, (h.drop 1).atSymbol]) (.ok .bareStar (h.drop 1)) ?_
      refine .bind (respects_starred p (h.drop 1)) fun hname hrest => ?_
      exact .bind (respects_typeHint? p hrest) fun htext hrest => .ok (.star hname htext) hrest
    · refine .bind (respects_starred p (h.drop 1)) fun hname hrest => ?_
      exact .bind (respects_typeHint? p hrest) fun htext hrest => .ok (.doubleStar hname htext) hrest
    · exact htuple rfl rfl
    · refine .bind (respects_typeHint? p (h.drop 1)) fun htext hrest => ?_
      exact .bind (respects_default? p hrest) fun hdefault hrest => .ok (.named hs htext hdefault) hrest
    · exact .error
  | _ => exact .error

theorem respects_params (p : Place) : Respects L (List.Forall₂ (Param.Like L)) (params p) := by
  intro ts ts' h
  refine .bind (respects_symbol "(" h) fun _ hrest => ?_
  refine .ite (hrest.atSymbol ")") (.ok .nil (hrest.drop 1)) ?_
  dsimp only
  rw [hrest.length_eq]
  refine .bind (respects_commaList (respects_param p.inside) (·.atSymbol ")") (fun h => h) _ hrest)
    fun hxs hrest => ?_
  exact .bind (respects_symbol ")" hrest) fun _ hrest => .ok hxs hrest

/-- Alike heads of functions: name, parameters and what is returned. -/
def Head.Like (L : Likeness) (a b : String × List Param × Option String) : Prop :=
  L.SameWord a.1 b.1 ∧ List.Forall₂ (Param.Like L) a.2.1 b.2.1 ∧ Option.Rel L.Text a.2.2 b.2.2

theorem respects_functionHead (p : Place) : Respects L (Head.Like L) (functionHead p) := by
  intro ts ts' h
  refine .bind (respects_identifier (h.start p)) fun hname hrest => ?_
  refine .bind (respects_typeParams p hrest) fun _ hrest => ?_
  refine .bind (respects_params p (hrest.start p)) fun hxs hrest => ?_
  refine .ite ((hrest.next p).atSymbol "->") ?_ (.ok ⟨hname, hxs, .none⟩ hrest)
  exact .bind (respects_typeText p ((hrest.next p).drop 1)) fun htext hrest =>
    .ok ⟨hname, hxs, .some htext⟩ hrest

theorem respects_classHead (p : Place) : Respects L L.SameWord (classHead p) := by
  intro ts ts' h
  refine .bind (respects_identifier (h.start p)) fun hname hrest => ?_
  refine .bind (respects_typeParams p hrest) fun _ hrest => ?_
  refine .ite ((hrest.start p).atSymbol "(") ?_ (.ok hname hrest)
  unfold readersFor
  dsimp only
  rw [hrest.length_eq]
  refine .bind ((uniform_readers L _).arguments p .none (hrest.start p)) fun hcall hafter => ?_
  cases hcall with
  | call => exact .ok hname hafter
  | _ => exact .error

section Block

variable {block : BlockReader} (hblock : block.Uniform L)

include hblock

theorem respects_functionStatement (level : Nat) {decorators decorators' : List Expr}
    (hdecorators : List.Forall₂ (Expr.Like L) decorators decorators') {start start' : Tokens}
    (hstart : Tokens.Like L start start') (h : Tokens.Like L ts ts') :
    Agree L (Stmt.Like L) (functionStatement block level decorators start ts)
      (functionStatement block level decorators' start' ts') := by
  refine .bind (located_agree start start' (respects_functionHead (.head level) (h.drop 1)))
    fun {x y _ _} hhead hrest => ?_
  obtain ⟨name, xs, returns⟩ := x
  obtain ⟨name', xs', returns'⟩ := y
  obtain ⟨⟨hname, hword⟩, hxs, hreturns⟩ := hhead
  dsimp only at hname hword hxs hreturns
  subst hname
  refine .bind (respects_colonSuite hblock level start start' hrest) fun hbody hrest => ?_
  dsimp only
  rw [lineHere_like hstart]
  exact .ok (.functionDef hdecorators hword hxs hreturns hbody) hrest

theorem respects_classStatement (level : Nat) {decorators decorators' : List Expr}
    (hdecorators : List.Forall₂ (Expr.Like L) decorators decorators') (h : Tokens.Like L ts ts') :
    Agree L (Stmt.Like L) (classStatement block level decorators ts)
      (classStatement block level decorators' ts') := by
  refine .bind (located_agree ts ts' (respects_classHead (.head level) (h.drop 1)))
    fun ⟨hname, hword⟩ hrest => ?_
  subst hname
  refine .bind (respects_colonSuite hblock level ts ts' hrest) fun hbody hrest => ?_
  dsimp only
  rw [lineHere_like h]
  exact .ok (.classDef hdecorators hword hbody) hrest

omit hblock in
theorem respects_decorator (level : Nat) : Respects L (Expr.Like L) (decorator level) := by
  intro ts ts' h
  refine .bind (respects_symbol "@" h) fun _ hrest => ?_
  refine .bind (respects_expression (.statement level) hrest) fun hx hafter => ?_
  cases hafter.ahead with
  | lineBreak _ => exact .ok (firstJoin_like hrest hx) (hafter.skipBreak level)
  | other hts hts' =>
    simp only
    exact .error

omit hblock in
theorem respects_decorators (level fuel : Nat) :
    Respects L (List.Forall₂ (Expr.Like L)) (decorators level fuel) := by
  induction fuel with
  | zero => exact fun _ _ _ => .error
  | succ fuel ih =>
    intro ts ts' h
    refine .ite (h.atSymbol "@") ?_ (.ok .nil h)
    refine .bind (respects_decorator level h) fun hx hrest => ?_
    exact .bind (ih hrest) fun hxs hrest => .ok (.cons hx hxs) hrest

theorem respects_decorated (level : Nat) : Respects L (Stmt.Like L) (decorated block level) := by
  intro ts ts' h
  unfold decorated
  rw [h.length_eq]
  refine .bind (located_agree ts ts' (respects_decorators level _ h)) fun hxs hrest => ?_
  refine .ite (hrest.atWord "class") (respects_classStatement hblock level hxs hrest) ?_
  refine .ite (hrest.atWord "def") (respects_functionStatement hblock level hxs hrest hrest) ?_
  refine .ite ?_ (respects_functionStatement hblock level hxs hrest (hrest.drop 1)) .error
  rw [hrest.atWord, (hrest.drop 1).atWord]

/-! ## Blocks and modules -/

omit hblock in
theorem single_agree {r r' : Except Nat (Stmt × Tokens)} (h : Agree L (Stmt.Like L) r r') :
    Agree L (Stmts.Like L) (single r) (single r') := by
  cases h with
  | ok hx hrest => exact .ok (.cons hx .nil) hrest
  | error => exact .error

theorem respects_statement (level : Nat) : Respects L (Stmts.Like L) (statement block level) := by
  intro ts ts' h
  have hsimple := respects_simpleLine level ts.length h
  unfold statement
  dsimp only
  rw [← h.length_eq]
  have hl := h.lexeme?
  generalize lexeme? ts = l, lexeme? ts' = l' at hl ⊢
  cases hl with
  | same l hs =>
    split
    · exact single_agree (respects_ifStatement hblock level h)
    · exact single_agree (respects_whileStatement hblock level h)
    · exact single_agree (respects_forStatement hblock level ts ts' h)
    · exact single_agree (respects_tryStatement hblock level h)
    · exact single_agree (respects_withStatement hblock level ts ts' h)
    · exact single_agree (respects_functionStatement hblock level .nil h h)
    · exact single_agree (respects_classStatement hblock level .nil h)
    · exact single_agree (respects_decorated hblock level h)
    · have hrest := h.drop 1
      refine .ite (hrest.atWord "def") (single_agree (respects_functionStatement hblock level .nil h hrest)) ?_
      refine .ite (hrest.atWord "for") (single_agree (respects_forStatement hblock level ts ts' hrest)) ?_
      exact .ite (hrest.atWord "with") (single_agree (respects_withStatement hblock level ts ts' hrest)) hsimple
    · have hhead := matchHead?_like level h
      generalize matchHead? level ts = o, matchHead? level ts' = o' at hhead ⊢
      cases hhead with
      | none => exact hsimple
      | some hrest => exact single_agree (respects_matchBody hblock level hrest)
    · exact hsimple
  | _ => exact hsimple

end Block

/-- A statement, and those that follow it. -/
theorem statements_agree {fuel : Nat} (ih : ∀ opening, BlockReader.Uniform L (statements fuel opening))
    (level : Nat) {front front' : List Stmt} (hfront : Stmts.Like L front front') (h : Tokens.Like L ts ts') :
    Agree (ε := Nat) L (Stmts.Like L)
      (do let (stmts, rest) ← statement (statements fuel true) level ts
          let (others, rest) ← statements fuel false level rest
          .ok (front ++ stmts ++ others, rest))
      (do let (stmts, rest) ← statement (statements fuel true) level ts'
          let (others, rest) ← statements fuel false level rest
          .ok (front' ++ stmts ++ others, rest)) := by
  refine .bind (respects_statement (ih true) level h) fun hstmts hrest => ?_
  exact .bind (ih false level hrest) fun hothers hrest =>
    .ok (List.rel_append (List.rel_append hfront hstmts) hothers) hrest

/-- Blocks of every depth respect a likeness. -/
theorem respects_statements (fuel : Nat) (opening : Bool) :
    BlockReader.Uniform L (statements fuel opening) := by
  induction fuel generalizing opening with
  | zero => exact fun _ _ _ _ => .error
  | succ fuel ih =>
    intro level ts ts' h
    have hjoined : Stmts.Like L (if opening then [] else joinStmts ts)
        (if opening then [] else joinStmts ts') := by
      cases opening
      · exact joinStmts_like h
      · exact .nil
    have hstep := statements_agree ih level hjoined h
    cases h.ahead with
    | lineBreak hrest =>
      simp only [statements]
      split
      · exact ih opening level hrest
      · exact .ok .nil h
    | other hts hts' =>
      cases h.pairs with
      | nil => exact .ok hjoined h
      | @cons t t' _ _ ht _ =>
        obtain ⟨l, gap, joins, line⟩ := t
        obtain ⟨l', gap', joins', line'⟩ := t'
        cases ht.lexeme with
        | same l hs =>
          cases l with
          | finish => exact .ok hjoined h
          | lineBreak indent => exact absurd rfl (hts indent gap joins line _)
          | _ => exact hstep
        | _ => exact hstep

/-- **Sources with alike tokens have alike modules.** -/
theorem readModule_like {source source' : String}
    (h : Tokens.Like L (Lexer.tokens source) (Lexer.tokens source')) :
    (∃ e e', readModule source = .error e ∧ readModule source' = .error e') ∨
      ∃ stmts stmts', readModule source = .ok stmts ∧ readModule source' = .ok stmts'
        ∧ Stmts.Like L stmts stmts' := by
  have hread := respects_statements ((Lexer.tokens source').length + 1) false 0 h
  unfold readModule
  dsimp only
  rw [h.length_eq]
  generalize statements _ false 0 (Lexer.tokens source) = r,
    statements _ false 0 (Lexer.tokens source') = r' at hread ⊢
  cases hread with
  | error => exact Or.inl ⟨_, _, rfl, rfl⟩
  | ok hstmts _ => exact Or.inr ⟨_, _, rfl, rfl, hstmts⟩

end ClassCli.Source
