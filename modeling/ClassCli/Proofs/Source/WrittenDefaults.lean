import ClassCli.Proofs.Source.WrittenExpressions
import ClassCli.Source.StmtReading

/-!
# Defaults of written functions

A written expression is the default of a parameter if it stands behind the equals sign of one. The function around
it is as plain as can be: it has one parameter, and its body does nothing.

* **`defaultSource`** — a function with a text as its default.
* **`goes_default`** — its lexemes.
* **`param_written`**, **`functionStatement_written`** — what is read of it.
* **`readModule_defaultSource`** — the default is read as the expression that the text stands for.
-/

namespace ClassCli.Source

variable {ls : List Lexeme} {t : Token} {ts rest : Tokens} {P : Expr → Prop} {s : List Char} {p : Place} {d : ℕ}

/-- A function whose only parameter has a text as its default. -/
def defaultSource (text : String) : String := "def f(p=" ++ text ++ "): pass\n"

/-! ## Lexemes -/

/-- The lexemes of the parameters. -/
def paramLexemes (ls : List Lexeme) : List Lexeme :=
  .symbol "(" :: (.word "p" :: .symbol "=" :: ls ++ [.symbol ")"])

/-- The lexemes of the line behind its first word. -/
def headLexemes (ls : List Lexeme) : List Lexeme := .word "f" :: paramLexemes ls ++ [.symbol ":", .word "pass"]

/-- **The function is split into its lexemes** up to the end of its line. -/
theorem goes_default (hopens : Lexer.ArrowFree s) (h : Lexer.Scans s ls) :
    Lexer.Goes [] ("def f(p=".toList ++ (s ++ "): pass\n".toList)) (.word "def" :: headLexemes ls) [] ['\n'] := by
  have hnone : Lexer.IsOpen [] := List.forall_mem_nil _
  have hwords : Text.isIdentifier "def".toList = true ∧ Text.isIdentifier "f".toList = true
      ∧ Text.isIdentifier "p".toList = true ∧ Text.isIdentifier "pass".toList = true := by decide +kernel
  obtain ⟨hdef, hname, hparam, hpass⟩ := hwords
  have hfront : "def f(p=".toList = "def".toList ++ ' ' :: ("f".toList ++ '(' :: ("p".toList ++ ['='])) := by
    decide +kernel
  have hback : "): pass\n".toList = ')' :: ':' :: ' ' :: ("pass".toList ++ ['\n']) := by decide +kernel
  have htext : "def f(p=".toList ++ (s ++ "): pass\n".toList)
      = "def".toList ++ ([' '] ++ ("f".toList ++ '(' :: (Text.join [',', ' '] ["p".toList ++ '=' :: s]
        ++ ')' :: ':' :: ' ' :: ("pass".toList ++ ['\n'])))) := by
    rw [hfront, hback]
    simp [Text.join]
  have hcall := Lexer.goes_call (.cons (Lexer.scans_keyword hparam hopens h) .nil) hname hnone (Or.inr rfl)
    (':' :: ' ' :: ("pass".toList ++ ['\n']))
  have hcolon : Lexer.Goes [] ([] ++ ':' :: ' ' :: ("pass".toList ++ ['\n'])) [.symbol ":"] []
      (' ' :: ("pass".toList ++ ['\n'])) :=
    Lexer.goes_symbol ':' ":" rfl (by decide) (Or.inl rfl) hnone
    (Lexer.codeStep_symbol hnone rfl rfl rfl rfl)
  have hbody : Lexer.Goes [] ([' '] ++ ("pass".toList ++ ['\n'])) [.word "pass"] [] ['\n'] :=
    Lexer.goes_word hpass (Or.inr rfl) hnone (Lexer.stops_cons (by decide))
  rw [htext]
  exact (Lexer.goes_word hdef (Or.inl rfl) hnone (Lexer.stops_cons (by decide))).trans
    (hcall.trans (hcolon.trans hbody))

/-! ## The head of the function -/

/-- **A parameter with a written default** is read with the expression that the default stands for. -/
theorem param_written {name : String} (h : Reads ls P) (hts : Spells (.word name :: .symbol "=" :: ls) ts)
    (hrest : Behind p rest) :
    ∃ x, param p (ts ++ rest) = .ok (.plain name none (some x), rest) ∧ P x := by
  rcases hts with _ | ⟨⟨hword, -⟩, _ | ⟨⟨hequals, -⟩, hts⟩⟩
  rename_i word equals ts
  have hlength := hts.length_eq
  obtain ⟨x, hread, hx⟩ := h.expression (d := (ts ++ rest).length + 1) hts hrest (by
    rw [List.length_append]
    omega)
  refine ⟨x, ?_, hx⟩
  have hcolon : atSymbol ":" (equals :: (ts ++ rest)) = false := atSymbol_of_ne hequals (by decide) _
  have hat : atSymbol "=" (equals :: (ts ++ rest)) = true := beq_iff_eq.mpr hequals
  have hexpression : expression p (ts ++ rest) = .ok (x, rest) := hread
  rw [List.cons_append, List.cons_append, param, lexeme?, hword]
  simp only [List.drop_one, List.tail_cons, typeHint?, hcolon, Bool.false_eq_true, if_false, default?, hat, if_true,
    hexpression, bind, Except.bind]

/-- The parameters of the function. -/
theorem params_written (h : Reads ls P) (hts : Spells (paramLexemes ls) ts) (rest : Tokens) :
    ∃ x, params p (ts ++ rest) = .ok ([.plain "p" none (some x)], rest) ∧ P x := by
  rcases hts with _ | ⟨⟨hopen, -⟩, hts⟩
  rename_i opening ts
  have hparts : Spells ((.word "p" :: .symbol "=" :: ls) ++ [.symbol ")"]) ts := hts
  obtain ⟨inside, closing, rfl, hinside, hclosing⟩ := hparts.split
  rcases hclosing with _ | ⟨⟨hclose, -⟩, _ | _⟩
  rename_i close
  have hbehind : Behind p.inside (close :: rest) := behind_symbol hclose (by decide) _ _
  obtain ⟨x, hread, hx⟩ := param_written h hinside hbehind
  refine ⟨x, ?_, hx⟩
  have hfirst : atSymbol ")" (inside ++ close :: rest) = false := by
    rcases hinside with _ | ⟨⟨hword, -⟩, -⟩
    simp [atSymbol, lexeme?, hword]
  have hcomma : atSymbol "," (close :: rest) = false := atSymbol_of_ne hclose (by decide) rest
  have hlist (fuel : ℕ) : commaList (param p.inside) (atSymbol ")") id (fuel + 1) (inside ++ close :: rest)
      = .ok ([.plain "p" none (some x)], close :: rest) := by
    simp only [commaList, hread, id, hcomma, Bool.false_eq_true, if_false, bind, Except.bind]
  obtain ⟨fuel, hfuel⟩ : ∃ n, (inside ++ close :: rest).length = n + 1 :=
    ⟨inside.length + rest.length, by rw [List.length_append, List.length_cons]; omega⟩
  rw [List.cons_append, List.append_assoc, List.singleton_append, params, symbol_of_lexeme hopen]
  simp only [bind, Except.bind, hfirst, Bool.false_eq_true, if_false, hfuel, hlist, symbol_of_lexeme hclose]

/-- The head of the function, up to its colon. -/
theorem functionHead_written (h : Reads ls P) (hts : Spells (.word "f" :: paramLexemes ls) ts)
    (ht : t.lexeme = .symbol ":") (rest : Tokens) :
    ∃ x, functionHead (.head 0) (ts ++ t :: rest) = .ok (("f", [.plain "p" none (some x)], none), t :: rest) ∧ P x := by
  rcases hts with _ | ⟨⟨hname, -⟩, hts⟩
  rename_i name ts
  obtain ⟨x, hread, hx⟩ := params_written (p := Place.head 0) h hts (t :: rest)
  refine ⟨x, ?_, hx⟩
  have hopen : lexeme? (ts ++ t :: rest) = .symbol "(" := by
    rcases hts with _ | ⟨⟨hopen, -⟩, -⟩
    exact hopen
  have hstart : (Place.head 0).start (ts ++ t :: rest) = ts ++ t :: rest :=
    skipBreak_of_ne 0 (by simp [hopen])
  have hfirst : (Place.head 0).start (name :: (ts ++ t :: rest)) = name :: (ts ++ t :: rest) :=
    skipBreak_cons (by simp [hname]) 0 _
  have hidentifier : identifier (name :: (ts ++ t :: rest)) = .ok ("f", ts ++ t :: rest) := by
    obtain ⟨lexeme, gap, joins, line⟩ := name
    subst hname
    rfl
  have hsquare : atSymbol "[" (ts ++ t :: rest) = false := by simp [atSymbol, hopen]
  have harrow : atSymbol "->" (t :: rest) = false := atSymbol_of_ne ht (by decide) rest
  rw [List.cons_append, functionHead]
  simp only [hfirst, hidentifier, typeParams, hstart, hsquare, Bool.false_eq_true, if_false, hread,
    next_of_symbol ht, harrow, bind, Except.bind]

/-! ## The whole function -/

/-- The body of the function, up to the end of its line. -/
theorem suite_pass (block : BlockReader) (ht : t.lexeme = .word "pass") (hrest : atStatementEnd rest = true)
    (hsemicolon : atSymbol ";" rest = false) : suite block 0 (t :: rest) = .ok ([.other], rest) := by
  obtain ⟨lexeme, gap, joins, line⟩ := t
  subst ht
  have hstatement : simpleStatement (.statement 0) (⟨.word "pass", gap, joins, line⟩ :: rest) = .ok (.other, rest) :=
    rfl
  simp only [suite, List.length_cons, simpleLine, hstatement, located, Except.mapError, hsemicolon, hrest,
    Bool.false_eq_true, if_false, if_true, bind, Except.bind]

/-- **The function is read** up to the end of its line. -/
theorem functionStatement_written (block : BlockReader) (h : Reads ls P) (hts : Spells (headLexemes ls) ts)
    (hrest : atStatementEnd rest = true) (hsemicolon : atSymbol ";" rest = false) :
    ∃ x, functionStatement block 0 [] (t :: (ts ++ rest)) (t :: (ts ++ rest))
      = .ok (.functionDef [] "f" [.plain "p" none (some x)] none [.other] t.line, rest) ∧ P x := by
  obtain ⟨head, behind, rfl, hhead, hbehind⟩ := hts.split
  rcases hbehind with _ | ⟨⟨hcolon, -⟩, _ | ⟨⟨hpass, -⟩, _ | _⟩⟩
  rename_i colon pass
  obtain ⟨x, hread, hx⟩ := functionHead_written h hhead hcolon (pass :: rest)
  refine ⟨x, ?_, hx⟩
  have hskip : skipBreak 0 (colon :: pass :: rest) = colon :: pass :: rest := skipBreak_cons (by simp [hcolon]) 0 _
  have hbody := suite_pass block hpass hrest hsemicolon
  rw [List.append_assoc, List.cons_append, List.singleton_append, functionStatement]
  simp only [List.drop_one, List.tail_cons, hread, located, Except.mapError, colonSuite, hskip,
    symbol_of_lexeme hcolon, hbody, lineHere, bind, Except.bind]

/-- A function is a statement of the block in which it stands. -/
theorem statements_function {fuel : ℕ} {stmt : Stmt} {others : List Stmt} {behind : Tokens}
    (ht : t.lexeme = .word "def") (hjoins : t.joins = [])
    (hread : functionStatement (statements fuel true) 0 [] (t :: ts) (t :: ts) = .ok (stmt, rest))
    (hrest : statements fuel false 0 rest = .ok (others, behind)) :
    statements (fuel + 1) false 0 (t :: ts) = .ok (stmt :: others, behind) := by
  obtain ⟨lexeme, gap, joins, line⟩ := t
  subst ht hjoins
  have hstatement : statement (statements fuel true) 0 (⟨.word "def", gap, [], line⟩ :: ts) = .ok ([stmt], rest) := by
    simp only [statement, lexeme?, hread, single, Except.map]
  simp only [statements, hstatement, hrest, joinStmts, joinsAhead, List.map_nil, bind, Except.bind]
  rfl

/-- The tokens at the end of a text with a line end. -/
def endTokens : Tokens := [⟨.lineBreak 0, "", [], 1⟩, ⟨.finish, "\n", [], 2⟩]

/-- **A written expression is read as the default** behind whose equals sign it stands. -/
theorem readModule_defaultSource {text : String} (h : Written text.toList P) :
    ∃ x line, readModule (defaultSource text) = .ok [.functionDef [] "f" [.plain "p" none (some x)] none [.other] line]
      ∧ P x := by
  obtain ⟨ls, hscans, hreads⟩ := h.reads
  have hchars : (defaultSource text).toList = "def f(p=".toList ++ (text.toList ++ "): pass\n".toList) := by
    rw [defaultSource, String.toList_append, String.toList_append, List.append_assoc]
  obtain ⟨ts, fuel, hts, hfuel, htokens⟩ :=
    goes_default h.opens hscans 1 ((defaultSource text).toList.length + 1) (by rw [hchars]; exact Nat.lt_succ_self _)
  obtain ⟨fuel, rfl⟩ : ∃ n, fuel = n + 1 := ⟨fuel - 1, by simp at hfuel; omega⟩
  have hend : Lexer.tokensFrom (fuel + 1) [] 1 ['\n'] = endTokens := rfl
  rw [← hchars, hend] at htokens
  rcases hts with _ | ⟨⟨hdef, hjoins⟩, hts⟩
  rename_i first ts
  have hlength : (Lexer.tokens (defaultSource text)).length = ts.length + 1 + 2 := by
    rw [Lexer.tokens, htokens, List.length_append]
    rfl
  have hnothing : statements (ts.length + 1 + 2) false 0 endTokens = .ok ([], endTokens.drop 1) := rfl
  have hends : atStatementEnd endTokens = true ∧ atSymbol ";" endTokens = false := ⟨rfl, rfl⟩
  obtain ⟨x, hread, hx⟩ :=
    functionStatement_written (statements (ts.length + 1 + 2) true) hreads hts hends.1 hends.2
  refine ⟨x, first.line, ?_, hx⟩
  have hall := statements_function hdef hjoins hread hnothing
  rw [readModule, hlength, Lexer.tokens, htokens]
  exact congrArg (Except.map Prod.fst) hall

end ClassCli.Source
