import ClassCli.Proofs.Attempt
import ClassCli.Proofs.Source.LikeModules

/-!
# Blocks, suites and clauses as they are written

A block is a sequence of constructs: statements without suites, definitions, and compound statements, which are
clauses one after the other, each a head, a colon and a suite. The layout of blocks is given here by rules that have
neither fuel nor faults. They say what stands where; which clause may follow which one is a table of words. What is
read of a module is what is written in it by these rules.

* **`Construct`** — what is written in a block, with the suites as they are nested.
* **`followers`**, **`opened?`** — the words that open clauses, and those that open statements.
* **`Grammar.Block`** — the constructs of a block, and the tokens behind it.
* **`statements_sound`** — what is read of a block is written there.
* **`readModule_sound`** — the same for a module, of which nothing is left over.
-/

namespace ClassCli.Source

/-! ## Constructs -/

/-- Whether a statement has no suites. -/
def Stmt.isSimple : Stmt → Bool
  | .classDef .. | .functionDef .. | .compound _ => false
  | _ => true

/-- What is written in a block. The suite of a matching statement holds its cases, each of them compound and with a
suite of its own. -/
inductive Construct where
  /-- A statement without suites. -/
  | simple (stmt : Stmt) (isSimple : stmt.isSimple = true)
  /-- A joined line end between statements. -/
  | joined
  | classDef (decorators : List Expr) (name : String) (body : List Construct) (line : Nat)
  | functionDef (decorators : List Expr) (name : String) (params : List Param) (returns : Option String)
      (body : List Construct) (line : Nat)
  /-- A compound statement, given by its suites. -/
  | compound (suites : List (List Construct))

namespace Construct

mutual

/-- What is read of a construct. -/
def stmt : Construct → Stmt
  | simple s _ => s
  | joined => .other
  | classDef decorators name body line => .classDef decorators name (stmts body) line
  | functionDef decorators name params returns body line =>
    .functionDef decorators name params returns (stmts body) line
  | compound suites => .compound (suiteStmts suites)

/-- What is read of the constructs of a block. -/
def stmts : List Construct → List Stmt
  | [] => []
  | c :: cs => stmt c :: stmts cs

/-- What is read of suites. -/
def suiteStmts : List (List Construct) → List (List Stmt)
  | [] => []
  | suite :: suites => stmts suite :: suiteStmts suites

end

@[simp] theorem stmts_cons (c : Construct) (cs : List Construct) : stmts (c :: cs) = c.stmt :: stmts cs := rfl

@[simp] theorem stmts_append (cs others : List Construct) : stmts (cs ++ others) = stmts cs ++ stmts others := by
  induction cs with
  | nil => rfl
  | cons c cs ih => rw [List.cons_append, stmts_cons, stmts_cons, ih, List.cons_append]

@[simp] theorem suiteStmts_cons (suite : List Construct) (suites : List (List Construct)) :
    suiteStmts (suite :: suites) = stmts suite :: suiteStmts suites := rfl

@[simp] theorem suiteStmts_append (suites others : List (List Construct)) :
    suiteStmts (suites ++ others) = suiteStmts suites ++ suiteStmts others := by
  induction suites with
  | nil => rfl
  | cons suite suites ih =>
    rw [List.cons_append, suiteStmts_cons, suiteStmts_cons, ih, List.cons_append]

end Construct

open Construct (stmts suiteStmts)

/-- The joined line ends before the next token. -/
def joinedAt (ts : Tokens) : List Construct := (joinsAhead ts).map fun _ => .joined

@[simp] theorem stmts_joinedAt (ts : Tokens) : stmts (joinedAt ts) = joinStmts ts := by
  unfold joinedAt joinStmts
  induction joinsAhead ts with
  | nil => rfl
  | cons _ _ ih => exact congrArg (Stmt.other :: ·) ih

/-- The joined line ends that belong to a block: those in front of its first statement do not. -/
def joinedBefore (opening : Bool) (ts : Tokens) : List Construct := if opening then [] else joinedAt ts

/-! ## Words that open clauses and statements -/

/-- The words that may open the next clause of a statement, from the word that opens the statement and the one that
opens its last clause so far. -/
def followers (opener last : String) : List String :=
  match last with
  | "if" | "elif" => ["elif", "else"]
  | "while" | "for" => ["else"]
  | "try" => ["except", "finally"]
  | "except" => ["except", "else", "finally"]
  | "else" => if opener = "try" then ["finally"] else []
  | _ => []

/-- The words that open compound statements. -/
def compoundWords : List String := ["if", "while", "for", "try", "with"]

/-- The word that opens a compound statement or a definition, and the tokens from this word on. -/
def opened? (ts : Tokens) : Option (String × Tokens) :=
  match lexeme? ts with
  | .word "async" =>
    match lexeme? (ts.drop 1) with
    | .word text => if text ∈ ["def", "for", "with"] then some (text, ts.drop 1) else none
    | _ => none
  | .word text => if text ∈ "def" :: "class" :: compoundWords then some (text, ts) else none
  | _ => none

/-- Whether neither a definition nor a statement with suites comes next. -/
def opensNothing (level : Nat) (ts : Tokens) : Prop :=
  opened? ts = none ∧ atSymbol "@" ts = false ∧ (atWord "match" ts = true → matchHead? level ts = none)

/-- The tokens behind the head of a clause, in front of its colon. -/
def clauseHead (level : Nat) (opener : String) (ts : Tokens) : Except Tokens (Unit × Tokens) :=
  match opener with
  | "if" | "elif" | "while" => do
    let (_, rest) ← expression (.head level) (ts.drop 1)
    .ok ((), rest)
  | "for" => forHead level ts
  | "with" => dropped (.head level) (ts.drop 1)
  | "except" => handlerHead level (ts.drop 1)
  | "case" => do
    let ((), rest) ← word "case" ts
    caseHead level rest
  | _ => .ok ((), ts.drop 1)

/-- Whether a line of statements ends here. -/
def atLineEnd (ts : Tokens) : Bool := atStatementEnd ts && !atSymbol ";" ts

/-! ## Rules -/

namespace Grammar

/-- A line of simple statements, up to its end. -/
inductive SimpleLine (level : Nat) : Tokens → List Construct → Tokens → Prop
  | last {ts rest : Tokens} {stmt : Stmt} (isSimple : stmt.isSimple = true)
      (hstmt : simpleStatement (.statement level) ts = .ok (stmt, rest)) (hend : atLineEnd rest = true) :
      SimpleLine level ts [.simple stmt isSimple] rest
  /-- A semicolon may close the line. -/
  | closed {ts mid : Tokens} {stmt : Stmt} (isSimple : stmt.isSimple = true)
      (hstmt : simpleStatement (.statement level) ts = .ok (stmt, mid)) (hmark : atSymbol ";" mid = true)
      (hend : atLineEnd (mid.drop 1) = true) :
      SimpleLine level ts (.simple stmt isSimple :: joinedAt mid) (mid.drop 1)
  | more {ts mid rest : Tokens} {stmt : Stmt} {cs : List Construct} (isSimple : stmt.isSimple = true)
      (hstmt : simpleStatement (.statement level) ts = .ok (stmt, mid)) (hmark : atSymbol ";" mid = true)
      (hmore : atLineEnd (mid.drop 1) = false) (hcs : SimpleLine level (mid.drop 1) cs rest) :
      SimpleLine level ts (.simple stmt isSimple :: joinedAt mid ++ joinedAt (mid.drop 1) ++ cs) rest

mutual

/-- A suite behind the colon of a clause: a block that stands further right, nothing, or simple statements. -/
inductive Suite : Nat → Tokens → List Construct → Tokens → Prop
  | deeper {level indent : Nat} {ts rest : Tokens} {cs : List Construct}
      (hbreak : lexeme? ts = .lineBreak indent) (hdeeper : level < indent)
      (hblock : Block indent true (ts.drop 1) cs rest) : Suite level ts cs rest
  | missing {level indent : Nat} {ts : Tokens} (hbreak : lexeme? ts = .lineBreak indent)
      (hleft : ¬level < indent) : Suite level ts [] ts
  | line {level : Nat} {ts rest : Tokens} {cs : List Construct}
      (hline : ∀ indent, lexeme? ts ≠ .lineBreak indent) (hcs : SimpleLine level ts cs rest) :
      Suite level ts cs rest

/-- A colon behind the head of a clause or of a definition, and the suite behind the colon. -/
inductive ColonSuite : Nat → Tokens → List Construct → Tokens → Prop
  | mk {level : Nat} {ts after rest : Tokens} {cs : List Construct}
      (hcolon : symbol ":" (skipBreak level ts) = .ok ((), after)) (hsuite : Suite level after cs rest) :
      ColonSuite level ts cs rest

/-- A clause that a certain word opens. -/
inductive Clause : Nat → String → Tokens → List Construct → Tokens → Prop
  | mk {level : Nat} {opener : String} {ts mid rest : Tokens} {cs : List Construct}
      (hhead : clauseHead level opener ts = .ok ((), mid)) (hsuite : ColonSuite level mid cs rest) :
      Clause level opener ts cs rest

/-- The clauses that follow the one that `last` opens, as many as there are, in a statement that `opener` opens. -/
inductive Clauses : Nat → String → String → Tokens → List (List Construct) → Tokens → Prop
  | done {level : Nat} {opener last : String} {ts : Tokens}
      (hnone : ∀ next ∈ followers opener last, clauseAhead level next ts = none) :
      Clauses level opener last ts [] ts
  | more {level : Nat} {opener last next : String} {ts start mid rest : Tokens} {suite : List Construct}
      {suites : List (List Construct)} (hnext : next ∈ followers opener last)
      (hahead : clauseAhead level next ts = some start) (hclause : Clause level next start suite mid)
      (hclauses : Clauses level opener next mid suites rest) :
      Clauses level opener last ts (suite :: suites) rest

/-- The clauses of a statement that a certain word opens. What `try` opens has a second one. -/
inductive Compound : Nat → String → Tokens → List (List Construct) → Tokens → Prop
  | mk {level : Nat} {opener : String} {ts mid rest : Tokens} {suite : List Construct}
      {suites : List (List Construct)} (hclause : Clause level opener ts suite mid)
      (hclauses : Clauses level opener opener mid suites rest) (htry : opener = "try" → suites ≠ []) :
      Compound level opener ts (suite :: suites) rest

/-- The cases of a matching statement. -/
inductive Cases : Nat → Tokens → List Construct → Tokens → Prop
  | last {level : Nat} {ts rest : Tokens} {suite : List Construct} (hcase : Clause level "case" ts suite rest)
      (hend : ∀ indent, lexeme? rest = .lineBreak indent → level ≤ indent → lexeme? (rest.drop 1) = .finish) :
      Cases level ts [.compound [suite]] rest
  | more {level indent : Nat} {ts mid rest : Tokens} {suite cases : List Construct}
      (hcase : Clause level "case" ts suite mid) (hbreak : lexeme? mid = .lineBreak indent)
      (hlevel : level ≤ indent) (hmore : lexeme? (mid.drop 1) ≠ .finish)
      (hcases : Cases level (mid.drop 1) cases rest) :
      Cases level ts (.compound [suite] :: cases) rest

/-- A class or a function behind its decorators. -/
inductive ClassOrFunction : Nat → List Expr → Tokens → Construct → Tokens → Prop
  | classDef {level : Nat} {xs : List Expr} {ts start after rest : Tokens} {name : String}
      {body : List Construct} (hopened : opened? ts = some ("class", start))
      (hhead : classHead (.head level) (start.drop 1) = .ok (name, after))
      (hbody : ColonSuite level after body rest) :
      ClassOrFunction level xs ts (.classDef xs name body (lineHere ts)) rest
  | functionDef {level : Nat} {xs : List Expr} {ts start after rest : Tokens} {name : String}
      {params : List Param} {returns : Option String} {body : List Construct}
      (hopened : opened? ts = some ("def", start))
      (hhead : functionHead (.head level) (start.drop 1) = .ok ((name, params, returns), after))
      (hbody : ColonSuite level after body rest) :
      ClassOrFunction level xs ts (.functionDef xs name params returns body (lineHere ts)) rest

/-- A statement with suites, a definition, or a line of simple statements. -/
inductive Statement : Nat → Tokens → List Construct → Tokens → Prop
  | line {level : Nat} {ts rest : Tokens} {cs : List Construct} (hopens : opensNothing level ts)
      (hcs : SimpleLine level ts cs rest) : Statement level ts cs rest
  | compound {level : Nat} {opener : String} {ts start rest : Tokens} {suites : List (List Construct)}
      (hopened : opened? ts = some (opener, start)) (hopener : opener ∈ compoundWords)
      (hsuites : Compound level opener start suites rest) : Statement level ts [.compound suites] rest
  | matching {level indent : Nat} {ts after rest : Tokens} {cases : List Construct}
      (hword : atWord "match" ts = true) (hhead : matchHead? level ts = some after)
      (hbreak : lexeme? after = .lineBreak indent) (hdeeper : level < indent)
      (hcases : Cases indent (after.drop 1) cases rest) : Statement level ts [.compound [cases]] rest
  /-- A matching statement without cases. -/
  | matchless {level : Nat} {ts after : Tokens} (hword : atWord "match" ts = true)
      (hhead : matchHead? level ts = some after)
      (hleft : ∀ indent, lexeme? after = .lineBreak indent → ¬level < indent) :
      Statement level ts [.compound []] after
  | definition {level : Nat} {ts mid rest : Tokens} {xs : List Expr} {c : Construct}
      (hdecorators : decorators level ts.length ts = .ok (xs, mid)) (hc : ClassOrFunction level xs mid c rest) :
      Statement level ts [c] rest

/-- The constructs of a block at a certain indentation, up to a line that stands further left or the end of the text.
`opening` says that no statement of the block stands in front. -/
inductive Block : Nat → Bool → Tokens → List Construct → Tokens → Prop
  | finish {level : Nat} {opening : Bool} {ts : Tokens} (hfinish : lexeme? ts = .finish) :
      Block level opening ts (joinedBefore opening ts) ts
  | outside {level indent : Nat} {opening : Bool} {ts : Tokens} (hbreak : lexeme? ts = .lineBreak indent)
      (hleft : ¬level ≤ indent) : Block level opening ts [] ts
  | line {level indent : Nat} {opening : Bool} {ts rest : Tokens} {cs : List Construct}
      (hbreak : lexeme? ts = .lineBreak indent) (hlevel : level ≤ indent)
      (hblock : Block level opening (ts.drop 1) cs rest) : Block level opening ts cs rest
  | cons {level : Nat} {opening : Bool} {ts mid rest : Tokens} {cs others : List Construct}
      (hline : ∀ indent, lexeme? ts ≠ .lineBreak indent) (hmore : lexeme? ts ≠ .finish)
      (hcs : Statement level ts cs mid) (hothers : Block level false mid others rest) :
      Block level opening ts (joinedBefore opening ts ++ cs ++ others) rest

end

end Grammar

open Grammar

/-! ## Simple statements -/

/-- Whatever is read has no suites. -/
def OnlySimple (r : Except Tokens (Stmt × Tokens)) : Prop :=
  ∀ stmt rest, r = .ok (stmt, rest) → stmt.isSimple = true

namespace OnlySimple

variable {r s : Except Tokens (Stmt × Tokens)}

theorem ok {stmt : Stmt} {rest : Tokens} (h : stmt.isSimple = true) : OnlySimple (.ok (stmt, rest)) := by
  rintro _ _ ⟨⟩
  exact h

theorem error {stuck : Tokens} : OnlySimple (.error stuck) := by
  rintro _ _ ⟨⟩

theorem bind {α : Type} {x : Except Tokens α} {f : α → Except Tokens (Stmt × Tokens)}
    (h : ∀ value, OnlySimple (f value)) : OnlySimple (x >>= f) := by
  intro stmt rest heq
  obtain ⟨value, -, hvalue⟩ := except_bind_eq_ok.1 heq
  exact h value stmt rest hvalue

theorem ite {P : Prop} [Decidable P] (hr : OnlySimple r) (hs : OnlySimple s) :
    OnlySimple (if P then r else s) := by
  split
  · exact hr
  · exact hs

theorem orElse (hr : OnlySimple r) (hs : OnlySimple s) : OnlySimple (orElse r s) := by
  unfold Source.orElse
  split
  · exact .ite (.ok (hr _ _ rfl)) hs
  · exact hs

theorem plain {r : Except Tokens (Unit × Tokens)} : OnlySimple (plain r) := by
  cases r with
  | error => exact .error
  | ok => exact .ok rfl

variable (p : Place) (ts : Tokens)

theorem importFrom : OnlySimple (importFrom p ts) := by
  refine .ite ?_ ?_
  · exact .bind fun _ => .bind fun _ => .ok rfl
  · exact .bind fun _ => .bind fun _ => .ite (.ok rfl) (.bind fun _ => .ok rfl)

theorem expressionStatement : OnlySimple (expressionStatement p ts) := by
  refine .bind fun _ => .bind fun _ => ?_
  dsimp only
  split
  · refine .ok ?_
    split <;> rfl
  · exact .ok rfl

theorem printStatement : OnlySimple (printStatement p ts) :=
  .ite (.bind fun _ => .ok rfl) (.bind fun _ => .ok rfl)

theorem execStatement : OnlySimple (execStatement p ts) := by
  have hlast (rest : Tokens) : OnlySimple (do
      if atWord "in" (p.next rest) then
        let ((), rest) ← dropped p ((p.next rest).drop 1)
        .ok (.other, rest)
      else .ok (.other, rest)) := .ite (.bind fun _ => .ok rfl) (.ok rfl)
  exact .ite (.bind fun _ => hlast _) (.bind fun _ => hlast _)

theorem typeStatement : OnlySimple (typeStatement p ts) :=
  .bind fun _ => .bind fun _ => .bind fun _ => .ok rfl

/-- **A simple statement has no suites.** -/
theorem simpleStatement : OnlySimple (simpleStatement p ts) := by
  unfold Source.simpleStatement
  dsimp only
  split
  · exact .bind fun _ => .ok rfl
  · exact .importFrom p _
  · exact .ok rfl
  · exact .ok rfl
  · exact .ok rfl
  · exact .plain
  · exact .plain
  · exact .plain
  · exact .bind fun _ => .ite (.bind fun _ => .ok rfl) (.ok rfl)
  · exact .bind fun _ => .ok rfl
  · exact .bind fun _ => .ok rfl
  · exact .orElse (.expressionStatement p ts) (.printStatement p _)
  · exact .orElse (.expressionStatement p ts) (.execStatement p _)
  · exact .orElse (.typeStatement p _) (.expressionStatement p ts)
  · exact .expressionStatement p ts

end OnlySimple

theorem located_eq_ok {α : Type} {start : Tokens} {r : Except Tokens α} {x : α} :
    located start r = .ok x ↔ r = .ok x := by
  cases r <;> simp [located, Except.mapError]

/-- What is read of a line of simple statements is written there. -/
theorem simpleLine_sound {level fuel : Nat} {ts rest : Tokens} {read : List Stmt}
    (h : simpleLine level fuel ts = .ok (read, rest)) : ∃ cs, stmts cs = read ∧ SimpleLine level ts cs rest := by
  induction fuel generalizing ts read rest with
  | zero => cases h
  | succ fuel ih =>
    obtain ⟨⟨stmt, mid⟩, hstmt, h⟩ := except_bind_eq_ok.1 h
    rw [located_eq_ok] at hstmt
    have hsimple : stmt.isSimple = true := OnlySimple.simpleStatement _ _ stmt mid hstmt
    dsimp only at h
    split at h
    · rename_i hmark
      split at h
      · rename_i hend
        cases h
        exact ⟨_, by simp [Construct.stmt], .closed hsimple hstmt hmark hend⟩
      · rename_i hmore
        obtain ⟨⟨others, last⟩, hothers, h⟩ := except_bind_eq_ok.1 h
        obtain ⟨cs, rfl, hcs⟩ := ih hothers
        cases h
        exact ⟨_, by simp [Construct.stmt], .more hsimple hstmt hmark (Bool.eq_false_iff.2 hmore) hcs⟩
    · rename_i hmark
      split at h
      · rename_i hend
        cases h
        refine ⟨_, rfl, .last hsimple hstmt ?_⟩
        rw [atLineEnd, hend, Bool.eq_false_iff.2 hmark]
        rfl
      · cases h

/-! ## Suites and clauses -/

/-- What is read of a block is written there. -/
def BlockReader.Sound (block : BlockReader) : Prop :=
  ∀ {level : Nat} {ts rest : Tokens} {read : List Stmt}, block level ts = .ok (read, rest) →
    ∃ cs, stmts cs = read ∧ Block level true ts cs rest

/-- No tokens are added to those that are left. -/
def BlockReader.Bounded (block : BlockReader) : Prop := ∀ n, block.Uniform (.bounded n)

theorem lexeme?_ne_lineBreak {ts : Tokens}
    (h : ∀ indent gap joins line rest, ts = ⟨.lineBreak indent, gap, joins, line⟩ :: rest → False) (indent : Nat) :
    lexeme? ts ≠ .lineBreak indent := by
  intro hts
  cases ts with
  | nil => cases hts
  | cons t rest =>
    obtain ⟨l, gap, joins, line⟩ := t
    obtain rfl : l = .lineBreak indent := hts
    exact h indent gap joins line rest rfl

theorem length_lt_of_clauseAhead {level : Nat} {opener : String} {ts start : Tokens}
    (h : clauseAhead level opener ts = some start) : start.length < ts.length := by
  unfold clauseAhead at h
  split at h
  · split at h
    · cases h
      exact Nat.lt_succ_self _
    · cases h
  · cases h

theorem opened?_eq_some {ts : Tokens} {text : String} (h : lexeme? ts = .word text)
    (htext : text ∈ "def" :: "class" :: compoundWords) : opened? ts = some (text, ts) := by
  unfold opened?
  rw [h]
  split
  · rename_i heq
    cases heq
    exact absurd htext (by decide)
  · rename_i heq
    cases heq
    exact if_pos htext
  · rename_i hother
    exact absurd rfl (hother text)

theorem opened?_async {ts : Tokens} {text : String} (h : lexeme? ts = .word "async")
    (hnext : lexeme? (ts.drop 1) = .word text) (htext : text ∈ ["def", "for", "with"]) :
    opened? ts = some (text, ts.drop 1) := by
  simp only [opened?, h, hnext]
  exact if_pos htext

theorem opened?_async_eq_none {ts : Tokens} (h : lexeme? ts = .word "async")
    (hnext : ∀ text ∈ ["def", "for", "with"], atWord text (ts.drop 1) = false) : opened? ts = none := by
  simp only [opened?, h]
  split
  · rename_i text htext
    exact if_neg fun hmem => beq_eq_false_iff_ne.1 (hnext text hmem) htext
  · rfl

theorem opened?_eq_none {ts : Tokens} (hasync : lexeme? ts ≠ .word "async")
    (h : ∀ text ∈ "def" :: "class" :: compoundWords, lexeme? ts ≠ .word text) : opened? ts = none := by
  unfold opened?
  split
  · rename_i heq
    exact absurd heq hasync
  · rename_i text _ heq
    exact if_neg fun hmem => h text hmem heq
  · rfl

/-- In front of a word there are no decorators. -/
theorem decorators_word {level : Nat} {ts : Tokens} {text : String} (h : lexeme? ts = .word text) :
    decorators level ts.length ts = .ok ([], ts) := by
  cases ts with
  | nil => cases h
  | cons t ts =>
    have hat : atSymbol "@" (t :: ts) = false := by rw [atSymbol, h]; rfl
    rw [List.length_cons, decorators, hat]
    rfl

section Soundness

variable {block : BlockReader} (hblock : block.Sound) {level : Nat} {ts rest : Tokens}

include hblock

theorem suite_sound {read : List Stmt} (h : suite block level ts = .ok (read, rest)) :
    ∃ cs, stmts cs = read ∧ Suite level ts cs rest := by
  unfold suite at h
  split at h
  · split at h
    · rename_i hdeeper
      obtain ⟨cs, hread, hcs⟩ := hblock h
      exact ⟨cs, hread, .deeper rfl hdeeper hcs⟩
    · rename_i hleft
      cases h
      exact ⟨[], rfl, .missing rfl hleft⟩
  · rename_i hline
    obtain ⟨cs, hread, hcs⟩ := simpleLine_sound h
    exact ⟨cs, hread, .line (lexeme?_ne_lineBreak hline) hcs⟩

theorem colonSuite_sound {start : Tokens} {read : List Stmt}
    (h : colonSuite block level start ts = .ok (read, rest)) :
    ∃ cs, stmts cs = read ∧ ColonSuite level ts cs rest := by
  obtain ⟨⟨⟨⟩, after⟩, hcolon, h⟩ := except_bind_eq_ok.1 h
  obtain ⟨cs, hread, hcs⟩ := suite_sound hblock h
  exact ⟨cs, hread, .mk (located_eq_ok.1 hcolon) hcs⟩

theorem conditionClause_sound (opener : String) (hopener : opener ∈ ["if", "elif", "while"]) {read : List Stmt}
    (h : conditionClause block level ts = .ok (read, rest)) :
    ∃ cs, stmts cs = read ∧ Clause level opener ts cs rest := by
  obtain ⟨⟨x, mid⟩, hx, h⟩ := except_bind_eq_ok.1 h
  obtain ⟨cs, hread, hcs⟩ := colonSuite_sound hblock h
  have hhead : (do let (_, rest) ← expression (.head level) (ts.drop 1); .ok ((), rest)) =
      Except.ok (ε := Tokens) ((), mid) := by
    rw [located_eq_ok.1 hx]
    rfl
  refine ⟨cs, hread, .mk ?_ hcs⟩
  simp only [List.mem_cons, List.not_mem_nil, or_false] at hopener
  obtain rfl | rfl | rfl := hopener
  · exact hhead
  · exact hhead
  · exact hhead

theorem handler_sound {read : List Stmt} (h : handler block level ts = .ok (read, rest)) :
    ∃ cs, stmts cs = read ∧ Clause level "except" ts cs rest := by
  obtain ⟨⟨⟨⟩, mid⟩, hhead, h⟩ := except_bind_eq_ok.1 h
  obtain ⟨cs, hread, hcs⟩ := colonSuite_sound hblock h
  exact ⟨cs, hread, .mk (located_eq_ok.1 hhead) hcs⟩

/-- A clause that consists of a word and a suite, or none. -/
theorem wordClause_sound (next : String) (hnext : next ∈ ["else", "finally"]) {read : List (List Stmt)}
    (h : wordClause block level next ts = .ok (read, rest)) :
    (read = [] ∧ rest = ts ∧ clauseAhead level next ts = none) ∨
      ∃ start suite, clauseAhead level next ts = some start ∧ read = [stmts suite] ∧
        Clause level next start suite rest := by
  unfold wordClause at h
  split at h
  · rename_i hnone
    cases h
    exact .inl ⟨rfl, rfl, hnone⟩
  · rename_i start hsome
    obtain ⟨⟨body, last⟩, hbody, h⟩ := except_bind_eq_ok.1 h
    obtain ⟨cs, rfl, hcs⟩ := colonSuite_sound hblock hbody
    cases h
    have hhead : clauseHead level next start = .ok ((), start.drop 1) := by
      simp only [List.mem_cons, List.not_mem_nil, or_false] at hnext
      obtain rfl | rfl := hnext
      · rfl
      · rfl
    exact .inr ⟨start, cs, hsome, rfl, .mk hhead hcs⟩

/-- The clause behind which none follows. -/
theorem lastClause_sound (opener last next : String) (hnext : next ∈ ["else", "finally"])
    (hfollows : next ∈ followers opener last) (hstop : followers opener next = [])
    (hothers : ∀ other ∈ followers opener last, other ≠ next → clauseAhead level other ts = none)
    {read : List (List Stmt)} (h : wordClause block level next ts = .ok (read, rest)) :
    ∃ suites, suiteStmts suites = read ∧ Clauses level opener last ts suites rest := by
  obtain ⟨rfl, rfl, hnone⟩ | ⟨start, suite, hahead, rfl, hclause⟩ := wordClause_sound hblock next hnext h
  · refine ⟨[], rfl, .done fun other hother => ?_⟩
    by_cases heq : other = next
    · rw [heq, hnone]
    · exact hothers other hother heq
  · refine ⟨[suite], rfl, .more hfollows hahead hclause (.done ?_)⟩
    rw [hstop]
    exact List.forall_mem_nil _

omit hblock in
/-- As many clauses as follow each other, for each of them takes a token. -/
theorem repeated_sound (opener last next : String)
    {clause : Tokens → Except Nat (List Stmt × Tokens)}
    (hclause : ∀ {start rest read}, clause start = .ok (read, rest) →
      (∃ cs, stmts cs = read ∧ Clause level next start cs rest) ∧ rest.length ≤ start.length)
    (hfollows : next ∈ followers opener last) (hagain : next ∈ followers opener next) {fuel : Nat}
    {mid : Tokens} {read : List (List Stmt)} (hfuel : ts.length ≤ fuel)
    (h : repeated clause level next fuel ts = .ok (read, mid)) :
    clauseAhead level next mid = none ∧ ∃ suites, suiteStmts suites = read ∧
      ∀ {others rest}, Clauses level opener (if read.isEmpty then last else next) mid others rest →
        Clauses level opener last ts (suites ++ others) rest := by
  induction fuel generalizing ts last read with
  | zero =>
    cases h
    obtain rfl := List.length_eq_zero_iff.1 (Nat.le_zero.1 hfuel)
    exact ⟨rfl, [], rfl, id⟩
  | succ fuel ih =>
    unfold repeated at h
    split at h
    · rename_i hnone
      cases h
      exact ⟨hnone, [], rfl, id⟩
    · rename_i start hahead
      obtain ⟨⟨body, after⟩, hbody, h⟩ := except_bind_eq_ok.1 h
      obtain ⟨⟨bodies, final⟩, hbodies, h⟩ := except_bind_eq_ok.1 h
      cases h
      obtain ⟨⟨suite, rfl, hsuite⟩, hafter⟩ := hclause hbody
      have hstart : start.length < ts.length := length_lt_of_clauseAhead hahead
      have hfuel : after.length ≤ fuel := by omega
      obtain ⟨hnone, suites, rfl, hsuites⟩ := ih next hagain hfuel hbodies
      refine ⟨hnone, suite :: suites, rfl, fun hothers => .more hfollows hahead hsuite (hsuites ?_)⟩
      rw [ite_self]
      exact hothers

/-- Behind handlers there may be two more clauses. -/
theorem handled_sound (hnone : clauseAhead level "except" ts = none) {between : Tokens}
    {otherwise final : List (List Stmt)} (hotherwise : wordClause block level "else" ts = .ok (otherwise, between))
    (hfinal : wordClause block level "finally" between = .ok (final, rest)) :
    ∃ suites, suiteStmts suites = otherwise ++ final ∧ Clauses level "try" "except" ts suites rest := by
  obtain ⟨rfl, rfl, helse⟩ | ⟨start, other, hahead, rfl, hother⟩ :=
    wordClause_sound hblock "else" (by decide) hotherwise
  · exact lastClause_sound hblock "try" "except" "finally" (by decide) (by decide) rfl
      (by simpa [followers] using ⟨hnone, helse⟩) hfinal
  · obtain ⟨finals, rfl, hfinals⟩ := lastClause_sound hblock "try" "else" "finally" (by decide) (by decide) rfl
      (by simp [followers]) hfinal
    exact ⟨other :: finals, rfl, .more (by decide) hahead hother hfinals⟩

/-! ## Compound statements -/

theorem ifStatement_sound (hbounded : block.Bounded) {read : Stmt}
    (h : ifStatement block level ts = .ok (read, rest)) :
    ∃ suites, read = .compound (suiteStmts suites) ∧ Compound level "if" ts suites rest := by
  obtain ⟨⟨body, mid⟩, hbody, h⟩ := except_bind_eq_ok.1 h
  obtain ⟨⟨others, after⟩, hothers, h⟩ := except_bind_eq_ok.1 h
  obtain ⟨⟨final, last⟩, hfinal, h⟩ := except_bind_eq_ok.1 h
  obtain ⟨suite, rfl, hsuite⟩ := conditionClause_sound hblock "if" (by decide) hbody
  obtain ⟨hnone, suites, rfl, hsuites⟩ := repeated_sound "if" "if" "elif"
    (fun hread => ⟨conditionClause_sound hblock "elif" (by decide) hread,
      length_le_of_respects (respects_conditionClause (hbounded _) level) hread⟩)
    (by decide) (by decide) (Nat.le_refl _) hothers
  have hfollowers :
      followers "if" (if (suiteStmts suites).isEmpty then "if" else "elif") = ["elif", "else"] := by
    split
    · rfl
    · rfl
  obtain ⟨finals, rfl, hfinals⟩ := lastClause_sound hblock "if" _ "else" (by decide)
    (by rw [hfollowers]; decide) rfl (by rw [hfollowers]; simpa using hnone) hfinal
  cases h
  exact ⟨suite :: (suites ++ finals), by simp, .mk hsuite (hsuites hfinals) fun heq => absurd heq (by decide)⟩

theorem whileStatement_sound {read : Stmt} (h : whileStatement block level ts = .ok (read, rest)) :
    ∃ suites, read = .compound (suiteStmts suites) ∧ Compound level "while" ts suites rest := by
  obtain ⟨⟨body, mid⟩, hbody, h⟩ := except_bind_eq_ok.1 h
  obtain ⟨⟨final, last⟩, hfinal, h⟩ := except_bind_eq_ok.1 h
  obtain ⟨suite, rfl, hsuite⟩ := conditionClause_sound hblock "while" (by decide) hbody
  obtain ⟨finals, rfl, hfinals⟩ := lastClause_sound hblock "while" "while" "else" (by decide) (by decide) rfl
    (by simp [followers]) hfinal
  cases h
  exact ⟨suite :: finals, rfl, .mk hsuite hfinals fun heq => absurd heq (by decide)⟩

theorem forStatement_sound {start : Tokens} {read : Stmt}
    (h : forStatement block level start ts = .ok (read, rest)) :
    ∃ suites, read = .compound (suiteStmts suites) ∧ Compound level "for" ts suites rest := by
  obtain ⟨⟨⟨⟩, head⟩, hhead, h⟩ := except_bind_eq_ok.1 h
  obtain ⟨⟨body, mid⟩, hbody, h⟩ := except_bind_eq_ok.1 h
  obtain ⟨⟨final, last⟩, hfinal, h⟩ := except_bind_eq_ok.1 h
  obtain ⟨suite, rfl, hsuite⟩ := colonSuite_sound hblock hbody
  obtain ⟨finals, rfl, hfinals⟩ := lastClause_sound hblock "for" "for" "else" (by decide) (by decide) rfl
    (by simp [followers]) hfinal
  cases h
  exact ⟨suite :: finals, rfl, .mk (.mk (located_eq_ok.1 hhead) hsuite) hfinals
    fun heq => absurd heq (by decide)⟩

theorem withStatement_sound {start : Tokens} {read : Stmt}
    (h : withStatement block level start ts = .ok (read, rest)) :
    ∃ suites, read = .compound (suiteStmts suites) ∧ Compound level "with" ts suites rest := by
  obtain ⟨⟨⟨⟩, head⟩, hhead, h⟩ := except_bind_eq_ok.1 h
  obtain ⟨⟨body, mid⟩, hbody, h⟩ := except_bind_eq_ok.1 h
  obtain ⟨suite, rfl, hsuite⟩ := colonSuite_sound hblock hbody
  cases h
  exact ⟨[suite], rfl, .mk (.mk (located_eq_ok.1 hhead) hsuite) (.done (List.forall_mem_nil _))
    fun heq => absurd heq (by decide)⟩

theorem tryStatement_sound (hbounded : block.Bounded) {read : Stmt}
    (h : tryStatement block level ts = .ok (read, rest)) :
    ∃ suites, read = .compound (suiteStmts suites) ∧ Compound level "try" ts suites rest := by
  obtain ⟨⟨body, mid⟩, hbody, h⟩ := except_bind_eq_ok.1 h
  obtain ⟨⟨handlers, after⟩, hhandlers, h⟩ := except_bind_eq_ok.1 h
  obtain ⟨suite, rfl, hsuite⟩ := colonSuite_sound hblock hbody
  have hclause : Clause level "try" ts suite mid := .mk rfl hsuite
  obtain ⟨hnone, suites, rfl, hsuites⟩ := repeated_sound "try" "try" "except"
    (fun hread => ⟨handler_sound hblock hread,
      length_le_of_respects (respects_handler (hbounded _) level) hread⟩)
    (by decide) (by decide) (Nat.le_refl _) hhandlers
  dsimp only at h
  split at h
  · -- without handlers there has to be a final clause
    rename_i hempty
    rw [if_pos hempty] at hsuites
    obtain ⟨⟨otherwise, between⟩, hotherwise, h⟩ := except_bind_eq_ok.1 h
    obtain ⟨⟨final, last⟩, hfinal, h⟩ := except_bind_eq_ok.1 h
    cases hotherwise
    obtain ⟨finals, rfl, hfinals⟩ := lastClause_sound hblock "try" "try" "finally" (by decide) (by decide) rfl
      (by simpa [followers] using hnone) hfinal
    dsimp only at h
    split at h
    · cases h
    · rename_i hclauses
      cases h
      refine ⟨suite :: (suites ++ finals), by simp, .mk hclause (hsuites hfinals) fun _ hnil => hclauses ?_⟩
      rw [(List.append_eq_nil_iff.1 hnil).1, (List.append_eq_nil_iff.1 hnil).2]
      rfl
  · rename_i hempty
    rw [if_neg hempty] at hsuites
    obtain ⟨⟨otherwise, between⟩, hotherwise, h⟩ := except_bind_eq_ok.1 h
    obtain ⟨⟨final, last⟩, hfinal, h⟩ := except_bind_eq_ok.1 h
    dsimp only at h
    rw [Bool.eq_false_iff.2 hempty, Bool.false_and, if_neg Bool.false_ne_true] at h
    cases h
    obtain ⟨finals, hread, hfinals⟩ := handled_sound hblock hnone hotherwise hfinal
    refine ⟨suite :: (suites ++ finals), by simp [hread], .mk hclause (hsuites hfinals) fun _ hnil => hempty ?_⟩
    rw [(List.append_eq_nil_iff.1 hnil).1]
    rfl

/-! ## Matching -/

theorem caseClause_sound {read : Stmt} (h : caseClause block level ts = .ok (read, rest)) :
    ∃ suite, read = .compound [stmts suite] ∧ Clause level "case" ts suite rest := by
  obtain ⟨⟨⟨⟩, mid⟩, hword, h⟩ := except_bind_eq_ok.1 h
  obtain ⟨⟨⟨⟩, head⟩, hhead, h⟩ := except_bind_eq_ok.1 h
  obtain ⟨⟨body, last⟩, hbody, h⟩ := except_bind_eq_ok.1 h
  obtain ⟨suite, rfl, hsuite⟩ := colonSuite_sound hblock hbody
  cases h
  exact ⟨suite, rfl,
    .mk (except_bind_eq_ok.2 ⟨_, located_eq_ok.1 hword, located_eq_ok.1 hhead⟩) hsuite⟩

theorem cases_sound {fuel : Nat} {read : List Stmt} (h : cases block level fuel ts = .ok (read, rest)) :
    ∃ cs, stmts cs = read ∧ Cases level ts cs rest := by
  induction fuel generalizing ts read rest with
  | zero => cases h
  | succ fuel ih =>
    obtain ⟨⟨first, mid⟩, hfirst, h⟩ := except_bind_eq_ok.1 h
    obtain ⟨suite, rfl, hsuite⟩ := caseClause_sound hblock hfirst
    dsimp only at h
    split at h
    · rename_i indent gap joins line following
      split at h
      · rename_i hmore
        rw [Bool.and_eq_true, decide_eq_true_iff, bne_iff_ne] at hmore
        obtain ⟨⟨others, last⟩, hothers, h⟩ := except_bind_eq_ok.1 h
        obtain ⟨cs, rfl, hcs⟩ := ih hothers
        cases h
        exact ⟨.compound [suite] :: cs, rfl, .more hsuite rfl hmore.1 hmore.2 hcs⟩
      · rename_i hend
        cases h
        refine ⟨[.compound [suite]], rfl, .last hsuite fun other hother hlevel => ?_⟩
        obtain rfl : indent = other := by simpa [lexeme?] using hother
        by_contra hmore
        exact hend (by simpa [hlevel] using hmore)
    · rename_i hline
      cases h
      refine ⟨[.compound [suite]], rfl, .last hsuite fun other hother => ?_⟩
      exact absurd hother (lexeme?_ne_lineBreak hline other)

theorem matchBody_sound {after : Tokens} {read : Stmt} (hword : atWord "match" ts = true)
    (hhead : matchHead? level ts = some after) (h : matchBody block level after = .ok (read, rest)) :
    ∃ c, Construct.stmt c = read ∧ Statement level ts [c] rest := by
  unfold matchBody at h
  split at h
  · split at h
    · rename_i hdeeper
      obtain ⟨⟨clauses, last⟩, hclauses, h⟩ := except_bind_eq_ok.1 h
      obtain ⟨cs, rfl, hcs⟩ := cases_sound hblock hclauses
      cases h
      exact ⟨.compound [cs], rfl, .matching hword hhead rfl hdeeper hcs⟩
    · rename_i indent _ _ _ _ hleft
      cases h
      refine ⟨.compound [], rfl, .matchless hword hhead fun other hother => ?_⟩
      obtain rfl : indent = other := by simpa [lexeme?] using hother
      exact hleft
  · rename_i hline
    cases h
    refine ⟨.compound [], rfl, .matchless hword hhead fun other hother => ?_⟩
    exact absurd hother (lexeme?_ne_lineBreak hline other)

/-! ## Definitions -/

theorem classStatement_sound {xs : List Expr} (hopened : opened? ts = some ("class", ts)) {read : Stmt}
    (h : classStatement block level xs ts = .ok (read, rest)) :
    ∃ c, Construct.stmt c = read ∧ ClassOrFunction level xs ts c rest := by
  obtain ⟨⟨name, after⟩, hhead, h⟩ := except_bind_eq_ok.1 h
  obtain ⟨⟨body, last⟩, hbody, h⟩ := except_bind_eq_ok.1 h
  obtain ⟨cs, rfl, hcs⟩ := colonSuite_sound hblock hbody
  cases h
  exact ⟨.classDef xs name cs _, rfl, .classDef hopened (located_eq_ok.1 hhead) hcs⟩

theorem functionStatement_sound {xs : List Expr} {start : Tokens} (hopened : opened? ts = some ("def", start))
    {read : Stmt} (h : functionStatement block level xs ts start = .ok (read, rest)) :
    ∃ c, Construct.stmt c = read ∧ ClassOrFunction level xs ts c rest := by
  obtain ⟨⟨⟨name, params, returns⟩, after⟩, hhead, h⟩ := except_bind_eq_ok.1 h
  obtain ⟨⟨body, last⟩, hbody, h⟩ := except_bind_eq_ok.1 h
  obtain ⟨cs, rfl, hcs⟩ := colonSuite_sound hblock hbody
  cases h
  exact ⟨.functionDef xs name params returns cs _, rfl, .functionDef hopened (located_eq_ok.1 hhead) hcs⟩

theorem decorated_sound {read : Stmt} (h : decorated block level ts = .ok (read, rest)) :
    ∃ c, Construct.stmt c = read ∧ Statement level ts [c] rest := by
  obtain ⟨⟨xs, mid⟩, hxs, h⟩ := except_bind_eq_ok.1 h
  have hdecorators := located_eq_ok.1 hxs
  dsimp only at h
  split at h
  · rename_i hclass
    obtain ⟨c, hread, hc⟩ := classStatement_sound hblock (opened?_eq_some (eq_of_beq hclass) (by decide)) h
    exact ⟨c, hread, .definition hdecorators hc⟩
  · split at h
    · rename_i hdef
      obtain ⟨c, hread, hc⟩ := functionStatement_sound hblock (opened?_eq_some (eq_of_beq hdef) (by decide)) h
      exact ⟨c, hread, .definition hdecorators hc⟩
    · split at h
      · rename_i hasync
        rw [Bool.and_eq_true] at hasync
        obtain ⟨c, hread, hc⟩ := functionStatement_sound hblock
          (opened?_async (eq_of_beq hasync.1) (eq_of_beq hasync.2) (by decide)) h
        exact ⟨c, hread, .definition hdecorators hc⟩
      · cases h

/-! ## Blocks and modules -/

omit hblock in
theorem single_eq_ok {r : Except Nat (Stmt × Tokens)} {read : List Stmt} (h : single r = .ok (read, rest)) :
    ∃ stmt, r = .ok (stmt, rest) ∧ read = [stmt] := by
  cases r with
  | error => cases h
  | ok result =>
    cases h
    exact ⟨result.1, rfl, rfl⟩

omit hblock in
theorem line_sound (hopens : opensNothing level ts) {fuel : Nat} {read : List Stmt}
    (h : simpleLine level fuel ts = .ok (read, rest)) : ∃ cs, stmts cs = read ∧ Statement level ts cs rest := by
  obtain ⟨cs, hread, hcs⟩ := simpleLine_sound h
  exact ⟨cs, hread, .line hopens hcs⟩

omit hblock in
theorem compound_sound {opener : String} {start : Tokens} (hopened : opened? ts = some (opener, start))
    (hopener : opener ∈ compoundWords) {r : Except Nat (Stmt × Tokens)}
    (hr : ∀ {read}, r = .ok (read, rest) →
      ∃ suites, read = .compound (suiteStmts suites) ∧ Compound level opener start suites rest)
    {read : List Stmt} (h : single r = .ok (read, rest)) :
    ∃ cs, stmts cs = read ∧ Statement level ts cs rest := by
  obtain ⟨stmt, hstmt, rfl⟩ := single_eq_ok h
  obtain ⟨suites, rfl, hsuites⟩ := hr hstmt
  exact ⟨[.compound suites], rfl, .compound hopened hopener hsuites⟩

omit hblock in
theorem definition_sound {text : String} (hword : lexeme? ts = .word text) {r : Except Nat (Stmt × Tokens)}
    (hr : ∀ {read}, r = .ok (read, rest) →
      ∃ c, Construct.stmt c = read ∧ ClassOrFunction level [] ts c rest)
    {read : List Stmt} (h : single r = .ok (read, rest)) :
    ∃ cs, stmts cs = read ∧ Statement level ts cs rest := by
  obtain ⟨stmt, hstmt, rfl⟩ := single_eq_ok h
  obtain ⟨c, rfl, hc⟩ := hr hstmt
  exact ⟨[c], rfl, .definition (decorators_word hword) hc⟩

theorem statement_sound (hbounded : block.Bounded) {read : List Stmt}
    (h : statement block level ts = .ok (read, rest)) :
    ∃ cs, stmts cs = read ∧ Statement level ts cs rest := by
  unfold statement at h
  dsimp only at h
  split at h
  · rename_i hword
    exact compound_sound (opened?_eq_some hword (by decide)) (by decide) (ifStatement_sound hblock hbounded) h
  · rename_i hword
    exact compound_sound (opened?_eq_some hword (by decide)) (by decide) (whileStatement_sound hblock) h
  · rename_i hword
    exact compound_sound (opened?_eq_some hword (by decide)) (by decide) (forStatement_sound hblock) h
  · rename_i hword
    exact compound_sound (opened?_eq_some hword (by decide)) (by decide) (tryStatement_sound hblock hbounded) h
  · rename_i hword
    exact compound_sound (opened?_eq_some hword (by decide)) (by decide) (withStatement_sound hblock) h
  · rename_i hword
    exact definition_sound hword (functionStatement_sound hblock (opened?_eq_some hword (by decide))) h
  · rename_i hword
    exact definition_sound hword (classStatement_sound hblock (opened?_eq_some hword (by decide))) h
  · obtain ⟨stmt, hstmt, rfl⟩ := single_eq_ok h
    obtain ⟨c, rfl, hc⟩ := decorated_sound hblock hstmt
    exact ⟨[c], rfl, hc⟩
  · rename_i hword
    split at h
    · rename_i hdef
      have hopened := opened?_async hword (eq_of_beq hdef) (by decide)
      exact definition_sound hword (functionStatement_sound hblock hopened) h
    split at h
    · rename_i hfor
      have hopened := opened?_async hword (eq_of_beq hfor) (by decide)
      exact compound_sound hopened (by decide) (forStatement_sound hblock) h
    split at h
    · rename_i hwith
      have hopened := opened?_async hword (eq_of_beq hwith) (by decide)
      exact compound_sound hopened (by decide) (withStatement_sound hblock) h
    rename_i hdef hfor hwith
    rw [Bool.not_eq_true] at hdef hfor hwith
    refine line_sound ⟨opened?_async_eq_none hword ?_, by rw [atSymbol, hword]; rfl, ?_⟩ h
    · exact List.forall_mem_cons.2 ⟨hdef, List.forall_mem_cons.2 ⟨hfor, List.forall_mem_singleton.2 hwith⟩⟩
    · rw [atWord, hword]
      exact fun hmatch => absurd hmatch (by decide)
  · rename_i hword
    split at h
    · rename_i after hhead
      obtain ⟨stmt, hstmt, rfl⟩ := single_eq_ok h
      obtain ⟨c, rfl, hc⟩ := matchBody_sound hblock (by rw [atWord, hword]; rfl) hhead hstmt
      exact ⟨[c], rfl, hc⟩
    · rename_i hhead
      refine line_sound ⟨opened?_eq_none ?_ ?_, by rw [atSymbol, hword]; rfl, fun _ => hhead⟩ h
      · rw [hword]
        decide
      · rw [hword]
        decide
  · rename_i hif hwhile hfor htry hwith hdef hclass hat hasync hmatch
    refine line_sound ⟨opened?_eq_none hasync ?_, beq_eq_false_iff_ne.2 hat, ?_⟩ h
    · simpa [compoundWords] using ⟨hdef, hclass, hif, hwhile, hfor, htry, hwith⟩
    · exact fun hword => absurd (eq_of_beq hword) hmatch

end Soundness

/-- **What is read of a block is written there.** -/
theorem statements_sound (fuel : Nat) (opening : Bool) {level : Nat} {ts rest : Tokens} {read : List Stmt}
    (h : statements fuel opening level ts = .ok (read, rest)) :
    ∃ cs, stmts cs = read ∧ Block level opening ts cs rest := by
  induction fuel generalizing opening level ts rest read with
  | zero => cases h
  | succ fuel ih =>
    have hbounded : BlockReader.Bounded (statements fuel true) := fun n => respects_statements fuel true
    have hjoined : stmts (joinedBefore opening ts) = if opening then [] else joinStmts ts := by
      unfold joinedBefore
      split
      · rfl
      · exact stmts_joinedAt ts
    unfold statements at h
    dsimp only at h
    split at h
    · cases h
      exact ⟨_, hjoined, .finish rfl⟩
    · cases h
      exact ⟨_, hjoined, .finish rfl⟩
    · split at h
      · rename_i hlevel
        obtain ⟨cs, hread, hcs⟩ := ih opening h
        exact ⟨cs, hread, .line rfl hlevel hcs⟩
      · rename_i hleft
        cases h
        exact ⟨[], rfl, .outside rfl hleft⟩
    · rename_i hnil hfinish hline
      obtain ⟨⟨first, mid⟩, hfirst, h⟩ := except_bind_eq_ok.1 h
      obtain ⟨⟨others, last⟩, hothers, h⟩ := except_bind_eq_ok.1 h
      obtain ⟨cs, rfl, hcs⟩ := statement_sound (ih true) hbounded hfirst
      obtain ⟨followers, rfl, hfollowers⟩ := ih false hothers
      cases h
      refine ⟨joinedBefore opening ts ++ cs ++ followers, ?_,
        .cons (lexeme?_ne_lineBreak hline) ?_ hcs hfollowers⟩
      · rw [Construct.stmts_append, Construct.stmts_append, hjoined]
      · intro hts
        cases ts with
        | nil => exact hnil rfl
        | cons t rest =>
          obtain ⟨l, gap, joins, line⟩ := t
          obtain rfl : l = .finish := hts
          exact hfinish gap joins line rest rfl

/-- Where reading stops at the left edge there is nothing left. -/
theorem finish_of_statements {fuel : Nat} {opening : Bool} {ts rest : Tokens} {read : List Stmt}
    (h : statements fuel opening 0 ts = .ok (read, rest)) : lexeme? rest = .finish := by
  induction fuel generalizing opening ts rest read with
  | zero => cases h
  | succ fuel ih =>
    unfold statements at h
    dsimp only at h
    split at h
    · cases h
      rfl
    · cases h
      rfl
    · rw [if_pos (Nat.zero_le _)] at h
      exact ih h
    · obtain ⟨first, -, h⟩ := except_bind_eq_ok.1 h
      obtain ⟨⟨others, last⟩, hothers, h⟩ := except_bind_eq_ok.1 h
      cases h
      exact ih hothers

/-- **What is read of a module is written in it**, up to its end. -/
theorem readModule_sound {source : String} {read : List Stmt} (h : readModule source = .ok read) :
    ∃ cs rest, stmts cs = read ∧ Block 0 false (Lexer.tokens source) cs rest ∧ lexeme? rest = .finish := by
  unfold readModule at h
  dsimp only at h
  generalize hresult : statements _ false 0 (Lexer.tokens source) = result at h
  cases result with
  | error => cases h
  | ok value =>
    cases h
    obtain ⟨cs, hread, hcs⟩ := statements_sound _ _ hresult
    exact ⟨cs, value.2, hread, hcs, finish_of_statements hresult⟩

end ClassCli.Source
