import ClassCli.Proofs.Code.Placement
import ClassCli.Proofs.Code.Token

/-!
# Running functions that choose by strings

A function of generated code takes a dictionary, looks values up in it and chooses by them what is done.
Its lines are read by the rules of Python: the cases of a match are tried from top to bottom, a string
is a pattern for an equal string, an underscore for anything, and the first `return` ends the function.
Every other statement is done; which ones, and in which order, is what a run tells.

* **`call`** — what calling a function of a file does.
* **`runCases_caseTrees`** — a match does the suite of the first pattern that fits.
-/

namespace ClassCli.Code

/-! ## Statements -/

/-- What a line says. -/
inductive Clause where
  /-- A match over the value at a key. -/
  | choice (key : String)
  /-- A case for a string, or for anything. -/
  | case (value : Option String)
  | answer (value : Bool)
  /-- Anything else. -/
  | step
  deriving DecidableEq, Repr, Inhabited

/-- The clause of a line, given by its tokens. -/
def Clause.ofTokens : List Token → Clause
  | [.name "match", .name "args", .symbol '[', .string key, .symbol ']', .symbol ':'] => .choice key
  | [.name "case", .string value, .symbol ':'] => .case (some value)
  | [.name "case", .name "_", .symbol ':'] => .case none
  | [.name "return", .name "True"] => .answer true
  | [.name "return", .name "False"] => .answer false
  | _ => .step

/-- The clause of a line. -/
def clause (text : String) : Clause := .ofTokens (tokens text)

/-- What has been done so far, and what the function has returned if it has come to its end. -/
structure Outcome where
  steps : List String := []
  answer : Option Bool := none
  deriving DecidableEq, Repr, Inhabited

/-- Whether a value fits a pattern. -/
def fits (value : Literal) : Option String → Bool
  | none => true
  | some expected => value == .str expected

/-! ## Runs -/

-- A line without a suite where one is needed, or with one where none may be, is no statement: such a
-- function has no outcome.
mutual

/-- Runs one statement. -/
def run (args : String → Literal) : Statement → Option Outcome
  | .node text suite =>
    match clause text with
    | .choice key => if suite.isEmpty then none else runCases args (args key) suite
    | .case _ => none
    | .answer value => if suite.isEmpty then some ⟨[], some value⟩ else none
    | .step => if suite.isEmpty then some ⟨[text], none⟩ else none

/-- Runs statements until one of them returns. -/
def runAll (args : String → Literal) : List Statement → Option Outcome
  | [] => some {}
  | tree :: rest =>
    (run args tree).bind fun first =>
      if first.answer.isSome then some first
      else (runAll args rest).map fun next => ⟨first.steps ++ next.steps, next.answer⟩

/-- Runs the first case whose pattern fits a value. -/
def runCases (args : String → Literal) (value : Literal) : List Statement → Option Outcome
  | [] => some {}
  | .node text suite :: rest =>
    match clause text with
    | .case pattern =>
      if suite.isEmpty then none
      else if fits value pattern then runAll args suite
      else runCases args value rest
    | _ => none

end

/-- Whether a line opens the definition of a certain function. -/
def opens (name text : String) : Bool :=
  match tokens text with
  | .name "def" :: .name other :: _ => other == name
  | _ => false

/-- The body of a function of a file. The last definition of a name counts. -/
def body? (name : String) (lines : List Line) : Option (List Statement) :=
  ((nest lines).reverse.find? (opens name ·.text)).map (·.suite)

/-- Calls a function of a file with a dictionary. -/
def call (name : String) (args : String → Literal) (lines : List Line) : Option Outcome :=
  (body? name lines).bind (runAll args)

/-! ## Clauses of written lines -/

/-- The words that open a clause of a match or return. -/
def clauseWords : List String := ["match", "case", "return"]

theorem ofTokens_step {word : String} (h : word ∉ clauseWords) (rest : List Token) :
    Clause.ofTokens (.name word :: rest) = .step := by
  unfold Clause.ofTokens
  split <;> simp_all [clauseWords]

/-- A line that starts with another word is a step, however it goes on. -/
theorem clause_step {front : String} {word more : List Char} {c : Char}
    (hfront : front.toList = word ++ c :: more) (hne : word ≠ []) (hword : IsWord word)
    (hc : isNameChar c = false) (h : String.ofList word ∉ clauseWords) (rest : String) :
    clause (front ++ rest) = .step := by
  have htext : (front ++ rest).toList = word ++ c :: (more ++ rest.toList) := by
    rw [String.toList_append, hfront, List.append_assoc, List.cons_append]
  rw [clause, tokens, htext, scan_word hne hword (endsName_cons hc _)]
  exact ofTokens_step h _

theorem clause_caseHead_str (value : String) :
    clause (caseHead (.str value)) = .case (some value) := by
  have htokens : tokens (caseHead (.str value)) = [.name "case", .string value, .symbol ':'] := by
    have hcase : "case ".toList = "case".toList ++ [' '] := rfl
    have hcolon : scan .between ":".toList = [.symbol ':'] := rfl
    have hword : IsWord "case".toList := by decide
    rw [tokens, caseHead, Pattern.shown, String.toList_append, String.toList_append, hcase,
      List.append_assoc, List.append_assoc, List.singleton_append,
      scan_word (by decide) hword (endsName_cons (by decide) _), scan_space, scan_quote, hcolon,
      String.ofList_toList]
  rw [clause, htokens]
  rfl

theorem clause_caseHead_anything : clause (caseHead .anything) = .case none := by
  decide +kernel

/-! ## Runs of written matches -/

variable (args : String → Literal)

theorem run_leaf {text : String} (h : clause text = .step) :
    run args (.leaf text) = some ⟨[text], none⟩ := by
  rw [Statement.leaf, run, h]
  rfl

theorem runAll_singleton {tree : Statement} {outcome : Outcome} (h : run args tree = some outcome) :
    runAll args [tree] = some outcome := by
  obtain ⟨steps, answer⟩ := outcome
  rw [runAll, h]
  cases answer with
  | none => simp [runAll]
  | some value => rfl

/-- Statements that return are the end of a run. -/
theorem runAll_cons_answer {tree : Statement} {steps : List String} {value : Bool}
    (h : run args tree = some ⟨steps, some value⟩) (rest : List Statement) :
    runAll args (tree :: rest) = some ⟨steps, some value⟩ := by
  rw [runAll, h]
  rfl

/-- Statements that do not return are followed by the others. -/
theorem runAll_cons_step {tree : Statement} {steps : List String} (h : run args tree = some ⟨steps, none⟩)
    (rest : List Statement) :
    runAll args (tree :: rest)
      = (runAll args rest).map fun next => ⟨steps ++ next.steps, next.answer⟩ := by
  rw [runAll, h]
  rfl

theorem runCases_cons (value : Literal) {pattern : Pattern} {expected : Option String}
    (h : clause (caseHead pattern) = .case expected) {suite : List Statement} (hs : suite ≠ [])
    (rest : List Statement) :
    runCases args value (caseTree pattern suite :: rest)
      = if fits value expected then runAll args suite else runCases args value rest := by
  rw [caseTree, runCases, h]
  simp [hs]

/-- A match runs its cases. -/
theorem run_matchTree {subject key : String} (h : clause ("match " ++ subject ++ ":") = .choice key)
    {cases : List Statement} (hc : cases ≠ []) :
    run args (matchTree subject cases) = runCases args (args key) cases := by
  rw [matchTree, run, h]
  simp [hc]

/-- **A match does the suite of the first string that equals the value**, and what is left for anything
else if there is none. -/
theorem runCases_caseTrees {α : Type} (value : Literal) (key : α → String) (suite : α → List Statement)
    (fallback : List Statement) (hf : fallback ≠ []) (items : List α)
    (h : ∀ item ∈ items, suite item ≠ []) :
    runCases args value
        (caseTrees (items.map (fun item => (.str (key item), suite item)) ++ [(.anything, fallback)]))
      = runAll args (((items.find? fun item => value == .str (key item)).map suite).getD fallback) := by
  induction items with
  | nil =>
    simp only [caseTrees, List.map_nil, List.nil_append, List.map_cons, List.find?_nil, Option.map_none,
      Option.getD_none]
    rw [runCases_cons args value clause_caseHead_anything hf]
    simp [fits]
  | cons item rest ih =>
    have hi : suite item ≠ [] := h item List.mem_cons_self
    have hrest := ih fun other ho => h other (List.mem_cons_of_mem item ho)
    simp only [caseTrees] at hrest
    simp only [caseTrees, List.map_cons, List.cons_append, List.find?_cons]
    rw [runCases_cons args value (clause_caseHead_str (key item)) hi, hrest, fits]
    cases value == .str (key item) with
    | true => simp
    | false => simp

end ClassCli.Code
