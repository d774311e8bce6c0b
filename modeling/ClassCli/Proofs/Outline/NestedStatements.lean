import ClassCli.Outline.Lowering
import ClassCli.Proofs.Source.Constructs

/-!
# Statements inside compound statements

An outline has one sequence for all suites of a compound statement. Opened up to any depth it holds what is written in
the suites, each construct once and in the order of the source. Two things come on top: a joined line end between
statements counts as a statement, and so does a compound statement with nothing in its suites. Neither of them defines,
imports or assigns anything.

* **`flatten`** — a statement of an outline with compound ones opened up.
* **`Construct.leaves`**, **`Construct.written`** — what is written in the suites of a construct.
* **`flatten_lower`** — opening up the outline of a construct gives the outlines of its leaves.
* **`nested_statements_kept`** — the same for everything in a source text.
-/

namespace ClassCli

open Outline (Node)

/-! ## What is written in suites -/

namespace Source.Construct

mutual

/-- What is written in the suites of a compound statement, those inside opened up as well. Anything else, and a
compound statement with nothing in its suites, stands for itself. -/
def leaves : Construct → List Construct
  | compound suites => if (suiteLeaves suites).isEmpty then [compound suites] else suiteLeaves suites
  | c => [c]

/-- The leaves of the constructs of a block. -/
def blockLeaves : List Construct → List Construct
  | [] => []
  | c :: cs => leaves c ++ blockLeaves cs

/-- The leaves of suites, one suite after the other. -/
def suiteLeaves : List (List Construct) → List Construct
  | [] => []
  | suite :: suites => blockLeaves suite ++ suiteLeaves suites

end

/-- Whether a construct is a definition or a statement without suites. -/
def isWritten : Construct → Bool
  | simple .. | classDef .. | functionDef .. => true
  | joined | compound _ => false

/-- The definitions and the statements without suites in the suites of a construct, in source order. -/
def written (c : Construct) : List Construct := c.leaves.filter isWritten

mutual

/-- A construct and everything inside, bodies of definitions included. -/
def within : Construct → List Construct
  | compound suites => compound suites :: suitesWithin suites
  | classDef decorators name body line => classDef decorators name body line :: blockWithin body
  | functionDef decorators name params returns body line =>
    functionDef decorators name params returns body line :: blockWithin body
  | c => [c]

/-- Everything in a block. -/
def blockWithin : List Construct → List Construct
  | [] => []
  | c :: cs => within c ++ blockWithin cs

/-- Everything in suites. -/
def suitesWithin : List (List Construct) → List Construct
  | [] => []
  | suite :: suites => blockWithin suite ++ suitesWithin suites

end

/-- The outline of what is read of a construct. -/
def lower (c : Construct) : Node := Outline.lowerStmt c.stmt

theorem leaves_ne_nil (c : Construct) : c.leaves ≠ [] := by
  cases c with
  | compound suites =>
    rw [leaves]
    split
    · exact List.cons_ne_nil _ _
    · rename_i hsome
      exact fun hnil => hsome (List.isEmpty_iff.2 hnil)
  | simple | joined | classDef | functionDef => exact List.cons_ne_nil _ _

theorem blockLeaves_eq_nil_iff (cs : List Construct) : blockLeaves cs = [] ↔ cs = [] := by
  cases cs with
  | nil => exact Iff.rfl
  | cons c cs => simp [blockLeaves, leaves_ne_nil]

end Source.Construct

namespace Outline

open Source (Construct)
open Source.Construct (lower leaves blockLeaves suiteLeaves isWritten blockWithin)

/-! ## Outlines opened up -/

mutual

/-- A statement of an outline with compound ones opened up. -/
def flatten : Node → List Node
  | .compound body => flattenAll body
  | node => [node]

/-- The statements of an outline, compound ones opened up. -/
def flattenAll : List Node → List Node
  | [] => []
  | node :: nodes => flatten node ++ flattenAll nodes

end

theorem flattenAll_append (nodes others : List Node) :
    flattenAll (nodes ++ others) = flattenAll nodes ++ flattenAll others := by
  induction nodes with
  | nil => rfl
  | cons node nodes ih => rw [List.cons_append, flattenAll, flattenAll, ih, List.append_assoc]

theorem lowerBlock_stmts (cs : List Construct) : lowerBlock (Construct.stmts cs) = cs.map lower := by
  induction cs with
  | nil => rfl
  | cons c cs ih => exact congrArg (lower c :: ·) ih

/-- There are leaves exactly if there are statements. -/
theorem suiteLeaves_eq_nil_iff (suites : List (List Construct)) :
    suiteLeaves suites = [] ↔ lowerSuites (Construct.suiteStmts suites) = [] := by
  induction suites with
  | nil => exact ⟨fun _ => rfl, fun _ => rfl⟩
  | cons suite suites ih =>
    rw [suiteLeaves, Construct.suiteStmts_cons, lowerSuites, List.append_eq_nil_iff, List.append_eq_nil_iff, ih,
      Construct.blockLeaves_eq_nil_iff, lowerBlock_stmts, List.map_eq_nil_iff]

/-- A compound statement is opened up unless there is nothing in its suites. -/
theorem lower_compound (suites : List (List Construct)) :
    lower (.compound suites) =
      if (suiteLeaves suites).isEmpty then .other
      else .compound (lowerSuites (Construct.suiteStmts suites)) := by
  have hempty : (suiteLeaves suites).isEmpty = (lowerSuites (Construct.suiteStmts suites)).isEmpty := by
    rw [Bool.eq_iff_iff, List.isEmpty_iff, List.isEmpty_iff, suiteLeaves_eq_nil_iff]
  rw [hempty]
  rfl

/-- The outline of a statement without suites is not compound. -/
theorem flatten_lowerStmt {stmt : Source.Stmt} (h : stmt.isSimple = true) :
    flatten (lowerStmt stmt) = [lowerStmt stmt] := by
  cases stmt with
  | compound => cases h
  | classDef | functionDef | importNames | importFrom | expression | assign | other => rfl

mutual

/-- **Opened up, the outline of a construct is the outlines of its leaves.** -/
theorem flatten_lower (c : Construct) : flatten (lower c) = (leaves c).map lower := by
  cases c with
  | compound suites =>
    have hsuites := flattenAll_lowerSuites suites
    rw [lower_compound, leaves]
    split
    · rename_i hempty
      rw [List.map_singleton, lower_compound, if_pos hempty]
      rfl
    · exact hsuites
  | simple stmt h => exact flatten_lowerStmt h
  | joined | classDef | functionDef => rfl

theorem flattenAll_lowerBlock (cs : List Construct) :
    flattenAll (lowerBlock (Construct.stmts cs)) = (blockLeaves cs).map lower := by
  cases cs with
  | nil => rfl
  | cons c cs =>
    rw [Construct.stmts_cons, lowerBlock, flattenAll, blockLeaves, List.map_append, flattenAll_lowerBlock cs]
    exact congrArg (· ++ _) (flatten_lower c)

theorem flattenAll_lowerSuites (suites : List (List Construct)) :
    flattenAll (lowerSuites (Construct.suiteStmts suites)) = (suiteLeaves suites).map lower := by
  cases suites with
  | nil => rfl
  | cons suite suites =>
    rw [Construct.suiteStmts_cons, lowerSuites, flattenAll_append, suiteLeaves, List.map_append,
      flattenAll_lowerBlock suite, flattenAll_lowerSuites suites]

end

/-! ## What comes on top -/

/-- Whether a construct is not opened up. -/
def IsLeaf : Construct → Prop
  | .compound suites => suiteLeaves suites = []
  | _ => True

mutual

theorem isLeaf_of_mem_leaves {leaf : Construct} (c : Construct) (h : leaf ∈ leaves c) : IsLeaf leaf := by
  cases c with
  | compound suites =>
    have hsuites : leaf ∈ suiteLeaves suites → IsLeaf leaf := isLeaf_of_mem_suiteLeaves suites
    rw [leaves] at h
    split at h
    · rename_i hempty
      rw [List.mem_singleton.1 h]
      exact List.isEmpty_iff.1 hempty
    · exact hsuites h
  | simple | joined | classDef | functionDef =>
    rw [List.mem_singleton.1 h]
    trivial

theorem isLeaf_of_mem_blockLeaves {leaf : Construct} (cs : List Construct) (h : leaf ∈ blockLeaves cs) :
    IsLeaf leaf := by
  cases cs with
  | nil => cases h
  | cons c cs => exact (List.mem_append.1 h).elim (isLeaf_of_mem_leaves c) (isLeaf_of_mem_blockLeaves cs)

theorem isLeaf_of_mem_suiteLeaves {leaf : Construct} (suites : List (List Construct))
    (h : leaf ∈ suiteLeaves suites) : IsLeaf leaf := by
  cases suites with
  | nil => cases h
  | cons suite suites =>
    exact (List.mem_append.1 h).elim (isLeaf_of_mem_blockLeaves suite) (isLeaf_of_mem_suiteLeaves suites)

end

/-- A leaf that is neither a definition nor a statement leaves no trace of its own. -/
theorem lower_of_not_written {c leaf : Construct} (hleaf : leaf ∈ leaves c) (h : leaf.isWritten = false) :
    lower leaf = .other := by
  have hopened := isLeaf_of_mem_leaves c hleaf
  cases leaf with
  | joined => rfl
  | compound suites =>
    have hnil : suiteLeaves suites = [] := hopened
    rw [lower_compound, hnil]
    rfl
  | simple | classDef | functionDef => cases h

/-- Whether a statement of an outline defines, imports or assigns something. -/
def Node.binds : Node → Bool
  | .other | .compound _ => false
  | _ => true

/-- Nothing that binds a name is lost, added or moved. -/
theorem filter_flatten_lower (c : Construct) :
    (flatten (lower c)).filter Node.binds = (c.written.map lower).filter Node.binds := by
  rw [flatten_lower, Construct.written, List.filter_map, List.filter_map, List.filter_filter]
  refine congrArg (List.map lower) (List.filter_congr fun leaf hleaf => ?_)
  cases hwritten : leaf.isWritten with
  | true => rw [Bool.and_true]
  | false =>
    rw [Bool.and_false, Function.comp_apply, lower_of_not_written hleaf hwritten]
    rfl

theorem flatten_lower_eq_iff (c : Construct) :
    flatten (lower c) = c.written.map lower ↔ ∀ leaf ∈ leaves c, leaf.isWritten = true := by
  rw [flatten_lower, Construct.written]
  constructor
  · intro h
    have hlength := congrArg List.length h
    rw [List.length_map, List.length_map] at hlength
    exact List.length_filter_eq_length_iff.1 hlength.symm
  · intro h
    rw [List.filter_eq_self.2 h]

/-! ## Source texts -/

/-- **Every nested statement is kept.** What is read of a source text is written in it as a sequence of constructs.
The outline of each construct anywhere inside, opened up, is the outlines of its leaves, once each and in the order of
the source. These are the definitions and the statements in its suites, unless there are joined line ends between them
or compound statements with nothing in their suites; what binds a name is kept in any case. -/
theorem nested_statements_kept {source : String} {nodes : List Node} (h : outline? source = .ok nodes) :
    ∃ cs rest, Source.Grammar.Block 0 false (Source.Lexer.tokens source) cs rest
      ∧ Source.lexeme? rest = .finish
      ∧ nodes = cs.map lower
      ∧ ∀ c ∈ blockWithin cs,
        flatten (lower c) = (leaves c).map lower
          ∧ (flatten (lower c)).filter Node.binds = (c.written.map lower).filter Node.binds
          ∧ (flatten (lower c) = c.written.map lower ↔ ∀ leaf ∈ leaves c, leaf.isWritten = true) := by
  rw [outline?] at h
  cases hmodule : Source.readModule source with
  | error line =>
    rw [hmodule] at h
    cases h
  | ok read =>
    rw [hmodule] at h
    cases h
    obtain ⟨cs, rest, rfl, hcs, hrest⟩ := Source.readModule_sound hmodule
    refine ⟨cs, rest, hcs, hrest, lowerBlock_stmts cs, fun c _ => ?_⟩
    exact ⟨flatten_lower c, filter_flatten_lower c, flatten_lower_eq_iff c⟩

/-- The names that a statement binds, its suites aside. -/
def boundNames : Node → List String
  | .classDef head _ => [head.name]
  | .functionDef head _ => [head.name]
  | .importNames names | .importFrom _ names _ => names.map Source.ImportedName.name
  | .assign targets => targets
  | .compound _ | .other => []

/-- Compound statements inside each other. -/
def threeKinds : String :=
  "if a:\n    for b in c: import d\nelif e:\n    try:\n        class F: pass\n    finally: g = 1\n" ++
  "else:\n    match h:\n        case 1: i = 1\n"

theorem nested_statements_kept_threeKinds : ∃ nodes, outline? threeKinds = .ok nodes
    ∧ (nodes.map boundNames = [[]]
      ∧ (flattenAll nodes).map boundNames = [["d"], ["F"], ["g"], ["i"]])
    ∧ ∃ cs rest, Source.Grammar.Block 0 false (Source.Lexer.tokens threeKinds) cs rest
      ∧ Source.lexeme? rest = .finish
      ∧ nodes = cs.map lower
      ∧ ∀ c ∈ blockWithin cs,
        flatten (lower c) = (leaves c).map lower
          ∧ (flatten (lower c)).filter Node.binds = (c.written.map lower).filter Node.binds
          ∧ (flatten (lower c) = c.written.map lower ↔ ∀ leaf ∈ leaves c, leaf.isWritten = true) := by
  have hnames : (outline? threeKinds).map (fun nodes => (nodes.map boundNames, (flattenAll nodes).map boundNames)) =
      .ok ([[]], [["d"], ["F"], ["g"], ["i"]]) := by decide +kernel
  cases h : outline? threeKinds with
  | error line =>
    rw [h] at hnames
    cases hnames
  | ok nodes =>
    rw [h] at hnames
    exact ⟨nodes, rfl, Prod.mk.inj (Except.ok.inj hnames), nested_statements_kept h⟩

/-- A joined line end between two statements stands for a third one. -/
theorem joined_line_end_counts :
    (outline? "if a:\n    x = 1; y = 2\n").map (fun nodes => (flattenAll nodes).map boundNames) = .ok [["x"], ["y"]]
      ∧ (outline? "if a:\n    x = 1; \\\n    y = 2\n").map (fun nodes => (flattenAll nodes).map boundNames) =
        .ok [["x"], [], ["y"]] := by
  constructor
  · decide +kernel
  · decide +kernel

end Outline

end ClassCli
