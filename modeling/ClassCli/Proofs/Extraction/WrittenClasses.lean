import ClassCli.Proofs.Extraction.Signature

/-!
# Classes as they are written

The functions of a class stand in its body and in the compound statements there, wherever those nest.
Lowering keeps them in their order, each with its own signature, so that the commands of a class can be
told from what is written.

* **`bodyFunctions_lowerBlock`** — the functions of a lowered body are those that are written there.
* **`fromClass_of_modulesOf`** — every command comes from the last definition of its name.
-/

namespace ClassCli

namespace Source

mutual

/-- The functions that a statement of a class body defines. -/
def functionsOf : Stmt → List Definition
  | .functionDef decorators name params returns body line =>
    [⟨decorators, name, params, returns, body, line⟩]
  | .compound suites => functionsOfSuites suites
  | _ => []

/-- The functions that the statements of a class body define. -/
def functionsOfBlock : List Stmt → List Definition
  | [] => []
  | stmt :: stmts => functionsOf stmt ++ functionsOfBlock stmts

/-- The functions that the suites of a compound statement define. -/
def functionsOfSuites : List (List Stmt) → List Definition
  | [] => []
  | suite :: suites => functionsOfBlock suite ++ functionsOfSuites suites

end

/-- A class as it is written. -/
structure ClassDefinition where
  decorators : List Expr
  name : String
  body : List Stmt
  line : Nat
  deriving Repr, Inhabited

namespace ClassDefinition

/-- The statement. -/
def stmt (c : ClassDefinition) : Stmt := .classDef c.decorators c.name c.body c.line

/-- The functions of a class, also those that are defined again. -/
def functions (c : ClassDefinition) : List Definition := functionsOfBlock c.body

/-- The method that a name stands for: the last one that is defined. -/
def method? (c : ClassDefinition) (name : String) : Option Definition :=
  c.functions.findRev? (·.name == name)

theorem mem_functions_of_method? {c : ClassDefinition} {name : String} {d : Definition}
    (h : c.method? name = some d) : d ∈ c.functions ∧ d.name = name := by
  rw [method?, List.findRev?_eq_find?_reverse] at h
  have hname := List.find?_some h
  exact ⟨List.mem_reverse.mp (List.mem_of_find?_eq_some h), beq_iff_eq.mp hname⟩

end ClassDefinition

end Source

namespace Outline

open Source (ClassDefinition Definition functionsOf functionsOfBlock functionsOfSuites)

/-- What a class shows of itself. -/
def headOf (c : ClassDefinition) : ClassHead where
  name := c.name
  decorators := c.decorators.map lowerExpr
  docstring := docstring? c.body
  line := c.line

/-- **A written class** becomes a class of the outline, statement by statement. -/
theorem lowerStmt_classStmt (c : ClassDefinition) :
    lowerStmt c.stmt = .classDef (headOf c) (lowerBlock c.body) := rfl

/-! ## Functions of a lowered body -/

theorem functionsIn_append (around before front back : List Node) :
    functionsIn around before (front ++ back)
      = functionsIn around before front ++ functionsIn around (before ++ front) back := by
  rw [functionsIn, placesAll_append, List.filterMap_append]
  rfl

theorem functionsIn_compoundOf {around : List Node} (before body : List Node)
    {functions : List Function}
    (h : functionsIn (around ++ [.compound body]) before body = functions) :
    functionsIn around before [compoundOf body] = functions := by
  cases body with
  | nil =>
    rw [← h]
    exact functionsIn_cons rfl []
  | cons node rest =>
    show functionsIn around before [.compound (node :: rest)] = functions
    rw [functionsIn_compound, h]
    exact List.append_nil functions

-- The recursion is that of lowering; what stands around is compound, or else there are no functions.
mutual

theorem functionsIn_lowerStmt {around : List Node} (h : around.all Node.isCompound = true)
    (before : List Node) :
    ∀ stmt, functionsIn around before [lowerStmt stmt] = (functionsOf stmt).map outlineOf
  | .functionDef decorators name params returns body line => by
    let d : Definition := ⟨decorators, name, params, returns, body, line⟩
    have hself : Place.method? ⟨around, before, lowerStmt d.stmt⟩ = some (outlineOf d) := by
      rw [lowerStmt_stmt, Place.method?, h]
      rfl
    show functionsIn around before [lowerStmt d.stmt] = [outlineOf d]
    rw [functionsIn_cons rfl, hself]
    rfl
  | .compound suites => by
    have hinside : (around ++ [Node.compound (lowerSuites suites)]).all Node.isCompound = true := by
      rw [List.all_append, h]
      rfl
    exact functionsIn_compoundOf before _ (functionsIn_lowerSuites hinside before suites)
  | .classDef .. | .importNames _ | .importFrom .. | .expression _ | .assign _ | .other =>
    functionsIn_cons rfl []

theorem functionsIn_lowerBlock {around : List Node} (h : around.all Node.isCompound = true)
    (before : List Node) :
    ∀ stmts, functionsIn around before (lowerBlock stmts) = (functionsOfBlock stmts).map outlineOf
  | [] => rfl
  | stmt :: stmts => by
    show functionsIn around before ([lowerStmt stmt] ++ lowerBlock stmts) = _
    rw [functionsIn_append, functionsIn_lowerStmt h before stmt, functionsIn_lowerBlock h _ stmts,
      functionsOfBlock, List.map_append]

theorem functionsIn_lowerSuites {around : List Node} (h : around.all Node.isCompound = true)
    (before : List Node) :
    ∀ suites, functionsIn around before (lowerSuites suites) = (functionsOfSuites suites).map outlineOf
  | [] => rfl
  | suite :: suites => by
    rw [lowerSuites, functionsIn_append, functionsIn_lowerBlock h before suite,
      functionsIn_lowerSuites h _ suites, functionsOfSuites, List.map_append]

end

/-- **The functions of a lowered body** are those that are written there, in the same order. -/
theorem bodyFunctions_lowerBlock (c : ClassDefinition) :
    bodyFunctions (lowerBlock c.body) = c.functions.map outlineOf :=
  functionsIn_lowerBlock rfl [] c.body

end Outline

namespace Extraction

open Interface (Module)
open Marker (Bindings)
open Outline (headOf lowerBlock lowerStmt outlineOf)
open Source (ClassDefinition)

/-! ## Commands of a written class -/

/-- The names of the public methods of a class, in the order in which they come first. -/
def publicMethods (c : ClassDefinition) : List String :=
  (c.functions.map (·.name)).eraseDups.filter isPublic

theorem publicNames_lowerBlock (c : ClassDefinition) :
    publicNames (lowerBlock c.body) = publicMethods c := by
  rw [publicNames, Outline.bodyFunctions_lowerBlock, List.map_map]
  rfl

theorem lastFunction?_lowerBlock (c : ClassDefinition) (name : String) :
    lastFunction? (lowerBlock c.body) name = (c.method? name).map outlineOf := by
  rw [lastFunction?, Outline.bodyFunctions_lowerBlock, ClassDefinition.method?,
    List.findRev?_eq_find?_reverse, List.findRev?_eq_find?_reverse, ← List.map_reverse, List.find?_map]
  rfl

/-- A module holds what a written class says. -/
structure FromClass (settings : Settings) (scope : Bindings) (c : ClassDefinition) (m : Module) : Prop where
  name : m.name = c.name
  commandNames : m.commands.map (·.name) = publicMethods c
  /-- Each command is built from the method that its name stands for. -/
  command : ∀ command ∈ m.commands, ∃ d, c.method? command.name = some d
    ∧ command = commandFrom settings scope (outlineOf d)

/-- **The module of a written class**, wherever the class stands. -/
theorem fromClass_of_modulesOf {settings : Settings} {location : String} {scope after : Bindings}
    {c : ClassDefinition} {m : Module}
    (h : (modulesOf settings location scope (lowerStmt c.stmt)).run.value = .ok ([m], after)) :
    FromClass settings scope c m := by
  rw [Outline.lowerStmt_classStmt, modulesOf, Attempt.value_bind_eq_ok] at h
  obtain ⟨found, hfound, h⟩ := h
  cases h
  obtain ⟨-, rfl⟩ := moduleOf_eq_ok_iff.mp hfound
  refine ⟨?_, ?_, ?_⟩
  · exact (foldl_withMethod_heading settings scope _ (heading settings location (headOf c))).1
  · rw [map_name_commands_moduleFrom, publicNames_lowerBlock]
  · intro command hcommand
    obtain ⟨f, hf, hfrom⟩ := command_of_mem_moduleFrom _ _ _ _ _ command hcommand
    rw [lastFunction?_lowerBlock] at hf
    obtain ⟨d, hd, rfl⟩ := Option.map_eq_some_iff.mp hf
    exact ⟨d, hd, hfrom⟩

end Extraction

end ClassCli
