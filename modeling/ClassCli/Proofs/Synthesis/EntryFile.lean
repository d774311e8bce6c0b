import ClassCli.Proofs.Code.Running
import ClassCli.Proofs.Synthesis.Names
import ClassCli.Synthesis

/-!
# The entry point, part by part

The matches of the entry point are built case by case, and every suite is moved to the place that it is
put into. What comes out are written statements: the dispatch is one tree, with the suites of modules
and commands below each other.

* **`dispatch_lines`** — the dispatch is written as one statement.
* **`entryPoint_lines`** — the file is the plain sequence of its parts.
* **`nest_entryPoint`** — the file read as statements.
* **`body?_execute`** — the body of its function `execute`.
-/

namespace ClassCli.Synthesis

open Interface (Collection Command Module)
open Code (Block Case Definition Flush Line Match Pattern Statement callArgs caseTree caseTrees casesOf
  functionLines gap header matchTree nest)
open Code.Statement (heightAll linesAll SolidAll)

/-! ## The dispatch as statements -/

/-- The suite of a command: the object is constructed and the method called. -/
def armSuite (m : Module) (command : Command) : List Statement :=
  [.leaf (construction m), .leaf (invocation command)]

/-- The suite for whatever no other case is for. -/
def refusal : List Statement := [.leaf "return False"]

/-- The cases of the commands of a module. -/
def commandCases (m : Module) : List (Pattern × List Statement) :=
  m.commands.map (fun c => (.str (commandName c.name), armSuite m c)) ++ [(.anything, refusal)]

/-- The match over the commands of a module. -/
def commandTree (m : Module) : Statement := matchTree "args['command']" (caseTrees (commandCases m))

/-- The cases of modules. -/
def moduleCases (modules : List Module) : List (Pattern × List Statement) :=
  modules.map (fun m => (.str m.name, [commandTree m])) ++ [(.anything, refusal)]

/-- The match over modules. -/
def moduleTree (modules : List Module) : Statement :=
  matchTree "args['module']" (caseTrees (moduleCases modules))

/-- The body of `execute` before its last line. -/
def dispatchTrees : List Module → List Statement
  | [] => []
  | [m] => [commandTree m]
  | modules => [moduleTree modules]

theorem construction_ne_empty (m : Module) : construction m ≠ "" :=
  append_ne_empty_right _ (by decide)

theorem invocation_ne_empty (command : Command) : invocation command ≠ "" := by
  unfold invocation
  split
  · exact append_ne_empty_right _ (by decide)
  · exact append_ne_empty_right _ (by decide)

theorem armSuite_solid (m : Module) (command : Command) : SolidAll (armSuite m command) := by
  simp [armSuite, construction_ne_empty, invocation_ne_empty]

theorem refusal_solid : SolidAll refusal := by
  simp [refusal]

theorem commandCases_solid (m : Module) : ∀ c ∈ commandCases m, SolidAll c.2 := by
  intro c hc
  rcases List.mem_append.mp hc with hc | hc
  · obtain ⟨command, -, rfl⟩ := List.mem_map.mp hc
    exact armSuite_solid m command
  · obtain rfl := List.mem_singleton.mp hc
    exact refusal_solid

theorem commandTree_solid (m : Module) : (commandTree m).Solid :=
  Code.matchTree_solid _ (Code.caseTrees_solid (commandCases_solid m))

theorem moduleCases_solid (modules : List Module) : ∀ c ∈ moduleCases modules, SolidAll c.2 := by
  intro c hc
  rcases List.mem_append.mp hc with hc | hc
  · obtain ⟨m, -, rfl⟩ := List.mem_map.mp hc
    exact ⟨commandTree_solid m, trivial⟩
  · obtain rfl := List.mem_singleton.mp hc
    exact refusal_solid

theorem dispatchTrees_solid (modules : List Module) : SolidAll (dispatchTrees modules) := by
  match modules with
  | [] => trivial
  | [m] => exact ⟨commandTree_solid m, trivial⟩
  | first :: second :: rest =>
    exact ⟨Code.matchTree_solid _ (Code.caseTrees_solid (moduleCases_solid _)), trivial⟩

/-! The statements of the dispatch take up a handful of levels, however many modules and commands there are. -/

theorem commandCases_height (m : Module) : ∀ c ∈ commandCases m, heightAll c.2 ≤ 1 := by
  intro c hc
  rcases List.mem_append.mp hc with hc | hc
  · obtain ⟨command, -, rfl⟩ := List.mem_map.mp hc
    simp [armSuite]
  · obtain rfl := List.mem_singleton.mp hc
    simp [refusal]

theorem commandTree_height (m : Module) : (commandTree m).height ≤ 3 :=
  Nat.succ_le_succ (Code.heightAll_caseTrees_le (commandCases_height m))

theorem moduleCases_height (modules : List Module) : ∀ c ∈ moduleCases modules, heightAll c.2 ≤ 3 := by
  intro c hc
  rcases List.mem_append.mp hc with hc | hc
  · obtain ⟨m, -, rfl⟩ := List.mem_map.mp hc
    simpa using commandTree_height m
  · obtain rfl := List.mem_singleton.mp hc
    simp [refusal]

theorem moduleTree_height (modules : List Module) : (moduleTree modules).height ≤ 5 :=
  Nat.succ_le_succ (Code.heightAll_caseTrees_le (moduleCases_height modules))

theorem dispatchTrees_height (modules : List Module) : heightAll (dispatchTrees modules) ≤ 5 := by
  match modules with
  | [] => exact Nat.zero_le 5
  | [m] =>
    have hm := commandTree_height m
    simp only [dispatchTrees, Statement.heightAll_cons, Statement.heightAll_nil]
    omega
  | first :: second :: rest => simpa [dispatchTrees] using moduleTree_height (first :: second :: rest)

theorem commandMatch_lines (m : Module) :
    (commandMatch m).block.lines = linesAll 0 [commandTree m] := by
  have hcases : m.commands.map (commandCase m) ++ [nothingMatched] = casesOf (commandCases m) := by
    simp only [casesOf, commandCases, List.map_append, List.map_map]
    congr 1
    refine List.map_congr_left ?_
    intro command _
    rw [commandCase, Block.ofTexts_lines]
    exact Case.of_linesAll _ 0 (armSuite_solid m command) (by simp [UInt64.size])
  have hfits : ∀ c ∈ commandCases m, 1 + heightAll c.2 < UInt64.size := fun c hc =>
    Nat.lt_of_le_of_lt (Nat.add_le_add_left (commandCases_height m c hc) 1) (by decide)
  rw [commandMatch, hcases]
  exact Match.block_lines _ _ (commandCases_solid m) hfits

theorem moduleMatch_lines (modules : List Module) :
    (moduleMatch modules).block.lines = linesAll 0 [moduleTree modules] := by
  have hcases : modules.map (fun m => Case.of (.str m.name) (commandMatch m).block.lines)
      ++ [nothingMatched] = casesOf (moduleCases modules) := by
    simp only [casesOf, moduleCases, List.map_append, List.map_map]
    congr 1
    refine List.map_congr_left ?_
    intro m _
    have hheight := commandTree_height m
    rw [commandMatch_lines]
    refine Case.of_linesAll _ 0 ⟨commandTree_solid m, trivial⟩ ?_
    simp only [Statement.heightAll_cons, Statement.heightAll_nil, UInt64.size]
    omega
  have hfits : ∀ c ∈ moduleCases modules, 1 + heightAll c.2 < UInt64.size := fun c hc =>
    Nat.lt_of_le_of_lt (Nat.add_le_add_left (moduleCases_height modules c hc) 1) (by decide)
  rw [moduleMatch, hcases]
  exact Match.block_lines _ _ (moduleCases_solid modules) hfits

/-- **The dispatch is written as one statement**, if there is anything to dispatch to. -/
theorem dispatch_lines (collection : Collection) :
    (dispatch collection).value = linesAll 0 (dispatchTrees collection.modules) := by
  unfold dispatch
  match collection.modules with
  | [] => rfl
  | [m] => exact commandMatch_lines m
  | first :: second :: rest => exact moduleMatch_lines (first :: second :: rest)

/-! ## The imports -/

/-- Adds a text unless it is there already. -/
def withNew (texts : List String) (text : String) : List String :=
  if text ∈ texts then texts else texts ++ [text]

theorem mem_foldl_withNew {text : String} (added : List String) :
    ∀ texts : List String, text ∈ added.foldl withNew texts ↔ text ∈ texts ∨ text ∈ added := by
  induction added with
  | nil => simp
  | cons first rest ih =>
    intro texts
    rw [List.foldl_cons, ih, withNew]
    split
    · rename_i hmem
      constructor
      · rintro (h | h)
        · exact Or.inl h
        · exact Or.inr (List.mem_cons_of_mem first h)
      · rintro (h | h)
        · exact Or.inl h
        · rcases List.mem_cons.mp h with rfl | h
          · exact Or.inl hmem
          · exact Or.inr h
    · simp only [List.mem_append, List.mem_cons, List.not_mem_nil, or_false, or_assoc]

/-- The imports of the argument parser and of the classes, each once. -/
def classImports (projectRoot : String) (collection : Collection) : List String :=
  (collection.modules.map (classImport projectRoot)).foldl withNew [argparseImport]

/-- The import of the setup function. -/
def setupImport (projectRoot parserFile : String) : String :=
  "from " ++ modulePath projectRoot parserFile ++ " import setup_parser"

/-- The import of the wrapper around calls of methods that take a configuration. -/
def wrapperImport (runtime : String) : String := "from " ++ runtime ++ ".api.hydra import hydra_wrapper"

/-- The imports of the entry point in their order. -/
def entryImportTexts (surroundings : Surroundings) (parserFile : String) (collection : Collection) :
    List String :=
  classImports surroundings.projectRoot collection ++ [setupImport surroundings.projectRoot parserFile]
    ++ if anyHydra collection then [wrapperImport surroundings.runtime] else []

theorem foldl_addNew (added : List String) :
    ∀ texts : List String,
      added.foldl addNew (Block.ofTexts texts) = Block.ofTexts (added.foldl withNew texts) := by
  induction added with
  | nil =>
    intro texts
    rfl
  | cons text rest ih =>
    intro texts
    have hcontains : (Block.ofTexts texts).containsText text = decide (text ∈ texts) := by
      rw [Block.containsText, Block.ofTexts_lines, Statement.linesAll_leaves]
      simp [List.any_map, Function.comp_def, List.any_beq']
    have hstep : addNew (Block.ofTexts texts) text = Block.ofTexts (withNew texts text) := by
      unfold addNew withNew
      rw [hcontains]
      by_cases hmem : text ∈ texts
      · simp [hmem]
      · simp [hmem, Block.ofTexts, Block.appendLines]
    rw [List.foldl_cons, List.foldl_cons, hstep]
    exact ih (withNew texts text)

/-- The imports are written one below the other. -/
theorem entryImports_eq (surroundings : Surroundings) (parserFile : String) (collection : Collection) :
    entryImports surroundings.runtime surroundings.projectRoot parserFile collection
      = Block.ofTexts (entryImportTexts surroundings parserFile collection) := by
  have hstart : Block.single argparseImport = Block.ofTexts [argparseImport] := rfl
  unfold entryImports
  rw [hstart, foldl_addNew]
  unfold entryImportTexts classImports
  split
  · simp [Block.ofTexts, Block.appendLines, setupImport, wrapperImport]
  · simp [Block.ofTexts, Block.appendLines, setupImport]

/-! ## The parts of the file -/

/-- The function that calls the chosen method. -/
def executeTree (collection : Collection) : Statement :=
  .node (header "execute" [("args", "dict")] (some "bool"))
    (dispatchTrees collection.modules ++ [.leaf "return True"])

/-- The function that builds the parser. -/
def createTree (collection : Collection) : Statement :=
  .node (header "create_parser" [] parserType)
    [.leaf ("parser = ArgumentParser(description=" ++ help (description collection) ++ ")"),
      .leaf "parser = setup_parser(parser)", .leaf "return parser"]

/-- The function that reads the command line and calls `execute`. -/
def mainTree : Statement :=
  .node (header "main" [] none)
    [.leaf "parser = create_parser()", .leaf "args = parser.parse_args()",
      .leaf "args_dict = vars(args)",
      .node "if not execute(args_dict):" [.leaf "parser.print_usage()"]]

/-- The call of the main function if the file is run as a program. -/
def guardTree : Statement := .node "if __name__ == '__main__':" [.leaf "main()"]

/-- The entry point as statements. -/
def entryTrees (surroundings : Surroundings) (parserFile : String) (collection : Collection) :
    List Statement :=
  (entryImportTexts surroundings parserFile collection).map .leaf
    ++ [executeTree collection, createTree collection, mainTree, guardTree]

theorem executeTree_solid (collection : Collection) : (executeTree collection).Solid := by
  refine ⟨Code.header_ne_empty _ _ _, ?_⟩
  simp [dispatchTrees_solid]

theorem executeTree_height (collection : Collection) : (executeTree collection).height ≤ 6 := by
  have hheight := dispatchTrees_height collection.modules
  simp only [executeTree, Statement.height_node, Statement.heightAll_append, Statement.heightAll_cons,
    Statement.heightAll_nil, Statement.height_leaf]
  omega

theorem createTree_solid (collection : Collection) : (createTree collection).Solid := by
  refine ⟨Code.header_ne_empty _ _ _, ?_⟩
  simp

theorem mainTree_solid : mainTree.Solid := by
  refine ⟨Code.header_ne_empty _ _ _, ?_⟩
  simp

theorem guardTree_solid : guardTree.Solid := by
  simp [guardTree]

theorem entryImportTexts_ne_empty (surroundings : Surroundings) (parserFile : String)
    (collection : Collection) : "" ∉ entryImportTexts surroundings parserFile collection := by
  simp only [entryImportTexts, classImports, List.mem_append, mem_foldl_withNew, List.mem_singleton,
    List.mem_map, not_or]
  refine ⟨⟨⟨by decide, ?_⟩, ?_⟩, ?_⟩
  · rintro ⟨m, -, h⟩
    simp [classImport] at h
  · simp [setupImport]
  · split <;> simp [wrapperImport]

/-! ## Assembly -/

/-- The lines of `execute` stand below the imports. -/
theorem execute_value (surroundings : Surroundings) (parserFile : String) (collection : Collection) :
    (execute surroundings.runtime surroundings.projectRoot parserFile collection).value
      = ⟨linesAll 0 ((entryImportTexts surroundings parserFile collection).map .leaf) ++ gap
          ++ linesAll 0 [executeTree collection], 0⟩ := by
  show ((((Definition.start "execute" [("args", "dict")] (some "bool")).block.append
    (dispatch collection).value).appendLine "return True").insert
      (entryImports surroundings.runtime surroundings.projectRoot parserFile collection).separate.lines
      0).setCursor 0 = _
  have hflush : Flush (linesAll 0 ((entryImportTexts surroundings parserFile collection).map .leaf)
      ++ gap) :=
    (Code.flush_leaves (entryImportTexts_ne_empty _ _ _)).append Code.flush_gap
  have hbody : (((Definition.start "execute" [("args", "dict")] (some "bool")).block.append
      (dispatch collection).value).appendLine "return True")
        = ⟨linesAll 0 [executeTree collection], 1⟩ := by
    have hheight := dispatchTrees_height collection.modules
    rw [(Definition.Shows.start "execute" [("args", "dict")] (some "bool")).block, dispatch_lines,
      Block.append_linesAll _ 0 (dispatchTrees_solid _) (by simp only [UInt64.size]; omega)]
    simp [Block.appendLine, executeTree, functionLines, Statement.lines_node, Statement.linesAll_append]
  rw [hbody, entryImports_eq, Block.separate_eq, Block.ofTexts_lines]
  rw [Block.insert_top hflush (Code.firstLevel?_linesAll 0 [] (executeTree_solid collection))]
  simp [Block.setCursor, List.append_assoc]

/-- What stands above the main function. -/
def upperLines (surroundings : Surroundings) (parserFile : String) (collection : Collection) :
    List Line :=
  linesAll 0 ((entryImportTexts surroundings parserFile collection).map .leaf) ++ gap
    ++ linesAll 0 [executeTree collection] ++ gap ++ linesAll 0 [createTree collection] ++ gap

theorem flush_upperLines (surroundings : Surroundings) (parserFile : String)
    (collection : Collection) : Flush (upperLines surroundings parserFile collection) := by
  have himports := Code.flush_leaves (entryImportTexts_ne_empty surroundings parserFile collection)
  have hheight : heightAll [executeTree collection] ≤ 6 := by
    simpa using executeTree_height collection
  have hexecute : Flush (linesAll 0 [executeTree collection]) :=
    Code.flush_linesAll ⟨executeTree_solid collection, trivial⟩ (Nat.le_trans hheight (by decide))
  have hcreate : Flush (linesAll 0 [createTree collection]) :=
    Code.flush_linesAll ⟨createTree_solid collection, trivial⟩ (by simp [createTree, UInt64.size])
  exact ((((himports.append Code.flush_gap).append hexecute).append Code.flush_gap).append hcreate).append
    Code.flush_gap

/-- **The lines of the entry point** are the plain sequence of its parts. -/
theorem entryPoint_lines (surroundings : Surroundings) (parserFile : String) (collection : Collection) :
    (entryPoint surroundings parserFile collection).value.lines
      = linesAll 0 ((entryImportTexts surroundings parserFile collection).map .leaf) ++ gap
          ++ linesAll 0 [executeTree collection] ++ gap ++ linesAll 0 [createTree collection] ++ gap
          ++ linesAll 0 [mainTree] ++ gap ++ linesAll 0 [guardTree] := by
  show ((mainFunction.insert (((execute surroundings.runtime surroundings.projectRoot parserFile
    collection).value.separate.append (createParser collection).lines).separate.lines) 0).separate.append
      mainGuard.lines).lines = _
  have hcreate : (createParser collection).lines = linesAll 0 [createTree collection] := by
    rw [createParser]
    simp only [Definition.appendLines, Block.appendLines_eq, createTree, Statement.linesAll_cons,
      Statement.linesAll_nil, Statement.lines_node, Statement.lines_leaf]
    rfl
  have hupper : ((execute surroundings.runtime surroundings.projectRoot parserFile
      collection).value.separate.append (createParser collection).lines).separate.lines
        = upperLines surroundings parserFile collection := by
    have hsolid : SolidAll [createTree collection] := ⟨createTree_solid collection, trivial⟩
    rw [execute_value, hcreate, Block.separate_eq ⟨_, 0⟩,
      Block.append_linesAll _ 0 hsolid (by simp [createTree, UInt64.size]), Block.separate_eq]
    rfl
  have hmain : mainFunction = ⟨linesAll 0 [mainTree], 0⟩ := rfl
  have hguard : mainGuard.lines = linesAll 0 [guardTree] := rfl
  have hsolid : SolidAll [guardTree] := ⟨guardTree_solid, trivial⟩
  have hmainLevel := Code.firstLevel?_linesAll 0 [] mainTree_solid
  rw [hupper, hmain, Block.insert_top (flush_upperLines surroundings parserFile collection) hmainLevel,
    Block.separate_eq, hguard, Block.append_linesAll _ 0 hsolid (by simp [guardTree, UInt64.size])]
  simp only [upperLines]

theorem entryTrees_solid (surroundings : Surroundings) (parserFile : String) (collection : Collection) :
    SolidAll (entryTrees surroundings parserFile collection) := by
  rw [entryTrees, Statement.solidAll_append]
  exact ⟨Code.solidAll_leaves (entryImportTexts_ne_empty _ _ _), executeTree_solid collection,
    createTree_solid collection, mainTree_solid, guardTree_solid, trivial⟩

/-- The lines of the entry point that are not blank are written statements. -/
theorem filter_entryPoint (surroundings : Surroundings) (parserFile : String) (collection : Collection) :
    (entryPoint surroundings parserFile collection).value.lines.filter (!·.isBlank)
      = linesAll 0 (entryTrees surroundings parserFile collection) := by
  have hsolid := entryTrees_solid surroundings parserFile collection
  rw [entryTrees, Statement.solidAll_append] at hsolid
  obtain ⟨himports, hexecute, hcreate, hmain, hguard, -⟩ := hsolid
  have hone : ∀ tree : Statement, tree.Solid →
      (linesAll 0 [tree]).filter (!·.isBlank) = linesAll 0 [tree] :=
    fun tree h => Code.filter_linesAll 0 ⟨h, trivial⟩
  rw [entryPoint_lines]
  simp only [List.filter_append, Code.filter_gap, List.append_nil, Code.filter_linesAll 0 himports,
    hone _ hexecute, hone _ hcreate, hone _ hmain, hone _ hguard]
  simp only [← Statement.linesAll_append, entryTrees, List.append_assoc, List.cons_append, List.nil_append]

/-- **The entry point read as statements**: the imports and the four parts. -/
theorem nest_entryPoint (surroundings : Surroundings) (parserFile : String) (collection : Collection) :
    nest (entryPoint surroundings parserFile collection).value.lines
      = entryTrees surroundings parserFile collection :=
  Code.nest_of_filter 0 (entryTrees_solid surroundings parserFile collection)
    (filter_entryPoint surroundings parserFile collection)

/-- **The body of `execute`** is read off the entry point. -/
theorem body?_execute (surroundings : Surroundings) (parserFile : String) (collection : Collection) :
    Code.body? "execute" (entryPoint surroundings parserFile collection).value.lines
      = some (executeTree collection).suite := by
  have hguard : Code.opens "execute" guardTree.text = false := by decide +kernel
  have hmain : Code.opens "execute" mainTree.text = false := by decide +kernel
  have hcreate : Code.opens "execute" (createTree collection).text = false := by
    rw [createTree, Statement.text]
    decide +kernel
  have hexecute : Code.opens "execute" (executeTree collection).text = true := by
    rw [executeTree, Statement.text]
    decide +kernel
  rw [Code.body?, nest_entryPoint]
  simp [entryTrees, hguard, hmain, hcreate, hexecute]

end ClassCli.Synthesis
