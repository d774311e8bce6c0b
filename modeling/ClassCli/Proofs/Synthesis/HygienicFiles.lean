import ClassCli.Proofs.Synthesis.FileLayout
import ClassCli.Proofs.Synthesis.Hygiene

/-!
# Hygienic files

The entry point has a single function whose names depend on the program: it calls the classes and keeps their
objects in a variable of its own. With what is known about the setup file this tells exactly which programs
have two hygienic files. Names meet in three ways: a command can be named so that its variable is the function
for configurations, a module so that its variable is the function that registers another one, and a class
like the variable for objects.

* **`clean_executeTree_iff`** — the function that calls the chosen method.
* **`Apart`** — no names meet.
* **`generate_hygienic_iff`** — exactly when both files are hygienic.
-/

namespace ClassCli.Synthesis

open Interface (Collection Command Module)
open Code (Does Effect Performs Statement assigned? assignedCall assignedNames calls callsName
  does_assignedCall does_functionCall does_of_not_mem header tokens)
open Code.Statement (textsAll)
open Text (lowerString)

/-! ## Functions of the entry point -/

/-- What the function that builds the parser does. -/
def createEffects : List Effect :=
  [.binds "parser" "ArgumentParser", .binds "parser" "setup_parser", .nothing]

theorem performs_createTree (collection : Collection) : Performs (createTree collection) createEffects := by
  have hfunction : tokens "parser = ArgumentParser(description=" = [.name "parser", .symbol '=',
      .name "ArgumentParser", .symbol '(', .name "description", .symbol '='] := by decide +kernel
  have hclose : Code.Reads ")".toList [.symbol ')'] := Code.Reads.plain (by decide)
  have hquoted := Code.reads_quoted "parser = ArgumentParser(description=" (by decide)
    (doublePercents (description collection)) hclose (Code.endsName_cons (by decide) _)
  have htokens := hquoted.tokens_eq
  rw [hfunction, ← String.append_assoc] at htokens
  have hparser : Does ("parser = ArgumentParser(description=" ++ help (description collection) ++ ")")
      (.binds "parser" "ArgumentParser") := does_functionCall htokens (by simp)
  have hcall : "parser = setup_parser(parser)" = assignedCall "parser" "setup_parser" "parser" := by decide
  have hsetup : Does "parser = setup_parser(parser)" (.binds "parser" "setup_parser") := by
    rw [hcall]
    exact does_assignedCall (by decide) (by decide) (by decide)
  exact .cons hparser (.cons hsetup (.cons does_return .nil))

theorem clean_createTree (globals : List String) (collection : Collection) :
    Clean globals (createTree collection) := by
  rw [clean_iff (performs_createTree collection)]
  intro name htarget _
  have hparser : name = "parser" := by simpa [createEffects, Effect.binds, Effect.nothing] using htarget
  rw [hparser]
  decide

theorem clean_mainTree (globals : List String) : Clean globals mainTree := by
  have hcalls : ∀ name ∈ assignedNames mainTree, callsName mainTree name = false := by decide +kernel
  exact fun name hname _ => hcalls name hname

theorem does_caseHead (value : String) : Does (Code.caseHead (.str value)) .nothing := by
  have hcolon : Code.Reads ":".toList [.symbol ':'] := Code.Reads.plain (by decide)
  have hcase : tokens "case " = [.name "case"] := by decide +kernel
  have hall := Code.reads_quoted "case " (by decide) value hcolon (Code.endsName_cons (by decide) _)
  have htokens : tokens (Code.caseHead (.str value)) = [.name "case", .string value, .symbol ':'] := by
    rw [Code.caseHead, Code.Pattern.shown, String.append_assoc, hall.tokens_eq, hcase]
    rfl
  refine does_of_not_mem ?_ (by simp [htokens])
  rw [assigned?, htokens]

/-- The lines of a match over strings. -/
theorem mem_texts_matchTree {α : Type} (subject : String) (key : α → String) (suite : α → List Statement)
    (items : List α) {text : String} :
    text ∈ (Code.matchTree subject (Code.caseTrees
        (items.map (fun item => (.str (key item), suite item)) ++ [(.anything, refusal)]))).texts
      ↔ text = "match " ++ subject ++ ":"
        ∨ (∃ item ∈ items, text = Code.caseHead (.str (key item)) ∨ text ∈ textsAll (suite item))
        ∨ text = Code.caseHead .anything ∨ text = "return False" := by
  have hcase : ∀ pattern suite, text ∈ (Code.caseTree pattern suite).texts
      ↔ text = Code.caseHead pattern ∨ text ∈ textsAll suite := fun _ _ => List.mem_cons
  have hrefusal : text ∈ textsAll refusal ↔ text = "return False" := List.mem_singleton
  rw [Code.matchTree, Statement.texts, List.mem_cons, Statement.mem_textsAll, Code.caseTrees, List.map_append,
    List.map_map]
  simp only [List.mem_append, or_and_right, exists_or, List.mem_map, Function.comp_apply,
    exists_exists_and_eq_and, List.map_cons, List.map_nil, List.mem_singleton, exists_eq_left, hcase, hrefusal]

/-- The lines of the match over the commands of a module. -/
theorem mem_texts_commandTree {m : Module} {text : String} :
    text ∈ (commandTree m).texts
      ↔ text = "match " ++ "args['command']" ++ ":"
        ∨ (∃ command ∈ m.commands, text = Code.caseHead (.str (commandName command.name))
          ∨ text ∈ [construction m, invocation command])
        ∨ text = Code.caseHead .anything ∨ text = "return False" :=
  mem_texts_matchTree _ _ (armSuite m) _

/-- The lines of the match over modules. -/
theorem mem_texts_moduleTree {modules : List Module} {text : String} :
    text ∈ (moduleTree modules).texts
      ↔ text = "match " ++ "args['module']" ++ ":"
        ∨ (∃ m ∈ modules, text = Code.caseHead (.str m.name) ∨ text ∈ textsAll [commandTree m])
        ∨ text = Code.caseHead .anything ∨ text = "return False" :=
  mem_texts_matchTree _ _ (fun m => [commandTree m]) _

theorem does_fallback : Does (Code.caseHead .anything) .nothing ∧ Does "return False" .nothing
    ∧ Does "return True" .nothing :=
  ⟨does_of_not_mem (by decide +kernel) (by decide +kernel),
    does_of_not_mem (by decide +kernel) (by decide +kernel),
    does_of_not_mem (by decide +kernel) (by decide +kernel)⟩

/-- In the match over the commands of a module only the lines of commands do something. -/
theorem does_or_mem_commandTree {m : Module} {text : String} (ht : text ∈ (commandTree m).texts) :
    Does text .nothing ∨ ∃ command ∈ m.commands, text = construction m ∨ text = invocation command := by
  rcases mem_texts_commandTree.mp ht with rfl | ⟨command, hc, rfl | hmem⟩ | rfl | rfl
  · exact Or.inl (does_of_not_mem (by decide +kernel) (by decide +kernel))
  · exact Or.inl (does_caseHead _)
  · exact Or.inr ⟨command, hc, by simpa using hmem⟩
  · exact Or.inl does_fallback.1
  · exact Or.inl does_fallback.2.1

/-- In `execute` only the lines of commands do something. -/
theorem does_or_mem_executeTree {modules : List Module} {text : String}
    (ht : text ∈ textsAll (executeTree ⟨modules⟩).suite) :
    Does text .nothing
      ∨ ∃ m ∈ modules, ∃ command ∈ m.commands, text = construction m ∨ text = invocation command := by
  obtain ⟨tree, htree, ht⟩ := Statement.mem_textsAll.mp ht
  rcases List.mem_append.mp htree with htree | htree
  · match modules, htree with
    | [m], htree =>
      obtain rfl := List.mem_singleton.mp htree
      refine (does_or_mem_commandTree ht).imp_right fun hcommand => ?_
      exact ⟨m, List.mem_cons_self, hcommand⟩
    | first :: second :: rest, htree =>
      obtain rfl := List.mem_singleton.mp htree
      rcases mem_texts_moduleTree.mp ht with rfl | ⟨m, hm, rfl | hmem⟩ | rfl | rfl
      · exact Or.inl (does_of_not_mem (by decide +kernel) (by decide +kernel))
      · exact Or.inl (does_caseHead _)
      · obtain ⟨other, ho, ht⟩ := Statement.mem_textsAll.mp hmem
        obtain rfl := List.mem_singleton.mp ho
        exact (does_or_mem_commandTree ht).imp_right fun hcommand => ⟨m, hm, hcommand⟩
      · exact Or.inl does_fallback.1
      · exact Or.inl does_fallback.2.1
  · obtain rfl := List.mem_singleton.mp htree
    obtain rfl := List.mem_singleton.mp ht
    exact Or.inl does_fallback.2.2

/-- The class of every command is called in `execute`. -/
theorem construction_mem_executeTree {modules : List Module} {m : Module} (hm : m ∈ modules)
    (hc : m.commands ≠ []) : construction m ∈ textsAll (executeTree ⟨modules⟩).suite := by
  obtain ⟨command, hcommand⟩ := List.exists_mem_of_ne_nil _ hc
  have hmem : construction m ∈ (commandTree m).texts :=
    mem_texts_commandTree.mpr (Or.inr (Or.inl ⟨command, hcommand, Or.inr List.mem_cons_self⟩))
  refine Statement.mem_textsAll.mpr ?_
  match modules, hm with
  | [_], hm =>
    obtain rfl := List.mem_singleton.mp hm
    exact ⟨_, List.mem_cons_self, hmem⟩
  | first :: second :: rest, hm =>
    have hinner := Statement.mem_textsAll.mpr ⟨_, List.mem_singleton_self _, hmem⟩
    exact ⟨moduleTree (first :: second :: rest), List.mem_cons_self,
      mem_texts_moduleTree.mpr (Or.inr (Or.inl ⟨m, hm, Or.inr hinner⟩))⟩

theorem assigned?_construction {m : Module} (h : Named m) : assigned? (construction m) = some "module" := by
  rw [assigned?, tokens_construction h]
  rfl

section Invocation

variable {m : Module} (h : Named m) (hk : Keyed m) {command : Command} (hc : command ∈ m.commands)
include h hk hc

theorem assigned?_invocation : assigned? (invocation command) = none := by
  have hname := h.commandName command hc
  cases hf : command.flag? Marker.hydraName with
  | none =>
    have hplain : usesHydra command = false := by rw [usesHydra, hf, Option.isSome_none]
    rw [assigned?, tokens_invocation hplain hname (h.commandArgs command hc)]
    rfl
  | some flag =>
    have hkeys := hk command hc flag (List.mem_of_find?_eq_some hf)
    obtain ⟨lines, htokens, -⟩ := exists_tokens_wrapper hf hname hkeys
    rw [assigned?, htokens]
    rfl

theorem calls_module_invocation : calls "module" (tokens (invocation command)) = false := by
  have hname := h.commandName command hc
  cases hf : command.flag? Marker.hydraName with
  | none =>
    have hplain : usesHydra command = false := by rw [usesHydra, hf, Option.isSome_none]
    exact calls_invocation hplain hname (h.commandArgs command hc) "module"
  | some flag =>
    have hkeys := hk command hc flag (List.mem_of_find?_eq_some hf)
    exact calls_wrapper_eq_false hf hname hkeys (by decide) (by decide)

end Invocation

/-- **The function that calls the chosen method is clean** unless a class is named like its variable. -/
theorem clean_executeTree_iff {modules : List Module} (h : ∀ m ∈ modules, Named m)
    (hk : ∀ m ∈ modules, Keyed m) {globals : List String} (hg : ∀ m ∈ modules, m.name ∈ globals) :
    Clean globals (executeTree ⟨modules⟩) ↔ ∀ m ∈ modules, m.name = "module" → m.commands = [] := by
  constructor
  · intro hclean m hm hname
    by_contra hc
    have hmem := construction_mem_executeTree hm hc
    have hnamed := h m hm
    have hassigned : "module" ∈ assignedNames (executeTree ⟨modules⟩) :=
      List.mem_filterMap.mpr ⟨_, hmem, assigned?_construction hnamed⟩
    have hcalled : callsName (executeTree ⟨modules⟩) "module" = true := by
      refine List.any_eq_true.mpr ⟨_, hmem, ?_⟩
      rw [calls_construction hnamed, hname]
      decide
    rw [hclean "module" hassigned (hname ▸ hg m hm)] at hcalled
    cases hcalled
  · intro hapart name hassigned _
    -- only constructions assign, and always to the same variable
    obtain rfl : name = "module" := by
      obtain ⟨text, ht, hassigned⟩ := List.mem_filterMap.mp hassigned
      rcases does_or_mem_executeTree ht with hnothing | ⟨m, hm, command, hc, rfl | rfl⟩
      · rw [hnothing.assigned] at hassigned
        cases hassigned
      · rw [assigned?_construction (h m hm)] at hassigned
        exact (Option.some.inj hassigned).symm
      · rw [assigned?_invocation (h m hm) (hk m hm) hc] at hassigned
        cases hassigned
    rw [← Bool.not_eq_true, callsName, List.any_eq_true]
    rintro ⟨text, ht, hcalls⟩
    rcases does_or_mem_executeTree ht with hnothing | ⟨m, hm, command, hc, rfl | rfl⟩
    · exact absurd ((hnothing.calls "module").mp hcalls) (by decide)
    · rw [calls_construction (h m hm), beq_iff_eq] at hcalls
      rw [hapart m hm hcalls] at hc
      exact absurd hc List.not_mem_nil
    · rw [calls_module_invocation (h m hm) (hk m hm) hc] at hcalls
      cases hcalls

/-! ## The entry point -/

/-- Every class is a global. -/
theorem moduleName_mem_globalNames (surroundings : Surroundings) (parserFile : String)
    {collection : Collection} {m : Module} (hm : m ∈ collection.modules)
    (h : Text.isIdentifier m.name.toList = true) :
    m.name ∈ globalNames (entryPoint surroundings parserFile collection).value.lines := by
  have himport : classImport surroundings.projectRoot m
      ∈ entryImportTexts surroundings parserFile collection := by
    rw [entryImportTexts, classImports]
    refine List.mem_append_left _ (List.mem_append_left _ ((mem_foldl_withNew _ _).mpr (Or.inr ?_)))
    exact List.mem_map_of_mem hm
  have hopens : isImport (classImport surroundings.projectRoot m) = true := by
    rw [classImport, String.append_assoc, String.append_assoc]
    exact isImport_from _
  have hsplit : classImport surroundings.projectRoot m
      = "from " ++ modulePath surroundings.projectRoot m.location ++ " import" ++ (" " ++ m.name) := by
    have hback : " import " = " import" ++ " " := by decide
    rw [classImport, hback]
    simp only [String.append_assoc]
  have hspace : ' ' ∉ m.name.toList := not_mem_identifier (by decide) h
  have hname : importedName? (classImport surroundings.projectRoot m) = some m.name := by
    rw [hsplit] at hopens ⊢
    exact importedName?_append hopens hspace
  exact mem_globalNames_of_import ((mem_topTexts_entry hopens).mpr himport) hopens hname

theorem isImport_of_mem_entryImportTexts {surroundings : Surroundings} {parserFile : String}
    {collection : Collection} :
    ∀ text ∈ entryImportTexts surroundings parserFile collection, isImport text = true := by
  intro text ht
  simp only [entryImportTexts, classImports, List.mem_append, mem_foldl_withNew, List.mem_singleton,
    List.mem_map] at ht
  rcases ht with ((rfl | ⟨m, -, rfl⟩) | rfl) | ht
  · decide
  · rw [classImport, String.append_assoc, String.append_assoc]
    exact isImport_from _
  · rw [setupImport, String.append_assoc]
    exact isImport_from _
  · split at ht
    · obtain rfl := List.mem_singleton.mp ht
      rw [wrapperImport, String.append_assoc]
      exact isImport_from _
    · exact absurd ht List.not_mem_nil

/-- The functions of the entry point. -/
theorem filter_isFunction_entryTrees (surroundings : Surroundings) (parserFile : String)
    (collection : Collection) :
    (entryTrees surroundings parserFile collection).filter isFunction
      = [executeTree collection, createTree collection, mainTree] := by
  have himports : ((entryImportTexts surroundings parserFile collection).map Statement.leaf).filter isFunction
      = [] := filter_isFunction_imports isImport_of_mem_entryImportTexts
  have hexecute : isFunction (executeTree collection) = true := isFunction_node_header _ _ _ _
  have hcreate : isFunction (createTree collection) = true := isFunction_node_header _ _ _ _
  have hmain : isFunction mainTree = true := isFunction_node_header _ _ _ _
  have hguard : isFunction guardTree = false := by decide +kernel
  rw [entryTrees, List.filter_append, himports, List.nil_append]
  simp [hexecute, hcreate, hmain, hguard]

/-- **Exactly when the entry point is hygienic.** -/
theorem hygienic_entryPoint_iff (surroundings : Surroundings) (parserFile : String) {collection : Collection}
    (h : ∀ m ∈ collection.modules, Named m) (hk : ∀ m ∈ collection.modules, Keyed m) :
    Hygienic (entryPoint surroundings parserFile collection).value.lines
      ↔ ∀ m ∈ collection.modules, m.name = "module" → m.commands = [] := by
  have hexecute := clean_executeTree_iff h hk fun m hm =>
    moduleName_mem_globalNames surroundings parserFile hm (h m hm).name
  rw [Hygienic, nest_entryPoint, filter_isFunction_entryTrees, List.forall_mem_cons, List.forall_mem_cons,
    List.forall_mem_singleton, and_iff_left ⟨clean_createTree _ _, clean_mainTree _⟩]
  exact hexecute

/-! ## Both files -/

/-- The names of a collection do not meet. -/
structure Apart (collection : Collection) : Prop where
  /-- No command stands for the function for configurations where that is called. -/
  command : ∀ m ∈ collection.modules, (∃ command ∈ m.commands, usesHydra command = true) →
    ∀ command ∈ m.commands, lowerString command.name ≠ "add_hydra"
  /-- No module stands for the function that registers the commands of another one. -/
  registration : ∀ m ∈ collection.modules, ∀ other ∈ collection.modules,
    lowerString m.name ≠ "setup_" ++ lowerString other.name
  /-- No class with commands is named like the variable that holds its object. -/
  construction : ∀ m ∈ collection.modules, m.name = "module" → m.commands = []

instance (collection : Collection) : Decidable (Apart collection) :=
  decidable_of_iff
    (((∀ m ∈ collection.modules, (∃ command ∈ m.commands, usesHydra command = true) →
          ∀ command ∈ m.commands, lowerString command.name ≠ "add_hydra")
        ∧ ∀ m ∈ collection.modules, ∀ other ∈ collection.modules,
          lowerString m.name ≠ "setup_" ++ lowerString other.name)
      ∧ ∀ m ∈ collection.modules, m.name = "module" → m.commands = [])
    ⟨fun h => ⟨h.1.1, h.1.2, h.2⟩, fun h => ⟨⟨h.command, h.registration⟩, h.construction⟩⟩

/-- What the two files say is hygienic exactly if no names meet. -/
theorem hygienic_files_iff {surroundings : Surroundings} {collection : Collection} {parserFile : String}
    {files : Generated} (h : (generate surroundings collection parserFile).run.value = .ok files)
    (hn : ∀ m ∈ collection.modules, Named m) (hk : ∀ m ∈ collection.modules, Keyed m) :
    (Hygienic files.setupParser.lines
        ↔ (∀ m ∈ collection.modules, (∃ command ∈ m.commands, usesHydra command = true) →
            ∀ command ∈ m.commands, lowerString command.name ≠ "add_hydra")
          ∧ ∀ m ∈ collection.modules, ∀ other ∈ collection.modules,
            lowerString m.name ≠ "setup_" ++ lowerString other.name)
      ∧ (Hygienic files.entryPoint.lines
        ↔ ∀ m ∈ collection.modules, m.name = "module" → m.commands = []) := by
  obtain ⟨hsetup, hentry⟩ := generate_eq_ok h
  obtain ⟨-, hlines⟩ := setupParser_eq_ok hsetup
  rw [hlines, ← hentry]
  exact ⟨hygienic_plainSetupFile_iff _ hn, hygienic_entryPoint_iff _ _ hn hk⟩

/-- **Exactly when both generated files are hygienic.** The names of the collection are identifiers; then
no function of either file assigns to a global that it calls unless names meet in one of three ways. -/
theorem generate_hygienic_iff {surroundings : Surroundings} {collection : Collection} {parserFile : String}
    {files : Generated} (h : (generate surroundings collection parserFile).run.value = .ok files)
    (hn : ∀ m ∈ collection.modules, Named m) (hk : ∀ m ∈ collection.modules, Keyed m) :
    Hygienic files.setupParser.lines ∧ Hygienic files.entryPoint.lines ↔ Apart collection := by
  obtain ⟨hsetup, hentry⟩ := hygienic_files_iff h hn hk
  rw [hsetup, hentry]
  exact ⟨fun h => ⟨h.1.1, h.1.2, h.2⟩, fun h => ⟨⟨h.command, h.registration⟩, h.construction⟩⟩

/-- Two classes whose names do not meet. -/
theorem generate_hygienic_iff_trainerAndReport :
    ∃ files,
      (generate ⟨"/project", "argsmith"⟩ trainerAndReport "utils/parser.py").run.value = .ok files
        ∧ (∀ m ∈ trainerAndReport.modules, Named m) ∧ (∀ m ∈ trainerAndReport.modules, Keyed m)
        ∧ Apart trainerAndReport
        ∧ Hygienic files.setupParser.lines ∧ Hygienic files.entryPoint.lines := by
  obtain ⟨files, h⟩ := exists_generate_eq_ok ⟨"/project", "argsmith"⟩ trainerAndReport "utils/parser.py"
    (by decide +kernel)
  have hn : ∀ m ∈ trainerAndReport.modules, Named m := by decide +kernel
  have hk : ∀ m ∈ trainerAndReport.modules, Keyed m := by decide +kernel
  have hapart : Apart trainerAndReport := by decide +kernel
  exact ⟨files, h, hn, hk, hapart, (generate_hygienic_iff h hn hk).mpr hapart⟩

/-- A class that is named like the variable for its object. -/
def importer : Collection :=
  ⟨[{ name := "module", location := "importer.py", commands := [{ name := "load" }] }]⟩

/-- A class that is named like the function that registers the other one. -/
def bench : Collection :=
  ⟨[{ name := "Bench", location := "bench.py", commands := [{ name := "run" }] },
    { name := "Setup_bench", location := "setup_bench.py", commands := [{ name := "prepare" }] }]⟩

/-- A class with a command that takes a configuration and one that is named like the function for them. -/
def sweep : Collection :=
  ⟨[{ name := "Sweep", location := "sweep.py",
      commands := [{ name := "fit", flags := [{ name := Marker.hydraName }] }, { name := "add_hydra" }] }]⟩

/-- Identifiers are not enough to keep names apart: each of the three ways for them to meet makes a file in
which a function assigns to a global that it calls. -/
theorem not_hygienic :
    (∃ files, (generate ⟨"/project", "argsmith"⟩ importer "cli/utils/parser.py").run.value = .ok files
        ∧ (∀ m ∈ importer.modules, Named m ∧ Keyed m) ∧ ¬Hygienic files.entryPoint.lines)
      ∧ (∃ files, (generate ⟨"/project", "argsmith"⟩ bench "cli/utils/parser.py").run.value = .ok files
        ∧ (∀ m ∈ bench.modules, Named m ∧ Keyed m) ∧ ¬Hygienic files.setupParser.lines)
      ∧ ∃ files, (generate ⟨"/project", "argsmith"⟩ sweep "cli/utils/parser.py").run.value = .ok files
        ∧ (∀ m ∈ sweep.modules, Named m ∧ Keyed m) ∧ ¬Hygienic files.setupParser.lines := by
  obtain ⟨first, hfirst⟩ := exists_generate_eq_ok ⟨"/project", "argsmith"⟩ importer "cli/utils/parser.py"
    (by decide +kernel)
  obtain ⟨second, hsecond⟩ := exists_generate_eq_ok ⟨"/project", "argsmith"⟩ bench "cli/utils/parser.py"
    (by decide +kernel)
  obtain ⟨third, hthird⟩ := exists_generate_eq_ok ⟨"/project", "argsmith"⟩ sweep "cli/utils/parser.py"
    (by decide +kernel)
  have himporter : ∀ m ∈ importer.modules, Named m ∧ Keyed m := by decide +kernel
  have hbench : ∀ m ∈ bench.modules, Named m ∧ Keyed m := by decide +kernel
  have hsweep : ∀ m ∈ sweep.modules, Named m ∧ Keyed m := by decide +kernel
  refine ⟨⟨first, hfirst, himporter, ?_⟩, ⟨second, hsecond, hbench, ?_⟩, third, hthird, hsweep, ?_⟩
  · rw [(hygienic_files_iff hfirst (fun m hm => (himporter m hm).1) fun m hm => (himporter m hm).2).2]
    decide +kernel
  · rw [(hygienic_files_iff hsecond (fun m hm => (hbench m hm).1) fun m hm => (hbench m hm).2).1]
    decide +kernel
  · rw [(hygienic_files_iff hthird (fun m hm => (hsweep m hm).1) fun m hm => (hsweep m hm).2).1]
    decide +kernel

end ClassCli.Synthesis
