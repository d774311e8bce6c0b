import ClassCli.Proofs.Extraction.Sources
import ClassCli.Proofs.Synthesis.Dispatch
import ClassCli.Proofs.Synthesis.EntryReading
import ClassCli.Proofs.Synthesis.SetupReading

/-!
# Keys of the dispatch

The entry point finds the chosen module and the chosen command in the parsed arguments, under two keys of
their own. The values of arguments stand there too, under the names of parameters, and a value that is
stored later replaces an earlier one. Nothing keeps a parameter from having the name of such a key.

* **`dispatchKeys`** — the keys that `execute` chooses by.
* **`registeredDestinations`** — the names under which the parsers store arguments.
* **`mem_dispatchKeys_entryPoint`** — `command`, and `module` if there are several modules.
* **`dispatchKeys_kept_iff`** — exactly when no argument is stored under a key of the dispatch.
-/

namespace ClassCli.Synthesis

open Extraction (SourceFile each_arguments_of_extractSources extractSources methodsIn)
open Interface (Argument Collection Command Module)
open Code (Line Pattern Statement call caseHead caseTree caseTrees clause nest)

/-! ## Reading -/

mutual

/-- The keys whose values a statement chooses by. -/
def choiceKeys : Statement → List String
  | .node text suite =>
    match clause text with
    | .choice key => key :: choiceKeysAll suite
    | _ => choiceKeysAll suite

/-- The keys whose values statements choose by. -/
def choiceKeysAll : List Statement → List String
  | [] => []
  | tree :: rest => choiceKeys tree ++ choiceKeysAll rest

end

/-- The keys whose values `execute` chooses by. -/
def dispatchKeys (lines : List Line) : List String := choiceKeysAll (executeBody lines)

/-- The names under which the helpers of a setup file store arguments. -/
def registeredDestinations (lines : List Line) : List String :=
  ((nest lines).filter isHelper).flatMap fun helper =>
    helper.suite.filterMap (declaredDestination? ·.text)

/-! ## Keys of the entry point -/

theorem choiceKeysAll_append (front back : List Statement) :
    choiceKeysAll (front ++ back) = choiceKeysAll front ++ choiceKeysAll back := by
  induction front with
  | nil => rfl
  | cons tree rest ih =>
    rw [List.cons_append, choiceKeysAll, choiceKeysAll, ih, List.append_assoc]

/-- A step chooses by nothing. -/
theorem choiceKeys_leaf {text : String} (h : clause text = .step) : choiceKeys (.leaf text) = [] := by
  rw [Statement.leaf, choiceKeys, h]
  rfl

theorem choiceKeys_answer {text : String} {value : Bool} (h : clause text = .answer value) :
    choiceKeys (.leaf text) = [] := by
  rw [Statement.leaf, choiceKeys, h]
  rfl

/-- A match chooses by its own key and by those of its cases. -/
theorem choiceKeys_matchTree {subject key : String}
    (h : clause ("match " ++ subject ++ ":") = .choice key) (cases : List Statement) :
    choiceKeys (Code.matchTree subject cases) = key :: choiceKeysAll cases := by
  rw [Code.matchTree, choiceKeys, h]

/-- A case chooses by the keys of its suite. -/
theorem choiceKeys_caseTree {pattern : Pattern} {expected : Option String}
    (h : clause (caseHead pattern) = .case expected) (suite : List Statement) :
    choiceKeys (caseTree pattern suite) = choiceKeysAll suite := by
  rw [caseTree, choiceKeys, h]

theorem choiceKeysAll_refusal : choiceKeysAll refusal = [] := by
  have hclause : clause "return False" = .answer false := by decide +kernel
  rw [refusal, choiceKeysAll, choiceKeys_answer hclause]
  rfl

/-- The keys of the cases for strings, behind which the refusal stands. -/
theorem choiceKeysAll_caseTrees {α : Type} (key : α → String) (suite : α → List Statement)
    (items : List α) :
    choiceKeysAll (caseTrees (items.map (fun item => (.str (key item), suite item))
        ++ [(.anything, refusal)]))
      = items.flatMap fun item => choiceKeysAll (suite item) := by
  induction items with
  | nil =>
    show choiceKeys (caseTree .anything refusal) ++ [] = []
    rw [choiceKeys_caseTree Code.clause_caseHead_anything, choiceKeysAll_refusal]
    rfl
  | cons item rest ih =>
    have hcase := choiceKeys_caseTree (Code.clause_caseHead_str (key item)) (suite item)
    rw [List.flatMap_cons, ← ih, ← hcase]
    rfl

theorem choiceKeysAll_armSuite (m : Module) (command : Command) :
    choiceKeysAll (armSuite m command) = [] := by
  rw [armSuite, choiceKeysAll, choiceKeysAll, choiceKeys_leaf (clause_construction m),
    choiceKeys_leaf (clause_invocation command)]
  rfl

/-- The match over the commands of a module chooses by the command alone. -/
theorem choiceKeys_commandTree (m : Module) : choiceKeys (commandTree m) = ["command"] := by
  have hclause : clause ("match " ++ "args['command']" ++ ":") = .choice "command" := by decide +kernel
  have harms : (m.commands.flatMap fun command => choiceKeysAll (armSuite m command)) = [] := by
    apply List.flatMap_eq_nil_iff.mpr
    intro command _
    exact choiceKeysAll_armSuite m command
  rw [commandTree, choiceKeys_matchTree hclause, commandCases, choiceKeysAll_caseTrees, harms]

/-- The match over modules chooses by the module and then, in each of them, by the command. -/
theorem choiceKeys_moduleTree (modules : List Module) :
    choiceKeys (moduleTree modules) = "module" :: modules.map fun _ => "command" := by
  have hclause : clause ("match " ++ "args['module']" ++ ":") = .choice "module" := by decide +kernel
  have hone : ∀ m : Module, choiceKeysAll [commandTree m] = ["command"] := by
    intro m
    rw [choiceKeysAll, choiceKeys_commandTree]
    rfl
  have hcases : (modules.flatMap fun m => choiceKeysAll [commandTree m])
      = modules.map fun _ => "command" := by
    rw [funext hone, List.map_eq_flatMap]
  rw [moduleTree, choiceKeys_matchTree hclause, moduleCases, choiceKeysAll_caseTrees, hcases]

/-- The keys that are reserved for the dispatch. -/
def reservedKeys : List Module → List String
  | [] => []
  | [_] => ["command"]
  | _ => ["module", "command"]

theorem mem_choiceKeysAll_dispatchTrees (modules : List Module) (key : String) :
    key ∈ choiceKeysAll (dispatchTrees modules) ↔ key ∈ reservedKeys modules := by
  match modules with
  | [] => rfl
  | [m] =>
    show key ∈ choiceKeys (commandTree m) ++ [] ↔ key ∈ ["command"]
    rw [choiceKeys_commandTree, List.append_nil]
  | first :: second :: rest =>
    show key ∈ choiceKeys (moduleTree (first :: second :: rest)) ++ [] ↔ key ∈ ["module", "command"]
    rw [choiceKeys_moduleTree, List.append_nil, List.map_const', List.mem_cons, List.mem_replicate]
    simp

/-- **The keys of the dispatch** are `command` if there is a class, and `module` if there are several. -/
theorem mem_dispatchKeys_entryPoint (surroundings : Surroundings) (parserFile : String)
    (collection : Collection) (key : String) :
    key ∈ dispatchKeys (entryPoint surroundings parserFile collection).value.lines
      ↔ key ∈ reservedKeys collection.modules := by
  have hclause : clause "return True" = .answer true := by decide +kernel
  rw [dispatchKeys, executeBody, body?_execute, Option.getD_some, executeTree, Statement.suite,
    choiceKeysAll_append, choiceKeysAll, choiceKeys_answer hclause]
  show key ∈ choiceKeysAll (dispatchTrees collection.modules) ++ [] ↔ _
  rw [List.append_nil]
  exact mem_choiceKeysAll_dispatchTrees collection.modules key

/-! ## Destinations of the setup file -/

theorem isFunction_of_isHelper {tree : Statement} (h : isHelper tree = true) :
    isFunction tree = true := by
  obtain ⟨rest, hrest⟩ := List.isPrefixOf_iff_prefix.mp h
  rw [isFunction, firstWord, ← hrest]
  rfl

/-- Every helper belongs to a command. -/
theorem filter_isHelper_setupTrees (runtime : String) (collection : Collection) :
    (setupTrees runtime collection).filter isHelper
      = collection.modules.flatMap fun m => m.commands.map (helperTree m) := by
  have hfunctions : (setupTrees runtime collection).filter isHelper
      = ((setupTrees runtime collection).filter isFunction).filter isHelper := by
    rw [List.filter_filter]
    apply List.filter_congr
    intro tree _
    cases h : isHelper tree with
    | false => rfl
    | true => rw [isFunction_of_isHelper h, Bool.and_self]
  have hmodule : ∀ m : Module, (moduleTrees m).filter isHelper = m.commands.map (helperTree m) := by
    intro m
    have hhelpers : (m.commands.map (helperTree m)).filter isHelper = m.commands.map (helperTree m) := by
      apply List.filter_eq_self.mpr
      rw [List.forall_mem_map]
      intro command _
      exact isHelper_helperTree m command
    rw [moduleTrees, List.filter_append, hhelpers, List.filter_singleton, isHelper_registrationTree]
    exact List.append_nil _
  rw [hfunctions, filter_isFunction_setupTrees, List.filter_append, List.filter_flatMap, funext hmodule,
    List.filter_singleton, isHelper_topTree]
  exact List.append_nil _

/-- **The helpers store the arguments of commands**, each followed by those of the constructor. -/
theorem mem_registeredDestinations_plainSetupFile (runtime : String) (collection : Collection)
    (destination : String) :
    destination ∈ registeredDestinations (plainSetupFile runtime collection)
      ↔ ∃ m ∈ collection.modules, ∃ command ∈ m.commands, ∃ arg ∈ command.args ++ m.args,
          arg.destination = destination := by
  rw [registeredDestinations, nest_plainSetupFile, filter_isHelper_setupTrees, List.mem_flatMap]
  constructor
  · rintro ⟨helper, hhelper, hdestination⟩
    obtain ⟨m, hm, hhelper⟩ := List.mem_flatMap.mp hhelper
    obtain ⟨command, hcommand, rfl⟩ := List.mem_map.mp hhelper
    rw [destinations_helperTree, ← List.map_append] at hdestination
    exact ⟨m, hm, command, hcommand, List.mem_map.mp hdestination⟩
  · rintro ⟨m, hm, command, hcommand, harg⟩
    refine ⟨helperTree m command, ?_, ?_⟩
    · exact List.mem_flatMap.mpr ⟨m, hm, List.mem_map_of_mem hcommand⟩
    · rw [destinations_helperTree, ← List.map_append]
      exact List.mem_map.mpr harg

/-! ## Generated programs -/

/-- Every argument in a collection is stored under the name of a parameter of some method. -/
theorem exists_param_of_extractSources {settings : Extraction.Settings} {sources : List SourceFile}
    {collection : Collection} (h : (extractSources settings sources).run.value = .ok collection)
    {m : Module} (hm : m ∈ collection.modules) {command : Command} (hcommand : command ∈ m.commands)
    {arg : Argument} (harg : arg ∈ command.args ++ m.args) :
    ∃ source ∈ sources, ∃ f ∈ methodsIn source, ∃ param ∈ f.explicitParams,
      arg.destination = param.name := by
  have hparams := each_arguments_of_extractSources
    (P := fun args => ∀ arg ∈ args, ∃ source ∈ sources, ∃ f ∈ methodsIn source,
      ∃ param ∈ f.explicitParams, arg.destination = param.name)
    (List.forall_mem_nil _)
    (fun source hsource f hf attached arg harg =>
      ⟨source, hsource, f, hf, Extraction.exists_param_of_mem_arguments harg⟩) h
  obtain ⟨hconstructor, hcommands⟩ := hparams m hm
  rcases List.mem_append.mp harg with harg | harg
  · exact hcommands command hcommand arg harg
  · exact hconstructor arg harg

/-- **Exactly when the keys of the dispatch are kept.** No argument is stored under a key that `execute`
chooses by exactly if no argument of a command or of its constructor has a reserved name. This is so if
no parameter in the source texts has one. -/
theorem dispatchKeys_kept_iff {settings : Extraction.Settings} {sources : List SourceFile}
    {collection : Collection} {surroundings : Surroundings} {parserFile : String} {files : Generated}
    (hextract : (extractSources settings sources).run.value = .ok collection)
    (hgenerate : (generate surroundings collection parserFile).run.value = .ok files) :
    (∀ key, key ∈ dispatchKeys files.entryPoint.lines ↔ key ∈ reservedKeys collection.modules)
    ∧ ((∀ key ∈ dispatchKeys files.entryPoint.lines,
          key ∉ registeredDestinations files.setupParser.lines)
        ↔ ∀ m ∈ collection.modules, ∀ command ∈ m.commands, ∀ arg ∈ command.args ++ m.args,
            arg.destination ∉ reservedKeys collection.modules)
    ∧ ((∀ source ∈ sources, ∀ f ∈ methodsIn source, ∀ param ∈ f.explicitParams,
          param.name ∉ reservedKeys collection.modules) →
        ∀ key ∈ dispatchKeys files.entryPoint.lines,
          key ∉ registeredDestinations files.setupParser.lines) := by
  obtain ⟨hsetup, hentry⟩ := generate_eq_ok hgenerate
  obtain ⟨-, hlines⟩ := setupParser_eq_ok hsetup
  have hkeys : ∀ key, key ∈ dispatchKeys files.entryPoint.lines
      ↔ key ∈ reservedKeys collection.modules := by
    rw [← hentry]
    exact mem_dispatchKeys_entryPoint surroundings parserFile collection
  have hkept : (∀ key ∈ dispatchKeys files.entryPoint.lines,
        key ∉ registeredDestinations files.setupParser.lines)
      ↔ ∀ m ∈ collection.modules, ∀ command ∈ m.commands, ∀ arg ∈ command.args ++ m.args,
          arg.destination ∉ reservedKeys collection.modules := by
    rw [hlines]
    constructor
    · intro h m hm command hcommand arg harg hreserved
      apply h arg.destination ((hkeys _).mpr hreserved)
      exact (mem_registeredDestinations_plainSetupFile _ _ _).mpr
        ⟨m, hm, command, hcommand, arg, harg, rfl⟩
    · intro h key hkey hregistered
      obtain ⟨m, hm, command, hcommand, arg, harg, rfl⟩ :=
        (mem_registeredDestinations_plainSetupFile _ _ _).mp hregistered
      exact h m hm command hcommand arg harg ((hkeys _).mp hkey)
  refine ⟨hkeys, hkept, ?_⟩
  intro hparams
  apply hkept.mpr
  intro m hm command hcommand arg harg
  obtain ⟨source, hsource, f, hf, param, hparam, hname⟩ :=
    exists_param_of_extractSources hextract hm hcommand harg
  rw [hname]
  exact hparams source hsource f hf param hparam

/-- Two classes whose methods have parameters with names of their own. -/
def clockSource : SourceFile where
  location := "clock.py"
  text := "class Counter:\n    def step(self, by):\n        pass\n\nclass Clock:\n    def wind(self, turns):\n        pass\n"

/-- The collection of two classes with one method each, which has one parameter. -/
def twoClasses (location : String) (first second : String × String × String) : Collection :=
  ⟨[first, second].map fun (name, command, parameter) =>
    { name, location
      commands := [
        { name := command, help := Docstring.noDocumentation,
          args := [{ Argument.ofParameter parameter with help := Docstring.noDocumentation }] }] }⟩

/-- The collection of the counter and the clock. -/
def clockCollection : Collection :=
  twoClasses "clock.py" ("Counter", "step", "by") ("Clock", "wind", "turns")

/-- The parameters of the counter and the clock leave the keys alone. -/
theorem dispatchKeys_kept_iff_clock :
    (extractSources {} [clockSource]).run.value = .ok clockCollection
      ∧ ∃ files, (generate ⟨"/project", "argsmith"⟩ clockCollection "cli/utils/parser.py").run.value
          = .ok files
        ∧ (∀ key, key ∈ dispatchKeys files.entryPoint.lines ↔ key ∈ ["module", "command"])
        ∧ ∀ key ∈ dispatchKeys files.entryPoint.lines,
            key ∉ registeredDestinations files.setupParser.lines := by
  have hextract : (extractSources {} [clockSource]).run.value = .ok clockCollection := by decide +kernel
  obtain ⟨files, hgenerate⟩ := exists_generate_eq_ok ⟨"/project", "argsmith"⟩ clockCollection
    "cli/utils/parser.py" (by decide +kernel)
  obtain ⟨hkeys, -, hkept⟩ := dispatchKeys_kept_iff hextract hgenerate
  refine ⟨hextract, files, hgenerate, hkeys, hkept ?_⟩
  intro source hsource
  obtain rfl := List.mem_singleton.mp hsource
  decide +kernel

/-- Two classes whose methods have parameters with the names of the keys. -/
def reservedSource : SourceFile where
  location := "a.py"
  text := "class A:\n    def run(self, command):\n        pass\n\nclass B:\n    def stop(self, module):\n        pass\n"

/-- The collection of the two classes. -/
def reservedCollection : Collection :=
  twoClasses "a.py" ("A", "run", "command") ("B", "stop", "module")

/-- **The keys of the dispatch are not kept.** Both are names under which arguments are stored, and once
the value of an argument has taken the place of the command, nothing is called. -/
theorem dispatchKeys_not_kept :
    (extractSources {} [reservedSource]).run.value = .ok reservedCollection
      ∧ ∃ files, (generate ⟨"/project", "argsmith"⟩ reservedCollection "cli/utils/parser.py").run.value
          = .ok files
        ∧ (∀ key ∈ ["module", "command"], key ∈ dispatchKeys files.entryPoint.lines
            ∧ key ∈ registeredDestinations files.setupParser.lines)
        ∧ call "execute" (fun key => .str (if key = "module" then "A" else "now"))
            files.entryPoint.lines = some ⟨[], some false⟩ := by
  obtain ⟨files, hgenerate⟩ := exists_generate_eq_ok ⟨"/project", "argsmith"⟩ reservedCollection
    "cli/utils/parser.py" (by decide +kernel)
  obtain ⟨hsetup, hentry⟩ := generate_eq_ok hgenerate
  refine ⟨by decide +kernel, files, hgenerate, ?_, ?_⟩
  · intro key hkey
    rw [← hentry, (setupParser_eq_ok hsetup).2]
    refine ⟨(mem_dispatchKeys_entryPoint _ _ reservedCollection key).mpr hkey, ?_⟩
    apply (mem_registeredDestinations_plainSetupFile _ reservedCollection key).mpr
    revert key
    decide +kernel
  · have hexecute : Code.body? "execute" files.entryPoint.lines
        = some (executeTree reservedCollection).suite := by
      rw [← hentry]
      exact body?_execute _ _ reservedCollection
    have hmodules : reservedCollection.modules ≠ [] := List.cons_ne_nil _ _
    rw [call, hexecute, Option.bind_some, runAll_executeTree _ hmodules]
    decide +kernel

end ClassCli.Synthesis
