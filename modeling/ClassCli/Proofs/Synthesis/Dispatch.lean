import ClassCli.Proofs.Code.Running
import ClassCli.Proofs.Synthesis.EntryFile

/-!
# What the entry point does

Calling `execute` with the parsed arguments chooses a module and then one of its commands. The object is
only constructed once both are known, so that nothing is done if one of them is missing.

* **`chosen?`** — the module and the command that the arguments name.
* **`call_execute`** — the two calls for them are made, and nothing else is done.
-/

namespace ClassCli.Synthesis

open Interface (Collection Command Module)
open Code (Outcome Statement call caseTrees clause matchTree run runAll)

/-! ## The choice -/

/-- The module that is chosen: the only one, or else the first one whose name is given. -/
def chosenModule? (args : String → Literal) : List Module → Option Module
  | [m] => some m
  | modules => modules.find? fun m => args "module" == .str m.name

/-- The command of a module that is chosen: the first one that is typed in the way that is given. -/
def chosenCommand? (args : String → Literal) (m : Module) : Option Command :=
  m.commands.find? fun command => args "command" == .str (commandName command.name)

/-- The module and the command that are chosen. -/
def chosen? (args : String → Literal) (modules : List Module) : Option (Module × Command) :=
  (chosenModule? args modules).bind fun m => (chosenCommand? args m).map fun command => (m, command)

/-- What is done for a choice: the object is constructed and the method called. Without a choice nothing
is done. -/
def dispatched : Option (Module × Command) → Outcome
  | some (m, command) => ⟨[construction m, invocation command], some true⟩
  | none => ⟨[], some false⟩

/-! ## Runs of the dispatch -/

variable (args : String → Literal)

theorem clause_construction (m : Module) : clause (construction m) = .step := by
  have hfront : "module = ".toList = "module".toList ++ ' ' :: ['=', ' '] := rfl
  have hword : Code.IsWord "module".toList := by decide
  rw [construction, String.append_assoc, String.append_assoc, String.append_assoc]
  exact Code.clause_step hfront (by decide) hword (by decide) (by decide) _

theorem clause_invocation (command : Command) : clause (invocation command) = .step := by
  unfold invocation
  split
  · have hfront : "module.".toList = "module".toList ++ '.' :: [] := rfl
    have hword : Code.IsWord "module".toList := by decide
    rw [String.append_assoc, String.append_assoc, String.append_assoc]
    exact Code.clause_step hfront (by decide) hword (by decide) (by decide) _
  · have hfront : "hydra_wrapper(".toList = "hydra_wrapper".toList ++ '(' :: [] := rfl
    have hword : Code.IsWord "hydra_wrapper".toList := by decide
    rw [String.append_assoc]
    exact Code.clause_step hfront (by decide) hword (by decide) (by decide) _

theorem runAll_refusal : runAll args refusal = some ⟨[], some false⟩ := by
  have hrun : run args (.leaf "return False") = some ⟨[], some false⟩ := by
    have hclause : clause "return False" = .answer false := by decide +kernel
    rw [Statement.leaf, run, hclause]
    rfl
  exact Code.runAll_singleton args hrun

theorem runAll_armSuite (m : Module) (command : Command) :
    runAll args (armSuite m command) = some ⟨[construction m, invocation command], none⟩ := by
  have hlast : runAll args [.leaf (invocation command)] = some ⟨[invocation command], none⟩ :=
    Code.runAll_singleton args (Code.run_leaf args (clause_invocation command))
  rw [armSuite, Code.runAll_cons_step args (Code.run_leaf args (clause_construction m)), hlast]
  rfl

/-- What is done before the last line of `execute` for a choice. -/
def beforeEnd : Option (Module × Command) → Outcome
  | some (m, command) => ⟨[construction m, invocation command], none⟩
  | none => ⟨[], some false⟩

/-- **The match over the commands of a module** constructs the object and calls the method of the first
command that fits. -/
theorem run_commandTree (m : Module) :
    run args (commandTree m)
      = some (beforeEnd ((chosenCommand? args m).map fun command => (m, command))) := by
  have hclause : clause ("match " ++ "args['command']" ++ ":") = .choice "command" := by decide +kernel
  have hcases : caseTrees (commandCases m) ≠ [] := by simp [caseTrees, commandCases]
  have harm : ∀ command ∈ m.commands, armSuite m command ≠ [] := by simp [armSuite]
  have hsuite := Code.runCases_caseTrees args (args "command")
    (fun command : Command => commandName command.name) (armSuite m) refusal
    (by simp [refusal]) m.commands harm
  rw [commandTree, Code.run_matchTree args hclause hcases, commandCases, hsuite, chosenCommand?]
  cases m.commands.find? fun command => args "command" == .str (commandName command.name) with
  | none => exact runAll_refusal args
  | some command => exact runAll_armSuite args m command

/-- **The match over modules** goes on with the commands of the first module that fits. -/
theorem run_moduleTree (modules : List Module) :
    run args (moduleTree modules)
      = some (beforeEnd ((modules.find? fun m => args "module" == .str m.name).bind fun m =>
          (chosenCommand? args m).map fun command => (m, command))) := by
  have hclause : clause ("match " ++ "args['module']" ++ ":") = .choice "module" := by decide +kernel
  have hcases : caseTrees (moduleCases modules) ≠ [] := by simp [caseTrees, moduleCases]
  have harm : ∀ m ∈ modules, [commandTree m] ≠ [] := by simp
  have hsuite := Code.runCases_caseTrees args (args "module") (fun m : Module => m.name)
    (fun m => [commandTree m]) refusal (by simp [refusal]) modules harm
  rw [moduleTree, Code.run_matchTree args hclause hcases, moduleCases, hsuite]
  cases modules.find? fun m => args "module" == .str m.name with
  | none => exact runAll_refusal args
  | some m => exact Code.runAll_singleton args (run_commandTree args m)

/-- What is written before the last line of `execute` does what the choice asks for. -/
theorem run_dispatchTree {modules : List Module} (h : modules ≠ []) :
    ∃ tree, dispatchTrees modules = [tree] ∧ run args tree = some (beforeEnd (chosen? args modules)) := by
  match modules, h with
  | [m], _ => exact ⟨commandTree m, rfl, run_commandTree args m⟩
  | first :: second :: rest, _ =>
    exact ⟨moduleTree (first :: second :: rest), rfl, run_moduleTree args (first :: second :: rest)⟩

/-- The body of `execute` returns whether there is a choice. -/
theorem runAll_executeTree {collection : Collection} (h : collection.modules ≠ []) :
    runAll args (executeTree collection).suite
      = some (dispatched (chosen? args collection.modules)) := by
  obtain ⟨tree, htree, hrun⟩ := run_dispatchTree args h
  have hlast : runAll args [.leaf "return True"] = some ⟨[], some true⟩ := by
    have hclause : clause "return True" = .answer true := by decide +kernel
    refine Code.runAll_singleton args ?_
    rw [Statement.leaf, run, hclause]
    rfl
  rw [executeTree, Statement.suite, htree, List.singleton_append]
  cases hchosen : chosen? args collection.modules with
  | none =>
    rw [hchosen] at hrun
    exact Code.runAll_cons_answer args hrun _
  | some choice =>
    rw [hchosen] at hrun
    rw [Code.runAll_cons_step args hrun, hlast]
    rfl

/-! ## Calls -/

/-- **Calling `execute`.** If there are classes, the object of the chosen module is constructed and the
method of the chosen command called, and the answer is `True`; without a choice nothing is done and
the answer is `False`. -/
theorem call_execute (surroundings : Surroundings) (parserFile : String) {collection : Collection}
    (h : collection.modules ≠ []) :
    call "execute" args (entryPoint surroundings parserFile collection).value.lines
      = some (dispatched (chosen? args collection.modules)) := by
  rw [call, body?_execute]
  exact runAll_executeTree args h

/-- Two classes of one name. -/
def twoReports : Collection :=
  ⟨[{ name := "Report", args := [.ofParameter "page_size"], location := "daily.py",
      commands := [{ name := "print_all", args := [.ofParameter "copies"] }] },
    { name := "Report", location := "weekly.py", commands := [{ name := "send" }] }]⟩

/-- Of two classes of one name only the first one can be reached. -/
theorem call_execute_twoReports :
    twoReports.modules ≠ []
      ∧ call "execute" (fun key => .str (if key = "module" then "Report" else "print-all"))
          (entryPoint ⟨"/project", "argsmith"⟩ "utils/parser.py" twoReports).value.lines
        = some ⟨["module = Report(page_size=args['page_size'])",
            "module.print_all(copies=args['copies'])"], some true⟩
      ∧ call "execute" (fun key => .str (if key = "module" then "Report" else "send"))
          (entryPoint ⟨"/project", "argsmith"⟩ "utils/parser.py" twoReports).value.lines
        = some ⟨[], some false⟩ := by
  have hmodules : twoReports.modules ≠ [] := by simp [twoReports]
  refine ⟨hmodules, ?_, ?_⟩
  · rw [call_execute _ _ _ hmodules]
    decide +kernel
  · rw [call_execute _ _ _ hmodules]
    decide +kernel

end ClassCli.Synthesis
