import ClassCli.Proofs.Synthesis.EntryReading
import ClassCli.Proofs.Synthesis.SetupReading

/-!
# The two generated files agree

The setup file registers commands and declares what their arguments are stored under; the entry point
matches the commands and looks their arguments up. Both are written on their own, from the same
collection. Read back, they agree command by command: about the string that is typed, about the names of
the arguments, and about the commands that take a configuration.

A class can only be mistaken for a part of the runtime by its name: a call of a class named like the
wrapper is a call of that name, and its import may be the very line that imports the wrapper.

* **`Agreement`** — what the two files say about one command.
* **`registrations_agree`** — the files agree about every command, the modules and the runtime.
-/

namespace ClassCli.Synthesis

open Interface (Argument Collection Command Flag Module)
open Code (Line Statement nest)

/-! ## Imports at the top of a file -/

/-- The first lines of the statements at the top level of a file. -/
def topTexts (lines : List Line) : List String := (nest lines).map (·.text)

/-- The import of the function for configurations. -/
def configurationImport (runtime : String) : String :=
  "from " ++ runtime ++ ".api.hydra import add_hydra_parser"

theorem isImport_header (name : String) (params : List (String × String)) (returns : Option String) :
    isImport (Code.header name params returns) = false := by
  obtain ⟨rest, hrest⟩ := toList_header name params returns
  rw [isImport, firstWord, hrest]
  rfl

/-- An import at the top of the setup file is one of its imports. -/
theorem mem_topTexts_setup {runtime text : String} {collection : Collection}
    (h : isImport text = true) :
    text ∈ topTexts (plainSetupFile runtime collection) ↔ text ∈ setupImports runtime collection := by
  have hfunction : ∀ (name : String) (body : List String),
      (Statement.node (Code.header name parserParams parserType) (body.map .leaf)).text ≠ text := by
    rintro name body rfl
    rw [Statement.text, isImport_header] at h
    exact absurd h (by decide)
  rw [topTexts, nest_plainSetupFile, setupTrees, List.map_append, List.map_append, List.map_map]
  simp only [List.mem_append, List.mem_map, List.mem_flatMap, List.mem_singleton]
  constructor
  · rintro ((⟨import', himport, rfl⟩ | ⟨tree, ⟨m, -, ht⟩, rfl⟩) | ⟨tree, rfl, rfl⟩)
    · exact himport
    · rcases List.mem_append.mp ht with ht | ht
      · obtain ⟨command, -, rfl⟩ := List.mem_map.mp ht
        exact absurd rfl (hfunction _ _)
      · obtain rfl := List.mem_singleton.mp ht
        exact absurd rfl (hfunction _ _)
    · exact absurd rfl (hfunction _ _)
  · intro hmem
    exact Or.inl (Or.inl ⟨text, hmem, rfl⟩)

/-- An import at the top of the entry point is one of its imports. -/
theorem mem_topTexts_entry {surroundings : Surroundings} {parserFile text : String}
    {collection : Collection} (h : isImport text = true) :
    text ∈ topTexts (entryPoint surroundings parserFile collection).value.lines
      ↔ text ∈ entryImportTexts surroundings parserFile collection := by
  -- none of the four definitions below the imports reads as an import
  have hexecute : (executeTree collection).text ≠ text := by
    rintro rfl
    rw [executeTree, Statement.text, isImport_header] at h
    exact absurd h (by decide)
  have hcreate : (createTree collection).text ≠ text := by
    rintro rfl
    rw [createTree, Statement.text, isImport_header] at h
    exact absurd h (by decide)
  have hmain : mainTree.text ≠ text := by
    rintro rfl
    rw [mainTree, Statement.text, isImport_header] at h
    exact absurd h (by decide)
  have hguard : guardTree.text ≠ text := by
    rintro rfl
    exact absurd h (by decide +kernel)
  rw [topTexts, nest_entryPoint, entryTrees, List.map_append, List.map_map]
  simp only [List.mem_append, List.mem_map, List.mem_cons, List.not_mem_nil, or_false, List.map_cons,
    List.map_nil]
  constructor
  · rintro (⟨import', himport, rfl⟩ | rfl | rfl | rfl | rfl)
    · exact himport
    · exact absurd rfl hexecute
    · exact absurd rfl hcreate
    · exact absurd rfl hmain
    · exact absurd rfl hguard
  · intro hmem
    exact Or.inl ⟨text, hmem, rfl⟩

/-- The end of a line. -/
def lineEnd (text : String) : List Char := text.toList.reverse.take 6

theorem lineEnd_append (front : String) {back : String} (h : 6 ≤ back.toList.length) :
    lineEnd (front ++ back) = lineEnd back := by
  rw [lineEnd, lineEnd, String.toList_append, List.reverse_append, List.take_append_of_le_length]
  simpa using h

theorem isImport_from (rest : String) : isImport ("from " ++ rest) = true := by
  rw [isImport, firstWord, String.toList_append]
  rfl

/-- **The setup file imports the function for configurations** exactly if a command takes one. -/
theorem configurationImport_mem_setup (runtime : String) (collection : Collection) :
    configurationImport runtime ∈ topTexts (plainSetupFile runtime collection)
      ↔ anyHydra collection = true := by
  have himport : isImport (configurationImport runtime) = true := by
    rw [configurationImport, String.append_assoc]
    exact isImport_from _
  have hother : configurationImport runtime ≠ argparseImport := by
    intro h
    have hend := congrArg lineEnd h
    rw [configurationImport, lineEnd_append _ (by decide)] at hend
    exact absurd hend (by decide)
  rw [mem_topTexts_setup himport, setupImports, List.mem_cons]
  cases anyHydra collection with
  | true => simp [configurationImport]
  | false => simp [hother]

/-- **The entry point imports the wrapper** exactly if a command takes a configuration or the import of
a class is that line. -/
theorem wrapperImport_mem_entry (surroundings : Surroundings) (parserFile : String)
    (collection : Collection) :
    wrapperImport surroundings.runtime
        ∈ topTexts (entryPoint surroundings parserFile collection).value.lines
      ↔ anyHydra collection = true
        ∨ ∃ m ∈ collection.modules,
          classImport surroundings.projectRoot m = wrapperImport surroundings.runtime := by
  have himport : isImport (wrapperImport surroundings.runtime) = true := by
    rw [wrapperImport, String.append_assoc]
    exact isImport_from _
  have hend : lineEnd (wrapperImport surroundings.runtime) = "reppar".toList := by
    rw [wrapperImport, lineEnd_append _ (by decide)]
    decide
  have hparser : wrapperImport surroundings.runtime ≠ argparseImport := by
    intro h
    rw [h] at hend
    exact absurd hend (by decide)
  have hsetup : wrapperImport surroundings.runtime
      ≠ setupImport surroundings.projectRoot parserFile := by
    intro h
    rw [h, setupImport, lineEnd_append _ (by decide)] at hend
    exact absurd hend (by decide)
  rw [mem_topTexts_entry himport, entryImportTexts, classImports, List.mem_append, List.mem_append,
    mem_foldl_withNew, List.mem_singleton, List.mem_singleton, List.mem_map]
  cases anyHydra collection with
  | true => simp
  | false => simp [hparser, hsetup]

/-! ## Agreement about commands -/

/-- What the two files say about one command of a module. -/
structure Agreement (m : Module) (command : Command) (registration : Registration) (arm : Arm) :
    Prop where
  /-- What is typed for the command is what its arm is for. -/
  name : registration.name = arm.pattern
  /-- Without a configuration every argument that is declared is looked up, and no other. -/
  keys : usesHydra command = false → arm.keys.Perm registration.destinations
  /-- With a configuration the constructor's arguments are looked up, and they are declared. -/
  constructorKeys : ∀ flag, command.flag? Marker.hydraName = some flag →
    (∀ entry ∈ flag.values, Text.isIdentifier entry.1.toList = true) →
    arm.keys = m.args.map (·.destination) ∧ arm.keys.Sublist registration.destinations
  /-- The parser is handed through exactly if the command takes a configuration. -/
  configured : registration.configured = usesHydra command
  /-- The wrapper is called exactly if the parser is handed through, a class of this name aside. -/
  wrapped : arm.wrapped = true ↔ registration.configured = true ∨ m.name = wrapperName

theorem agreement_registrationFor {m : Module} (h : Named m) {command : Command}
    (hc : command ∈ m.commands) :
    Agreement m command (registrationFor m command)
      (armOf (commandName command.name, armSuite m command)) where
  name := rfl
  keys := by
    intro hf
    rw [armOf_plain h hc hf]
    exact List.perm_append_comm
  constructorKeys := by
    intro flag hflag hkeys
    rw [armOf_keys h hc hflag hkeys]
    exact ⟨rfl, List.sublist_append_right _ _⟩
  configured := rfl
  wrapped := by
    show _ ↔ usesHydra command = true ∨ m.name = wrapperName
    cases hf : usesHydra command with
    | true => simp [armOf_wrapped m hf]
    | false =>
      rw [armOf_plain h hc hf]
      simp

/-- **The generated files agree.** Modules and commands are registered under the strings of their
patterns; the arguments that an arm looks up are those that the helper of its command declares; the
wrapper is called where the parser is handed through; and the runtime is imported where a command
takes a configuration, a class that is mistaken for it aside. -/
theorem registrations_agree {surroundings : Surroundings} {collection : Collection}
    {parserFile : String} {files : Generated}
    (h : (generate surroundings collection parserFile).run.value = .ok files)
    (hn : ∀ m ∈ collection.modules, Named m) :
    registeredModules files.setupParser.lines = modulePatterns files.entryPoint.lines
      ∧ registeredModules files.setupParser.lines = typedNames collection.modules
      ∧ (∀ (i j : Nat) (m : Module) (command : Command),
          collection.modules[i]? = some m → m.commands[j]? = some command →
          ∃ registration arm,
            (registrations files.setupParser.lines)[i]?.bind (·[j]?) = some registration
              ∧ (arms files.entryPoint.lines)[i]?.bind (·[j]?) = some arm
              ∧ Agreement m command registration arm)
      ∧ (configurationImport surroundings.runtime ∈ topTexts files.setupParser.lines
          ↔ anyHydra collection = true)
      ∧ (wrapperImport surroundings.runtime ∈ topTexts files.entryPoint.lines
          ↔ anyHydra collection = true
            ∨ ∃ m ∈ collection.modules,
              classImport surroundings.projectRoot m = wrapperImport surroundings.runtime) := by
  obtain ⟨hsetup, hentry⟩ := generate_eq_ok h
  obtain ⟨haccepted, hlines⟩ := setupParser_eq_ok hsetup
  obtain ⟨harms, hpatterns⟩ := arms_entryPoint surroundings parserFile collection
  have hregistered := registeredModules_plainSetupFile surroundings.runtime haccepted
  have hregistrations := registrations_plainSetupFile surroundings.runtime haccepted
  rw [hentry] at harms hpatterns
  rw [← hlines] at hregistered hregistrations
  refine ⟨hregistered.trans hpatterns.symm, hregistered, ?_, ?_, ?_⟩
  · intro i j m command hm hc
    have hmember : m ∈ collection.modules := List.mem_of_getElem? hm
    have hcommand : command ∈ m.commands := List.mem_of_getElem? hc
    refine ⟨_, _, ?_, ?_, agreement_registrationFor (hn m hmember) hcommand⟩
    · simp [hregistrations, hm, hc]
    · simp [harms, hm, hc]
  · rw [hlines]
    exact configurationImport_mem_setup surroundings.runtime collection
  · rw [← hentry]
    exact wrapperImport_mem_entry surroundings parserFile collection

/-- The files of two classes agree; the first command takes a configuration, the second does not. -/
theorem registrations_agree_trainerAndReport :
    ∃ files,
      (generate ⟨"/project", "argsmith"⟩ trainerAndReport "utils/parser.py").run.value = .ok files
        ∧ (∀ m ∈ trainerAndReport.modules, Named m)
        ∧ registeredModules files.setupParser.lines = ["Trainer", "Report"]
        ∧ ∃ registration arm,
          (registrations files.setupParser.lines)[0]?.bind (·[1]?) = some registration
            ∧ (arms files.entryPoint.lines)[0]?.bind (·[1]?) = some arm
            ∧ arm.keys.Perm registration.destinations := by
  obtain ⟨files, h⟩ : ∃ files,
      (generate ⟨"/project", "argsmith"⟩ trainerAndReport "utils/parser.py").run.value = .ok files :=
    ⟨_, rfl⟩
  have hn : ∀ m ∈ trainerAndReport.modules, Named m := by decide +kernel
  obtain ⟨-, hmodules, hcommands, -, -⟩ := registrations_agree h hn
  obtain ⟨registration, arm, hregistration, harm, hagree⟩ := hcommands 0 1 _ _ rfl rfl
  exact ⟨files, h, hn, hmodules, registration, arm, hregistration, harm, hagree.keys rfl⟩

/-- A class that is named like the wrapper and lies where the runtime does. -/
def wrapperClass : Collection :=
  ⟨[{ name := "hydra_wrapper", location := "argsmith/api/hydra.py", commands := [{ name := "run" }] }]⟩

/-- A class with a setting whose key is no name. -/
def lookupKey : Collection :=
  ⟨[{ name := "Job", location := "job.py",
      commands := [
        { name := "run",
          flags := [{ name := Marker.hydraName, values := [("a=args['zz'], b", .int 1)] }] }] }]⟩

/-- Without the exceptions the files do not agree: an import of a class can be the import of the
wrapper although no command takes a configuration, and a setting can look up what is declared nowhere. -/
theorem registrations_disagree :
    (∃ files,
      (generate ⟨"/project", "argsmith"⟩ wrapperClass "cli/utils/parser.py").run.value = .ok files
        ∧ (∀ m ∈ wrapperClass.modules, Named m)
        ∧ anyHydra wrapperClass = false
        ∧ wrapperImport "argsmith" ∈ topTexts files.entryPoint.lines
        ∧ registrations files.setupParser.lines = [[⟨"run", [], false⟩]]
        ∧ arms files.entryPoint.lines = [[⟨"run", [], true⟩]])
      ∧ ∃ files,
        (generate ⟨"/project", "argsmith"⟩ lookupKey "cli/utils/parser.py").run.value = .ok files
          ∧ (∀ m ∈ lookupKey.modules, Named m)
          ∧ registrations files.setupParser.lines = [[⟨"run", [], true⟩]]
          ∧ arms files.entryPoint.lines = [[⟨"run", ["zz"], true⟩]] := by
  refine ⟨⟨_, rfl, ?_, rfl, ?_, ?_, ?_⟩, ⟨_, rfl, ?_, ?_, ?_⟩⟩
  · decide +kernel
  · decide +kernel
  · decide +kernel
  · decide +kernel
  · decide +kernel
  · decide +kernel
  · decide +kernel

end ClassCli.Synthesis
