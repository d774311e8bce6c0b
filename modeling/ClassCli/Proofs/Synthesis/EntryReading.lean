import ClassCli.Proofs.Code.Lookup
import ClassCli.Proofs.Synthesis.EntryFile

/-!
# Reading the arms of the entry point

Every command has an arm in the dispatch: a pattern, the keys that its two calls look up in the parsed
arguments, and whether one of the calls is one of the wrapper that takes a configuration. Here the arms
are read off the lines of the file.

* **`arms`**, **`modulePatterns`** — what is read.
* **`commandSuites_entryPoint`**, **`arms_entryPoint`** — the cases and their arms are those of the
  commands, module by module.
* **`armOf_armSuite`** — what an arm looks up and calls, if names are identifiers.
-/

namespace ClassCli.Synthesis

open Interface (Argument Collection Command Module)
open Code (Clause Line Token Statement calls caseTrees clause commas lookups tokens)

/-! ## Reading -/

/-- What the entry point does for one command. -/
structure Arm where
  pattern : String
  /-- The keys that are looked up in the parsed arguments. -/
  keys : List String
  /-- Whether the wrapper is called. -/
  wrapped : Bool
  deriving DecidableEq, Repr, Inhabited

/-- The cases of a match for strings, with their suites. -/
def stringCases (cases : List Statement) : List (String × List Statement) :=
  cases.filterMap fun tree => match clause tree.text with
    | .case (some value) => some (value, tree.suite)
    | _ => none

/-- The cases of the match over the value at a key, if there is one. -/
def casesOver? (key : String) (body : List Statement) : Option (List (String × List Statement)) :=
  (body.find? fun tree => clause tree.text == .choice key).map fun tree => stringCases tree.suite

/-- The name of the wrapper around calls of methods that take a configuration. -/
def wrapperName : String := "hydra_wrapper"

/-- The arm of a case. -/
def armOf (c : String × List Statement) : Arm where
  pattern := c.1
  keys := c.2.flatMap fun tree => lookups (tokens tree.text)
  wrapped := c.2.any fun tree => calls wrapperName (tokens tree.text)

/-- The arms of the match over commands. -/
def commandArms (body : List Statement) : List Arm := ((casesOver? "command" body).getD []).map armOf

/-- The body of `execute`. -/
def executeBody (lines : List Line) : List Statement := (Code.body? "execute" lines).getD []

/-- The cases for commands, module by module. Without a match over modules there is one module, or none if
there is no match over commands either. -/
def commandSuites (lines : List Line) : List (List (String × List Statement)) :=
  match casesOver? "module" (executeBody lines) with
  | some cases => cases.map fun c => (casesOver? "command" c.2).getD []
  | none => (casesOver? "command" (executeBody lines)).toList

/-- The strings that stand for modules. -/
def modulePatterns (lines : List Line) : List String :=
  ((casesOver? "module" (executeBody lines)).getD []).map (·.1)

/-- The arms of the commands, module by module. Without a match over modules there is one module, or
none if there is no match over commands either. -/
def arms (lines : List Line) : List (List Arm) :=
  match casesOver? "module" (executeBody lines) with
  | some cases => cases.map fun c => commandArms c.2
  | none => ((casesOver? "command" (executeBody lines)).map (·.map armOf)).toList

/-! ## The cases of the dispatch -/

theorem stringCases_caseTrees {α : Type} (key : α → String) (suite : α → List Statement)
    (fallback : List Statement) (items : List α) :
    stringCases (caseTrees (items.map (fun item => (.str (key item), suite item))
        ++ [(.anything, fallback)]))
      = items.map fun item => (key item, suite item) := by
  induction items with
  | nil =>
    simp [stringCases, caseTrees, Code.caseTree, Statement.text, Code.clause_caseHead_anything]
  | cons item rest ih =>
    simp only [stringCases, caseTrees, List.map_cons, List.cons_append] at ih ⊢
    rw [List.filterMap_cons_some (b := (key item, suite item)), ih]
    simp [Code.caseTree, Statement.text, Statement.suite, Code.clause_caseHead_str]

theorem casesOver?_commandTree (m : Module) :
    casesOver? "command" [commandTree m]
      = some (m.commands.map fun c => (commandName c.name, armSuite m c)) := by
  have hclause : clause "match args['command']:" = .choice "command" := by decide +kernel
  have hcases := stringCases_caseTrees (fun c : Command => commandName c.name) (armSuite m) refusal
    m.commands
  rw [← commandCases] at hcases
  simp [casesOver?, commandTree, Code.matchTree, Statement.text, Statement.suite, hclause, hcases]

theorem casesOver?_execute_one (m : Module) :
    casesOver? "module" (executeTree ⟨[m]⟩).suite = none
      ∧ casesOver? "command" (executeTree ⟨[m]⟩).suite
          = some (m.commands.map fun c => (commandName c.name, armSuite m c)) := by
  have hclause : clause "match args['command']:" = .choice "command" := by decide +kernel
  have hreturn : clause "return True" = .answer true := by decide +kernel
  have hcases := stringCases_caseTrees (fun c : Command => commandName c.name) (armSuite m) refusal
    m.commands
  rw [← commandCases] at hcases
  constructor
  · simp [casesOver?, executeTree, dispatchTrees, commandTree, Code.matchTree, Statement.text, Statement.suite,
      Statement.leaf, hclause, hreturn]
  · simp [casesOver?, executeTree, dispatchTrees, commandTree, Code.matchTree, Statement.text, Statement.suite,
      hclause, hcases]

theorem casesOver?_execute_many (first second : Module) (rest : List Module) :
    casesOver? "module" (executeTree ⟨first :: second :: rest⟩).suite
      = some ((first :: second :: rest).map fun m => (m.name, [commandTree m])) := by
  have hclause : clause "match args['module']:" = .choice "module" := by decide +kernel
  have hcases := stringCases_caseTrees (fun m : Module => m.name) (fun m => [commandTree m]) refusal
    (first :: second :: rest)
  rw [← moduleCases] at hcases
  rw [← hcases]
  simp [casesOver?, executeTree, dispatchTrees, moduleTree, Code.matchTree, Statement.text, Statement.suite,
    hclause]

theorem casesOver?_execute_none (key : String) :
    casesOver? key (executeTree ⟨[]⟩).suite = none := by
  have hreturn : clause "return True" = .answer true := by decide +kernel
  simp [casesOver?, executeTree, dispatchTrees, Statement.text, Statement.suite, Statement.leaf, hreturn]

/-- **The cases of the entry point** are those of the commands, module by module. -/
theorem commandSuites_entryPoint (surroundings : Surroundings) (parserFile : String)
    (collection : Collection) :
    commandSuites (entryPoint surroundings parserFile collection).value.lines
      = collection.modules.map fun m => m.commands.map fun c => (commandName c.name, armSuite m c) := by
  rw [commandSuites, executeBody, body?_execute, Option.getD_some]
  obtain ⟨modules⟩ := collection
  match modules with
  | [] =>
    rw [casesOver?_execute_none, casesOver?_execute_none]
    rfl
  | [m] =>
    obtain ⟨hmodule, hcommand⟩ := casesOver?_execute_one m
    rw [hmodule, hcommand]
    rfl
  | first :: second :: rest =>
    rw [casesOver?_execute_many]
    simp only [List.map_map, Function.comp_def, casesOver?_commandTree, Option.getD_some]

/-- Arms are what the cases for commands do. -/
theorem arms_eq (lines : List Line) : arms lines = (commandSuites lines).map (·.map armOf) := by
  unfold arms commandSuites commandArms
  split
  · rw [List.map_map]
    rfl
  · rw [Option.toList_map]

/-- **The arms of the entry point** are those of the commands, module by module, and modules have
patterns of their own if there are several. -/
theorem arms_entryPoint (surroundings : Surroundings) (parserFile : String) (collection : Collection) :
    arms (entryPoint surroundings parserFile collection).value.lines
        = collection.modules.map (fun m =>
            m.commands.map fun c => armOf (commandName c.name, armSuite m c))
      ∧ modulePatterns (entryPoint surroundings parserFile collection).value.lines
        = typedNames collection.modules := by
  refine ⟨?_, ?_⟩
  · rw [arms_eq, commandSuites_entryPoint, List.map_map]
    simp only [Function.comp_def, List.map_map]
  · rw [modulePatterns, executeBody, body?_execute, Option.getD_some]
    obtain ⟨modules⟩ := collection
    match modules with
    | [] =>
      rw [casesOver?_execute_none]
      rfl
    | [m] =>
      rw [(casesOver?_execute_one m).1]
      rfl
    | first :: second :: rest =>
      rw [casesOver?_execute_many]
      simp [typedNames]

/-! ## What an arm looks up and calls -/

/-- The names of a module and of what belongs to it are identifiers. -/
structure Named (m : Module) : Prop where
  name : Text.isIdentifier m.name.toList = true
  args : ∀ arg ∈ m.args, Text.isIdentifier arg.destination.toList = true
  commandName : ∀ command ∈ m.commands, Text.isIdentifier command.name.toList = true
  commandArgs : ∀ command ∈ m.commands, ∀ arg ∈ command.args,
    Text.isIdentifier arg.destination.toList = true

instance (m : Module) : Decidable (Named m) :=
  decidable_of_iff
    ((Text.isIdentifier m.name.toList = true
        ∧ ∀ arg ∈ m.args, Text.isIdentifier arg.destination.toList = true)
      ∧ (∀ command ∈ m.commands, Text.isIdentifier command.name.toList = true)
      ∧ ∀ command ∈ m.commands, ∀ arg ∈ command.args,
          Text.isIdentifier arg.destination.toList = true)
    ⟨fun ⟨⟨hn, ha⟩, hc, hd⟩ => ⟨hn, ha, hc, hd⟩, fun h => ⟨⟨h.name, h.args⟩, h.commandName, h.commandArgs⟩⟩

theorem tokens_construction {m : Module} (h : Named m) :
    tokens (construction m) = .name "module" :: .symbol '=' :: .name m.name :: .symbol '('
      :: (commas (m.args.map Code.argumentTokens) ++ [.symbol ')']) := by
  have hmodule : Code.Reads "module".toList [.name "module"] := Code.Reads.plain (by decide)
  have hequals := Code.Reads.space (Code.Reads.symbol (c := '=') (by decide) (by decide) (by decide)
    (Code.Reads.space (Code.reads_call h.name h.args)))
  have hall := hmodule.append hequals (Code.endsName_cons (by decide) _)
  have hfront : "module = ".toList = "module".toList ++ [' ', '=', ' '] := rfl
  have hopen : "(".toList = ['('] := rfl
  have hclose : ")".toList = [')'] := rfl
  refine Code.Reads.tokens_eq ?_
  simpa only [construction, String.toList_append, hfront, hopen, hclose, List.append_assoc,
    List.cons_append, List.nil_append] using hall

/-- **The constructor's arguments are looked up** where the object is constructed. -/
theorem lookups_construction {m : Module} (h : Named m) :
    lookups (tokens (construction m)) = m.args.map (·.destination) := by
  rw [tokens_construction h, Code.lookups_name_symbol _ (by decide),
    Code.lookups_name_symbol _ (by decide), Code.lookups_callArgs_append, Code.lookups_symbol, lookups,
    List.append_nil]

/-- Constructing an object calls the class. -/
theorem calls_construction {m : Module} (h : Named m) (name : String) :
    calls name (tokens (construction m)) = (m.name == name) := by
  have hrest : .symbol '(' ∉ commas (m.args.map Code.argumentTokens) ++ [Token.symbol ')'] := by
    simp [Code.not_mem_argumentTokens]
  rw [tokens_construction h, calls, Code.callsBehind_name_symbol, Code.callsBehind_name_symbol,
    Code.callsBehind_eq_false _ _ hrest]
  simp

theorem tokens_invocation {command : Command} (hf : usesHydra command = false)
    (h : Text.isIdentifier command.name.toList = true)
    (ha : ∀ arg ∈ command.args, Text.isIdentifier arg.destination.toList = true) :
    tokens (invocation command) = .name "module" :: .symbol '.' :: .name command.name :: .symbol '('
      :: (commas (command.args.map Code.argumentTokens) ++ [.symbol ')']) := by
  have hnone : command.flag? Marker.hydraName = none := by simpa [usesHydra] using hf
  have hmodule : Code.Reads "module".toList [.name "module"] := Code.Reads.plain (by decide)
  have hpoint := Code.Reads.symbol (c := '.') (by decide) (by decide) (by decide) (Code.reads_call h ha)
  have hall := hmodule.append hpoint (Code.endsName_cons (by decide) _)
  have hfront : "module.".toList = "module".toList ++ ['.'] := rfl
  have hopen : "(".toList = ['('] := rfl
  have hclose : ")".toList = [')'] := rfl
  refine Code.Reads.tokens_eq ?_
  rw [invocation, hnone]
  simpa only [String.toList_append, hfront, hopen, hclose, List.append_assoc, List.cons_append,
    List.nil_append] using hall

/-- **The arguments of a method are looked up** where it is called. -/
theorem lookups_invocation {command : Command} (hf : usesHydra command = false)
    (h : Text.isIdentifier command.name.toList = true)
    (ha : ∀ arg ∈ command.args, Text.isIdentifier arg.destination.toList = true) :
    lookups (tokens (invocation command)) = command.args.map (·.destination) := by
  rw [tokens_invocation hf h ha, Code.lookups_name_symbol _ (by decide),
    Code.lookups_name_symbol _ (by decide), Code.lookups_callArgs_append, Code.lookups_symbol, lookups,
    List.append_nil]

/-- A method is called behind a point, so that nothing is called by its name alone. -/
theorem calls_invocation {command : Command} (hf : usesHydra command = false)
    (h : Text.isIdentifier command.name.toList = true)
    (ha : ∀ arg ∈ command.args, Text.isIdentifier arg.destination.toList = true) (name : String) :
    calls name (tokens (invocation command)) = false := by
  have hrest : .symbol '(' ∉ commas (command.args.map Code.argumentTokens) ++ [Token.symbol ')'] := by
    simp [Code.not_mem_argumentTokens]
  rw [tokens_invocation hf h ha, calls, Code.callsBehind_name_symbol, Code.callsBehind_name_symbol,
    Code.callsBehind_eq_false _ _ hrest]
  simp

/-- The call of the wrapper is a call of the wrapper, whatever its settings are. -/
theorem calls_wrapper {command : Command} (hf : usesHydra command = true) :
    calls wrapperName (tokens (invocation command)) = true := by
  obtain ⟨flag, hflag⟩ := Option.isSome_iff_exists.mp hf
  have hfront : "hydra_wrapper(".toList = wrapperName.toList ++ ['('] := rfl
  have hword : Code.IsWord wrapperName.toList := by decide
  rw [invocation, hflag]
  dsimp only
  rw [tokens, String.append_assoc, String.toList_append, hfront, List.append_assoc,
    List.singleton_append, Code.scan_word (by decide) hword (Code.endsName_cons (by decide) _),
    Code.scan_cons, String.ofList_toList]
  show calls wrapperName (.name wrapperName :: .symbol '(' :: _) = true
  rw [calls, Code.callsBehind_name_symbol]
  simp

/-- The tokens of a call of the wrapper: the method, the arguments, the parser and the values of the flag. -/
theorem exists_tokens_wrapper {command : Command} {flag : Interface.Flag}
    (hflag : command.flag? Marker.hydraName = some flag)
    (h : Text.isIdentifier command.name.toList = true)
    (hkeys : ∀ entry ∈ flag.values, Text.isIdentifier entry.1.toList = true) :
    ∃ lines, tokens (invocation command) = .name "hydra_wrapper" :: .symbol '(' :: .name "module"
        :: .symbol '.' :: .name command.name :: .symbol ',' :: .name "args" :: .symbol ','
        :: (commas ([.name "create_parser", .symbol '(', .symbol ')'] :: lines) ++ [.symbol ')'])
      ∧ ∀ line ∈ lines, Code.SettingLine line := by
  obtain ⟨hne, hword⟩ := Code.isWord_of_isIdentifier h
  obtain ⟨lines, hlines, hsettings⟩ := Code.reads_settings hkeys
  have hmethod : Code.Reads ("module." ++ command.name).toList
      [.name "module", .symbol '.', .name command.name] := by
    have hmodule : Code.Reads "module".toList [.name "module"] := Code.Reads.plain (by decide)
    have hpoint := Code.Reads.symbol (c := '.') (by decide) (by decide) (by decide)
      (Code.Reads.word hne hword)
    have hall := hmodule.append hpoint (Code.endsName_cons (by decide) _)
    rw [String.ofList_toList] at hall
    rwa [String.toList_append]
  have hargs : Code.Reads "args".toList [.name "args"] := Code.Reads.plain (by decide)
  have hparser : Code.Reads "create_parser()".toList [.name "create_parser", .symbol '(', .symbol ')'] :=
    Code.Reads.plain (by decide)
  have hpieces := Code.reads_joinStrings (.cons hmethod (.cons hargs (.cons hparser hlines)))
  have hclose : Code.Reads [')'] [.symbol ')'] := Code.Reads.plain (by decide)
  have hopen := Code.Reads.symbol (c := '(') (by decide) (by decide) (by decide)
    (hpieces.append hclose (Code.endsName_cons (by decide) _))
  have hwrapper : Code.Reads "hydra_wrapper".toList [.name "hydra_wrapper"] :=
    Code.Reads.plain (by decide)
  have hall := hwrapper.append hopen (Code.endsName_cons (by decide) _)
  have hfront : "hydra_wrapper(".toList = "hydra_wrapper".toList ++ ['('] := rfl
  have hend : ")".toList = [')'] := rfl
  refine ⟨lines, Code.Reads.tokens_eq ?_, hsettings⟩
  rw [invocation, hflag]
  simpa only [String.toList_append, hfront, hend, List.append_assoc, List.cons_append,
    List.nil_append, commas] using hall

/-- The call of the wrapper looks up nothing by itself if the settings are identifiers. -/
theorem lookups_wrapper {command : Command} {flag : Interface.Flag}
    (hflag : command.flag? Marker.hydraName = some flag)
    (h : Text.isIdentifier command.name.toList = true)
    (hkeys : ∀ entry ∈ flag.values, Text.isIdentifier entry.1.toList = true) :
    lookups (tokens (invocation command)) = [] := by
  obtain ⟨lines, htokens, hsettings⟩ := exists_tokens_wrapper hflag h hkeys
  have hquiet : Code.Quiet [.name "create_parser", .symbol '(', .symbol ')'] := by simp [Code.Quiet]
  have hlast : ∀ line ∈ [.name "create_parser", .symbol '(', .symbol ')'] :: lines,
      Code.Complete line ∧ lookups line = [] :=
    List.forall_mem_cons.mpr ⟨⟨hquiet.complete, hquiet.lookups_eq⟩,
      fun line hl => ⟨(hsettings line hl).complete, (hsettings line hl).lookups⟩⟩
  have hnothing : ([.name "create_parser", .symbol '(', .symbol ')'] :: lines).flatMap lookups = [] :=
    List.flatMap_eq_nil_iff.mpr fun line hl => (hlast line hl).2
  rw [htokens, Code.lookups_name_symbol _ (by decide), Code.lookups_name_symbol _ (by decide),
    Code.lookups_name_symbol _ (by decide), Code.lookups_name_symbol _ (by decide),
    Code.lookups_commas_append (fun line hl => (hlast line hl).1), hnothing, Code.lookups_symbol, lookups,
    List.append_nil]

/-- The call of the wrapper calls no function besides the wrapper itself, the one that builds the parser and
those that a value is written with. -/
theorem calls_wrapper_eq_false {command : Command} {flag : Interface.Flag}
    (hflag : command.flag? Marker.hydraName = some flag)
    (h : Text.isIdentifier command.name.toList = true)
    (hkeys : ∀ entry ∈ flag.values, Text.isIdentifier entry.1.toList = true) {name : String}
    (hname : name ∉ [wrapperName, "create_parser"]) (hvalue : ¬Code.ValueWord name) :
    calls name (tokens (invocation command)) = false := by
  simp only [List.mem_cons, List.not_mem_nil, or_false, not_or] at hname
  obtain ⟨lines, htokens, hsettings⟩ := exists_tokens_wrapper hflag h hkeys
  have hparser : Code.Uncalled name [.name "create_parser", .symbol '(', .symbol ')'] :=
    Code.Uncalled.of_not_mem (by simp [hname.2])
  have hlines : ∀ line ∈ [.name "create_parser", .symbol '(', .symbol ')'] :: lines, Code.Uncalled name line :=
    List.forall_mem_cons.mpr ⟨hparser, fun line hl => (hsettings line hl).uncalled name hvalue⟩
  have hend : ∀ dotted, Code.callsBehind name dotted [.symbol ')'] = false :=
    Code.callsBehind_eq_false name _ (by simp)
  have hwrapper : ("hydra_wrapper" == name) = false := beq_eq_false_iff_ne.mpr (Ne.symm hname.1)
  rw [htokens, calls, Code.callsBehind_name_symbol, Code.callsBehind_name_symbol,
    Code.callsBehind_name_symbol, Code.callsBehind_name_symbol, Code.Uncalled.commas hlines _ _ hend, hwrapper]
  simp

/-- An arm without a configuration looks up the constructor's arguments and then the method's. -/
theorem armOf_plain {m : Module} (h : Named m) {command : Command} (hc : command ∈ m.commands)
    (hf : usesHydra command = false) :
    armOf (commandName command.name, armSuite m command)
      = ⟨commandName command.name, m.args.map (·.destination) ++ command.args.map (·.destination),
          m.name == wrapperName⟩ := by
  have hname := h.commandName command hc
  have hargs := h.commandArgs command hc
  simp [armOf, armSuite, Statement.leaf, Statement.text, lookups_construction h, lookups_invocation hf hname hargs,
    calls_construction h, calls_invocation hf hname hargs]

/-- An arm with a configuration calls the wrapper. -/
theorem armOf_wrapped (m : Module) {command : Command} (hf : usesHydra command = true) :
    (armOf (commandName command.name, armSuite m command)).wrapped = true := by
  simp [armOf, armSuite, Statement.leaf, Statement.text, calls_wrapper hf]

/-- An arm with a configuration looks up the constructor's arguments. -/
theorem armOf_keys {m : Module} (h : Named m) {command : Command} (hc : command ∈ m.commands)
    {flag : Interface.Flag} (hflag : command.flag? Marker.hydraName = some flag)
    (hkeys : ∀ entry ∈ flag.values, Text.isIdentifier entry.1.toList = true) :
    (armOf (commandName command.name, armSuite m command)).keys = m.args.map (·.destination) := by
  have hname := h.commandName command hc
  simp [armOf, armSuite, Statement.leaf, Statement.text, lookups_construction h,
    lookups_wrapper hflag hname hkeys]

end ClassCli.Synthesis
