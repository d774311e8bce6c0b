import ClassCli.Proofs.Code.Running
import ClassCli.Proofs.Synthesis.SetupLevels
import ClassCli.Proofs.Text.Splitting

/-!
# Reading the registrations of the setup file

Every command is registered under a string, its arguments are declared by a helper, and its parser may
be handed through the runtime's function for configurations. Here this is read off the lines of the
file: the helpers in front of the registration of a module belong to its commands, in order.

* **`registrations`**, **`registeredModules`** — what is read.
* **`registrations_setupParser`** — the registrations are those of the commands, module by module.
-/

namespace ClassCli.Synthesis

open Interface (Argument Collection Command Module)
open Code (Line Token Statement gap header nest scan tokens)
open Code.Statement (linesAll SolidAll)
open Text (lowerString)

/-! ## Reading -/

/-- What the setup file says about one command. -/
structure Registration where
  /-- The string that is typed for it. -/
  name : String
  /-- The names under which its helper stores arguments. -/
  destinations : List String
  /-- Whether its parser is handed through the function for configurations. -/
  configured : Bool
  deriving DecidableEq, Repr, Inhabited

/-- The tokens of a line behind its first word. -/
def tokensBehind (text : String) : List Token := scan .between (text.toList.dropWhile (· != ' '))

/-- The name that is given first to `add_parser`, with or without its keyword. -/
def givenName? : List Token → Option String
  | .string name :: _ => some name
  | .name "name" :: .symbol '=' :: .string name :: _ => some name
  | _ => none

/-- The string under which a line registers a parser with a receiver. -/
def registered? (receiver text : String) : Option String :=
  match tokensBehind text with
  | .symbol '=' :: .name subject :: .symbol '.' :: .name "add_parser" :: .symbol '(' :: given =>
    if subject = receiver then givenName? given else none
  | _ => none

/-- The string under which a line registers a command. -/
def registeredCommand? : String → Option String := registered? "command_subparser"

/-- The string under which a line registers a module. -/
def registeredModule? : String → Option String := registered? "module_subparser"

/-- The name under which a line declares that an argument is stored. -/
def declaredDestination? (text : String) : Option String :=
  match tokens text with
  | .name "parser" :: .symbol '.' :: .name "add_argument" :: .symbol '(' :: .string _ :: .symbol ','
      :: .name "dest" :: .symbol '=' :: .string destination :: _ => some destination
  | _ => none

/-- The line that hands a parser through the function for configurations. -/
def configuredLine (parser : String) : String :=
  parser ++ " = add_hydra_parser(" ++ parser ++ ")"

/-- A line that registers a command and the lines about it. -/
structure Entry where
  name : String
  /-- The variable that holds the parser. -/
  parser : String
  about : List String
  deriving DecidableEq, Repr, Inhabited

/-- The commands that a body registers, each with the lines up to the next one. -/
def entries : List String → List Entry
  | [] => []
  | text :: rest =>
    match registeredCommand? text with
    | some name =>
      ⟨name, String.ofList (firstWord text), rest.takeWhile (registeredCommand? · == none)⟩ :: entries rest
    | none => entries rest

/-- What a helper and an entry say about a command. -/
def registrationOf (helper : Statement) (entry : Entry) : Registration where
  name := entry.name
  destinations := helper.suite.filterMap (declaredDestination? ·.text)
  configured := entry.about.contains (configuredLine entry.parser)

/-- Whether a statement is a function. -/
def isFunction (tree : Statement) : Bool := firstWord tree.text == "def".toList

/-- Whether a function declares arguments. -/
def isHelper (tree : Statement) : Bool := "def add_".toList.isPrefixOf tree.text.toList

/-- Functions, each with the helpers that stand between it and the one before. -/
def sections : List Statement → List Statement → List (List Statement × Statement)
  | _, [] => []
  | pending, tree :: rest =>
    if isHelper tree then sections (pending ++ [tree]) rest else (pending, tree) :: sections [] rest

/-- The registrations of commands, module by module. The last function registers everything. -/
def registrations (lines : List Line) : List (List Registration) :=
  (sections [] ((nest lines).filter isFunction)).dropLast.map fun (helpers, function) =>
    List.zipWith registrationOf helpers (entries (function.suite.map (·.text)))

/-- The strings under which modules are registered. -/
def registeredModules (lines : List Line) : List String :=
  ((Code.body? "setup_parser" lines).getD []).filterMap (registeredModule? ·.text)

/-! ## The file as statements -/

/-- The function that declares the arguments of a command. -/
def helperTree (m : Module) (command : Command) : Statement :=
  .node (header (helperName m command) parserParams parserType)
    ((helperBody m command).map .leaf)

/-- The function that registers the commands of a module. -/
def registrationTree (m : Module) : Statement :=
  .node (header (registrationName m) parserParams parserType) ((registrationBody m).map .leaf)

/-- The functions of a module. -/
def moduleTrees (m : Module) : List Statement := m.commands.map (helperTree m) ++ [registrationTree m]

/-- The function that registers everything. -/
def topTree (modules : List Module) : Statement :=
  .node (header "setup_parser" parserParams parserType) ((topBody modules).map .leaf)

/-- The setup file as statements. -/
def setupTrees (runtime : String) (collection : Collection) : List Statement :=
  (setupImports runtime collection).map .leaf ++ collection.modules.flatMap moduleTrees
    ++ [topTree collection.modules]

theorem topBody_ne_empty (modules : List Module) : "" ∉ topBody modules := by
  match modules with
  | [] => simp [topBody]
  | [m] =>
    simp only [topBody, List.mem_cons, List.not_mem_nil, or_false, not_or]
    exact ⟨Ne.symm (append_ne_empty_right _ (by decide)), by decide⟩
  | first :: second :: rest =>
    simp only [topBody, List.mem_append, List.mem_cons, List.mem_flatMap, List.not_mem_nil, or_false,
      not_or]
    refine ⟨⟨by simp [moduleOpeningLine], ?_⟩, by decide⟩
    rintro ⟨m, -, h⟩
    exact moduleLines_ne_empty m _ h

theorem functionTree_solid {name : String} {body : List String} (h : "" ∉ body) :
    (Statement.node (header name parserParams parserType) (body.map .leaf)).Solid :=
  ⟨Code.header_ne_empty _ _ _, Code.solidAll_leaves h⟩

theorem filter_functionLines {name : String} {body : List String} (h : "" ∉ body) :
    (Code.functionLines (header name parserParams parserType) body).filter (!·.isBlank)
      = linesAll 0 [.node (header name parserParams parserType) (body.map .leaf)] := by
  rw [Code.functionLines_eq_linesAll]
  exact Code.filter_linesAll 0 ⟨functionTree_solid h, trivial⟩

theorem filter_helperSection (m : Module) (commands : List Command) :
    (commands.flatMap fun command => helperLines m command ++ gap).filter (!·.isBlank)
      = linesAll 0 (commands.map (helperTree m)) := by
  induction commands with
  | nil => rfl
  | cons command rest ih =>
    rw [List.flatMap_cons, List.filter_append, List.filter_append, Code.filter_gap, List.append_nil, ih,
      helperLines, filter_functionLines (helperBody_ne_empty m command), ← Statement.linesAll_append]
    rfl

theorem filter_moduleSections (modules : List Module) :
    (modules.flatMap moduleSection).filter (!·.isBlank) = linesAll 0 (modules.flatMap moduleTrees) := by
  induction modules with
  | nil => rfl
  | cons m rest ih =>
    have hmodule : (moduleSection m).filter (!·.isBlank) = linesAll 0 (moduleTrees m) := by
      rw [moduleSection, List.filter_append, List.filter_append, Code.filter_gap, List.append_nil,
        helperSection, filter_helperSection, registrationLines,
        filter_functionLines (registrationBody_ne_empty m), ← Statement.linesAll_append]
      rfl
    rw [List.flatMap_cons, List.filter_append, hmodule, ih, ← Statement.linesAll_append, List.flatMap_cons]

theorem setupTrees_solid (runtime : String) (collection : Collection) :
    SolidAll (setupTrees runtime collection) := by
  have himports := Code.solidAll_leaves (setupImports_ne_empty runtime collection)
  have htop : (topTree collection.modules).Solid := functionTree_solid (topBody_ne_empty _)
  have hmodules : SolidAll (collection.modules.flatMap moduleTrees) := by
    refine (Statement.solidAll_iff _).mpr ?_
    intro tree ht
    obtain ⟨m, -, ht⟩ := List.mem_flatMap.mp ht
    rcases List.mem_append.mp ht with ht | ht
    · obtain ⟨command, -, rfl⟩ := List.mem_map.mp ht
      exact functionTree_solid (helperBody_ne_empty m command)
    · obtain rfl := List.mem_singleton.mp ht
      exact functionTree_solid (registrationBody_ne_empty m)
  simp [setupTrees, himports, hmodules, htop]

/-- The lines of the setup file that are not blank are written statements. -/
theorem filter_plainSetupFile (runtime : String) (collection : Collection) :
    (plainSetupFile runtime collection).filter (!·.isBlank)
      = linesAll 0 (setupTrees runtime collection) := by
  have himports : (importSection (setupImports runtime collection)).filter (!·.isBlank)
      = linesAll 0 ((setupImports runtime collection).map .leaf) := by
    rw [importSection, ← Statement.linesAll_leaves, List.filter_append, Code.filter_gap, List.append_nil]
    exact Code.filter_linesAll 0 (Code.solidAll_leaves (setupImports_ne_empty runtime collection))
  rw [plainSetupFile, List.filter_append, List.filter_append, himports, filter_moduleSections, topLines,
    filter_functionLines (topBody_ne_empty _), ← Statement.linesAll_append, ← Statement.linesAll_append]
  rfl

/-- **The setup file read as statements**: the imports, the functions of the modules and the one that
registers everything. -/
theorem nest_plainSetupFile (runtime : String) (collection : Collection) :
    nest (plainSetupFile runtime collection) = setupTrees runtime collection :=
  Code.nest_of_filter 0 (setupTrees_solid runtime collection) (filter_plainSetupFile runtime collection)

/-! ## Functions and their helpers -/

theorem toList_header (name : String) (params : List (String × String)) (returns : Option String) :
    ∃ rest, (header name params returns).toList = "def ".toList ++ (name.toList ++ rest) := by
  simp only [header, String.toList_append, List.append_assoc]
  exact ⟨_, rfl⟩

theorem isFunction_node_header (name : String) (params : List (String × String)) (returns : Option String)
    (suite : List Statement) : isFunction (.node (header name params returns) suite) = true := by
  obtain ⟨rest, hrest⟩ := toList_header name params returns
  rw [isFunction, Statement.text, firstWord, hrest]
  rfl

/-- Imports are no functions. -/
theorem filter_isFunction_imports {texts : List String} (h : ∀ text ∈ texts, isImport text = true) :
    (texts.map Statement.leaf).filter isFunction = [] := by
  refine List.filter_eq_nil_iff.mpr ?_
  intro tree ht
  obtain ⟨text, htext, rfl⟩ := List.mem_map.mp ht
  have hfrom : firstWord text = "from".toList := eq_of_beq (h text htext)
  rw [isFunction, Statement.leaf, Statement.text, hfrom]
  decide

theorem isHelper_helperTree (m : Module) (command : Command) :
    isHelper (helperTree m command) = true := by
  obtain ⟨rest, hrest⟩ := toList_header (helperName m command) parserParams parserType
  have hname : (helperName m command).toList = "add_".toList
      ++ ((lowerString m.name ++ "_" ++ variableName command.name) ++ "_args").toList := by
    rw [helperName, String.append_assoc, String.toList_append]
  have hprefix : "def add_".toList = "def ".toList ++ "add_".toList := rfl
  rw [isHelper, helperTree, Statement.text, hrest, hname, hprefix, List.isPrefixOf_iff_prefix,
    List.append_assoc, ← List.append_assoc]
  exact List.prefix_append _ _

theorem isHelper_registrationTree (m : Module) : isHelper (registrationTree m) = false := by
  obtain ⟨rest, hrest⟩ := toList_header (registrationName m) parserParams parserType
  have hname : (registrationName m).toList
      = "setup_".toList ++ (lowerString m.name ++ "_parser").toList := by
    rw [registrationName, String.append_assoc, String.toList_append]
  rw [isHelper, registrationTree, Statement.text, hrest, hname]
  rfl

theorem isHelper_topTree (modules : List Module) : isHelper (topTree modules) = false := by
  obtain ⟨rest, hrest⟩ := toList_header "setup_parser" parserParams parserType
  rw [isHelper, topTree, Statement.text, hrest]
  rfl

/-- Helpers wait for the function that they belong to. -/
theorem sections_helpers (m : Module) (commands : List Command) (rest : List Statement) :
    ∀ pending, sections pending (commands.map (helperTree m) ++ rest)
      = sections (pending ++ commands.map (helperTree m)) rest := by
  induction commands with
  | nil => simp
  | cons command others ih =>
    intro pending
    rw [List.map_cons, List.cons_append, sections, isHelper_helperTree, if_pos rfl, ih,
      List.append_assoc, List.singleton_append]

theorem sections_modules (modules : List Module) (top : Statement) (htop : isHelper top = false) :
    sections [] (modules.flatMap moduleTrees ++ [top])
      = modules.map (fun m => (m.commands.map (helperTree m), registrationTree m)) ++ [([], top)] := by
  induction modules with
  | nil => simp [sections, htop]
  | cons m rest ih =>
    rw [List.flatMap_cons, moduleTrees, List.append_assoc, List.append_assoc, sections_helpers,
      List.singleton_append, sections, isHelper_registrationTree]
    simp [ih]

theorem filter_isFunction_setupTrees (runtime : String) (collection : Collection) :
    (setupTrees runtime collection).filter isFunction
      = collection.modules.flatMap moduleTrees ++ [topTree collection.modules] := by
  have himports : ((setupImports runtime collection).map Statement.leaf).filter isFunction = [] :=
    filter_isFunction_imports isImport_of_mem_setupImports
  have hmodules : (collection.modules.flatMap moduleTrees).filter isFunction
      = collection.modules.flatMap moduleTrees := by
    refine List.filter_eq_self.mpr ?_
    intro tree ht
    obtain ⟨m, -, ht⟩ := List.mem_flatMap.mp ht
    rcases List.mem_append.mp ht with ht | ht
    · obtain ⟨command, -, rfl⟩ := List.mem_map.mp ht
      exact isFunction_node_header _ _ _ _
    · obtain rfl := List.mem_singleton.mp ht
      exact isFunction_node_header _ _ _ _
  have htop : isFunction (topTree collection.modules) = true := isFunction_node_header _ _ _ _
  rw [setupTrees, List.filter_append, List.filter_append, himports, hmodules, List.nil_append]
  simp [htop]

/-! ## Lines -/

theorem tokensBehind_append {word rest : String} {more : List Char} (h : Unbroken word)
    (hr : rest.toList = ' ' :: more) : tokensBehind (word ++ rest) = scan .between more := by
  rw [tokensBehind, String.toList_append, List.dropWhile_append_of_pos h.ne_space, hr]
  simp [Code.scan_space]

theorem exists_join_cons (separator first : List Char) (rest : List (List Char)) :
    ∃ more, Text.join separator (first :: rest) = first ++ more := by
  cases rest with
  | nil => exact ⟨[], by simp [Text.join]⟩
  | cons next others => exact ⟨_, by rw [Text.join_cons_cons, List.append_assoc]⟩

/-- The options of a declaration start with the option that is typed and the destination. -/
theorem toList_options (arg : Argument) :
    ∃ more, (options arg).toList = (Code.quote ("--" ++ arg.name)).toList
      ++ (", dest=".toList ++ ((Code.quote arg.destination).toList ++ more)) := by
  have hlist : optionList arg = Code.quote ("--" ++ arg.name) :: ("dest=" ++ Code.quote arg.destination)
      :: (readingOptions arg ++ ["help=" ++ help arg.help] ++ absenceOptions arg) := by
    simp only [optionList, List.cons_append, List.nil_append]
  obtain ⟨more, hmore⟩ := exists_join_cons ", ".toList ("dest=" ++ Code.quote arg.destination).toList
    ((readingOptions arg ++ ["help=" ++ help arg.help] ++ absenceOptions arg).map String.toList)
  have hkeyword : ("dest=" ++ Code.quote arg.destination).toList
      = "dest=".toList ++ (Code.quote arg.destination).toList := String.toList_append
  have hdest : ", dest=".toList = ", ".toList ++ "dest=".toList := rfl
  refine ⟨more, ?_⟩
  rw [options, Text.joinStrings, String.toList_ofList, hlist, List.map_cons, List.map_cons,
    Text.join_cons_cons, hmore, hkeyword, hdest]
  simp only [List.append_assoc]

theorem toList_argumentLine (arg : Argument) :
    (argumentLine arg).toList = "parser.add_argument(".toList ++ ((options arg).toList ++ ")".toList) := by
  unfold argumentLine
  generalize options arg = text
  simp only [String.toList_append, List.append_assoc]

/-- A declaration gives the option that is typed and then the destination. -/
theorem exists_tokens_argumentLine (arg : Argument) :
    ∃ more, tokens (argumentLine arg) = .name "parser" :: .symbol '.' :: .name "add_argument"
      :: .symbol '(' :: .string ("--" ++ arg.name) :: .symbol ',' :: .name "dest" :: .symbol '='
      :: .string arg.destination :: more := by
  obtain ⟨rest, hrest⟩ := toList_options arg
  obtain ⟨more, hmore⟩ : ∃ more, more = rest ++ ")".toList := ⟨_, rfl⟩
  have hopen : scan .between "parser.add_argument(".toList
      = [.name "parser", .symbol '.', .name "add_argument", .symbol '('] := by decide +kernel
  have hdest : scan .between ", dest=".toList = [.symbol ',', .name "dest", .symbol '='] := by
    decide +kernel
  have hfirst : Code.EndsName ((Code.quote ("--" ++ arg.name)).toList
      ++ (", dest=".toList ++ ((Code.quote arg.destination).toList ++ more))) := by
    rw [Code.quote, String.toList_ofList]
    exact Code.endsName_cons (by decide) _
  have hsecond : Code.EndsName ((Code.quote arg.destination).toList ++ more) := by
    rw [Code.quote, String.toList_ofList]
    exact Code.endsName_cons (by decide) _
  refine ⟨scan .between more, ?_⟩
  rw [tokens, toList_argumentLine, hrest, List.append_assoc, List.append_assoc, List.append_assoc,
    ← hmore, Code.scan_append hfirst _ (by decide) .between trivial, hopen, Code.scan_quote,
    Code.scan_append hsecond _ (by decide) .between trivial, hdest, Code.scan_quote]
  rfl

/-- **A declaration names the destination of its argument.** -/
theorem declaredDestination?_argumentLine (arg : Argument) :
    declaredDestination? (argumentLine arg) = some arg.destination := by
  obtain ⟨more, htokens⟩ := exists_tokens_argumentLine arg
  rw [declaredDestination?, htokens]
  rfl

theorem declaredDestination?_return : declaredDestination? "return parser" = none := by
  decide +kernel

/-- What is read off a helper line by line, where every declaration tells something about its argument
and the last line tells nothing. -/
theorem filterMap_helperTree {α : Type} {read : String → Option α} {told : Argument → α}
    (hargs : ∀ arg, read (argumentLine arg) = some (told arg)) (hreturn : read "return parser" = none)
    (m : Module) (command : Command) :
    (helperTree m command).suite.filterMap (read ·.text)
      = command.args.map told ++ m.args.map told := by
  have hlines : ∀ args : List Argument, (args.map argumentLine).filterMap read = args.map told := by
    intro args
    have hread : read ∘ argumentLine = fun arg => some (told arg) := funext hargs
    rw [List.filterMap_map, hread, List.filterMap_eq_map']
  have htexts : (helperTree m command).suite.filterMap (read ·.text)
      = (helperBody m command).filterMap read := by
    rw [helperTree, Statement.suite, List.filterMap_map]
    rfl
  rw [htexts, helperBody, List.filterMap_append, List.filterMap_append, hlines, hlines,
    List.filterMap_cons_none hreturn, List.filterMap_nil, List.append_nil]

/-- A helper declares the arguments of the command and of the constructor. -/
theorem destinations_helperTree (m : Module) (command : Command) :
    (helperTree m command).suite.filterMap (declaredDestination? ·.text)
      = command.args.map (·.destination) ++ m.args.map (·.destination) :=
  filterMap_helperTree declaredDestination?_argumentLine declaredDestination?_return m command

theorem head?_append {front : String} {c : Char} (h : front.toList.head? = some c) (rest : String) :
    (front ++ rest).toList.head? = some c := by
  rw [String.toList_append, List.head?_append, h]
  rfl

/-- What a line assigns is read behind its variable. -/
theorem tokensBehind_assign {word value : String} (h : Unbroken word) {c : Char}
    (hv : value.toList.head? = some c) (hc : Code.isNameChar c = true) :
    ∃ name others, tokensBehind (word ++ (" = " ++ value))
      = .symbol '=' :: .name (String.ofList (c :: name)) :: others := by
  obtain ⟨rest, hrest⟩ := List.head?_eq_some_iff.mp hv
  have hequals : " = ".toList = [' ', '=', ' '] := rfl
  have htext : (" = " ++ value).toList = ' ' :: '=' :: ' ' :: c :: rest := by
    rw [String.toList_append, hequals, hrest]
    rfl
  obtain ⟨name, others, hname⟩ := Code.exists_scan_letter hc rest
  refine ⟨name, others, ?_⟩
  rw [tokensBehind_append h htext, ← hname]
  rfl

/-- A line that assigns something else registers nothing. -/
theorem registered?_assign {receiver word value : String} (h : Unbroken word) {c : Char}
    (hv : value.toList.head? = some c) (hc : Code.isNameChar c = true)
    (hne : receiver.toList.head? ≠ some c) : registered? receiver (word ++ (" = " ++ value)) = none := by
  obtain ⟨name, others, htokens⟩ := tokensBehind_assign h hv hc
  rw [registered?, htokens]
  split
  · rename_i subject given heq
    simp only [List.cons.injEq, Token.name.injEq, true_and] at heq
    have hsubject : subject ≠ receiver := by
      rintro rfl
      rw [← heq.1, String.toList_ofList] at hne
      exact hne rfl
    rw [if_neg hsubject]
  · rfl

/-- A line that registers a parser names it. -/
theorem registered?_add {receiver word front : String} (more : List Char) {given : List Token}
    (h : Unbroken word) (hfront : front.toList = ' ' :: more) (hplain : '\x27' ∉ more)
    (hmore : scan .between more = .symbol '=' :: .name receiver :: .symbol '.' :: .name "add_parser"
      :: .symbol '(' :: given)
    (hgiven : ∀ name others, givenName? (given ++ .string name :: others) = some name)
    (name tail : String) :
    registered? receiver (word ++ (front ++ (Code.quote name ++ tail))) = some name := by
  have htext : (front ++ (Code.quote name ++ tail)).toList
      = ' ' :: (more ++ ((Code.quote name).toList ++ tail.toList)) := by
    rw [String.toList_append, String.toList_append, hfront, List.cons_append]
  have hend : Code.EndsName ((Code.quote name).toList ++ tail.toList) := by
    rw [Code.quote, String.toList_ofList]
    exact Code.endsName_cons (by decide) _
  have htokens : tokensBehind (word ++ (front ++ (Code.quote name ++ tail)))
      = .symbol '=' :: .name receiver :: .symbol '.' :: .name "add_parser" :: .symbol '('
        :: (given ++ .string name :: scan .between tail.toList) := by
    rw [tokensBehind_append h htext, Code.scan_append hend more hplain .between trivial, hmore,
      Code.scan_quote]
    rfl
  have hread : ∀ rest, (match Token.symbol '=' :: .name receiver :: .symbol '.' :: .name "add_parser"
      :: .symbol '(' :: rest with
    | .symbol '=' :: .name subject :: .symbol '.' :: .name "add_parser" :: .symbol '(' :: given =>
      if subject = receiver then givenName? given else none
    | _ => none) = givenName? rest := by
    intro rest
    simp
  rw [registered?, htokens, hread, hgiven]

/-! ## Commands of a module -/

/-- The variable that holds the parser of a command. -/
def parserName (command : Command) : String := variableName command.name ++ "_parser"

theorem unbroken_parserName {command : Command} (h : Unbroken (variableName command.name)) :
    Unbroken (parserName command) := by
  have hword : Unbroken "_parser" := by decide
  exact h.append hword

/-- The line that registers a command. -/
def commandLine (command : Command) : String :=
  parserName command ++ (" = command_subparser.add_parser("
    ++ (Code.quote (commandName command.name) ++ (", help=" ++ help command.help ++ ")")))

/-- The lines about a command that is registered. -/
def aboutLines (m : Module) (command : Command) : List String :=
  (parserName command ++ (" = " ++ (helperName m command ++ "(" ++ parserName command ++ ")")))
    :: if usesHydra command then [configuredLine (parserName command)] else []

theorem registration_eq (m : Module) (command : Command) :
    registration m command = commandLine command :: aboutLines m command := by
  unfold registration CommandParser.commandLines commandLine aboutLines configuredLine parserName
  simp only [String.append_assoc]
  split
  · rfl
  · rfl

theorem registeredCommand?_commandLine {command : Command}
    (h : Unbroken (variableName command.name)) :
    registeredCommand? (commandLine command) = some (commandName command.name) := by
  have hmore : scan .between "= command_subparser.add_parser(".toList = .symbol '='
      :: .name "command_subparser" :: .symbol '.' :: .name "add_parser" :: .symbol '(' :: [] := by
    decide +kernel
  exact registered?_add "= command_subparser.add_parser(".toList (unbroken_parserName h) rfl
    (by decide) hmore (fun _ _ => rfl) _ _

theorem registeredCommand?_aboutLines (m : Module) {command : Command}
    (h : Unbroken (variableName command.name)) :
    ∀ text ∈ aboutLines m command, registeredCommand? text = none := by
  have hreceiver : "command_subparser".toList.head? ≠ some 'a' := by decide
  intro text ht
  rcases List.mem_cons.mp ht with rfl | ht
  · refine registered?_assign (unbroken_parserName h) ?_ (c := 'a') (by decide) hreceiver
    rw [helperName]
    exact head?_append (head?_append (head?_append (head?_append (head?_append (by decide) _) _) _) _) _
  · split at ht
    · obtain rfl := List.mem_singleton.mp ht
      have hfront : " = add_hydra_parser(" = " = " ++ "add_hydra_parser(" := by decide
      rw [configuredLine, hfront, String.append_assoc, String.append_assoc, String.append_assoc]
      refine registered?_assign (unbroken_parserName h) ?_ (c := 'a') (by decide) hreceiver
      exact head?_append (by decide) _
    · exact absurd ht (by simp)

theorem registeredCommand?_opening : registeredCommand? CommandParser.openingLine = none := by
  decide +kernel

/-- The lines up to the next command are those about the last one, apart from the end of the body. -/
theorem takeWhile_registrations (m : Module) {commands : List Command}
    (h : ∀ command ∈ commands, Unbroken (variableName command.name)) :
    ∀ text ∈ (commands.flatMap (registration m) ++ ["return parser"]).takeWhile
        (registeredCommand? · == none), text = "return parser" := by
  intro text ht
  cases commands with
  | nil =>
    have hsub := (List.takeWhile_sublist _).mem ht
    exact List.mem_singleton.mp hsub
  | cons command rest =>
    have hline := registeredCommand?_commandLine (h command List.mem_cons_self)
    rw [List.flatMap_cons, registration_eq, List.cons_append, List.cons_append, List.takeWhile_cons,
      hline] at ht
    exact absurd ht (by simp)

/-- Lines that register nothing belong to no entry. -/
theorem entries_append {texts : List String} (h : ∀ text ∈ texts, registeredCommand? text = none)
    (rest : List String) : entries (texts ++ rest) = entries rest := by
  induction texts with
  | nil => rfl
  | cons text texts ih =>
    rw [List.cons_append, entries, h text List.mem_cons_self]
    exact ih fun other ho => h other (List.mem_cons_of_mem text ho)

theorem getLast?_append (front : String) {back : String} (h : back ≠ "") :
    (front ++ back).toList.getLast? = back.toList.getLast? := by
  have hne : back.toList ≠ [] := by simpa using h
  rw [String.toList_append, List.getLast?_append, List.getLast?_eq_some_getLast hne]
  rfl

theorem return_ne_configuredLine (parser : String) : "return parser" ≠ configuredLine parser := by
  intro h
  have hend := congrArg (·.toList.getLast?) h
  simp only [configuredLine] at hend
  rw [getLast?_append _ (by decide)] at hend
  exact absurd hend (by decide)

/-- The line that calls a helper hands nothing through. -/
theorem call_ne_configuredLine (m : Module) (command : Command) (parser : String) :
    parser ++ (" = " ++ (helperName m command ++ "(" ++ parser ++ ")")) ≠ configuredLine parser := by
  intro h
  have hfront : " = add_hydra_parser(" = " = add_hydra_parser" ++ "(" := rfl
  rw [configuredLine, hfront] at h
  have hlists := congrArg String.toList h
  simp only [String.toList_append, List.append_assoc] at hlists
  have hnames := List.append_cancel_left hlists
  rw [← List.append_assoc] at hnames
  have hsame := List.append_cancel_right hnames
  rw [← String.toList_append] at hsame
  have hend := congrArg List.getLast? hsame
  rw [getLast?_append _ (by simp [helperName]), helperName, getLast?_append _ (by decide)] at hend
  exact absurd hend (by decide)

/-- The registration of a command, with the arguments that are declared for it. -/
def registrationFor (m : Module) (command : Command) : Registration where
  name := commandName command.name
  destinations := command.args.map (·.destination) ++ m.args.map (·.destination)
  configured := usesHydra command

theorem firstWord_commandLine {command : Command} (h : Unbroken (variableName command.name)) :
    firstWord (commandLine command) = (parserName command).toList := by
  have hspace : ∀ rest, firstWord (" = command_subparser.add_parser(" ++ rest) = [] := by
    intro rest
    rw [firstWord, String.toList_append]
    rfl
  rw [commandLine, firstWord_append (unbroken_parserName h), hspace, List.append_nil]

/-- The lines about a command hand its parser through if the command takes a configuration. -/
theorem contains_configuredLine (m : Module) (command : Command) {others : List String}
    (h : ∀ text ∈ others, text = "return parser") :
    (aboutLines m command ++ others).contains (configuredLine (parserName command))
      = usesHydra command := by
  have hothers : others.contains (configuredLine (parserName command)) = false := by
    rw [← Bool.not_eq_true, List.contains_iff_mem]
    intro hmem
    exact return_ne_configuredLine (parserName command) (h _ hmem).symm
  have hcall : (configuredLine (parserName command) == parserName command
      ++ (" = " ++ (helperName m command ++ "(" ++ parserName command ++ ")"))) = false := by
    rw [beq_eq_false_iff_ne]
    exact Ne.symm (call_ne_configuredLine m command (parserName command))
  unfold aboutLines
  rw [List.cons_append, List.contains_cons, hcall, Bool.false_or]
  cases usesHydra command with
  | true => simp
  | false => simpa using hothers

/-- **The registrations of a module**: each helper goes with the command that it was written for. -/
theorem zipWith_registrations (m : Module) (commands : List Command)
    (h : ∀ command ∈ commands, Unbroken (variableName command.name)) :
    List.zipWith registrationOf (commands.map (helperTree m))
        (entries (commands.flatMap (registration m) ++ ["return parser"]))
      = commands.map (registrationFor m) := by
  induction commands with
  | nil => rfl
  | cons command rest ih =>
    have hc := h command List.mem_cons_self
    have hrest : ∀ other ∈ rest, Unbroken (variableName other.name) :=
      fun other ho => h other (List.mem_cons_of_mem command ho)
    have habout := registeredCommand?_aboutLines m hc
    -- the lines about a command end where the next command is registered
    have hentries : entries ((command :: rest).flatMap (registration m) ++ ["return parser"])
        = ⟨commandName command.name, parserName command, aboutLines m command
            ++ (rest.flatMap (registration m) ++ ["return parser"]).takeWhile
              (registeredCommand? · == none)⟩
          :: entries (rest.flatMap (registration m) ++ ["return parser"]) := by
      have htake : ∀ text ∈ aboutLines m command, (registeredCommand? text == none) = true := by
        intro text ht
        rw [habout text ht]
        rfl
      rw [List.flatMap_cons, registration_eq, List.cons_append, List.cons_append, entries,
        registeredCommand?_commandLine hc, firstWord_commandLine hc, String.ofList_toList,
        List.append_assoc, List.takeWhile_append_of_pos htake, entries_append habout]
    have hfirst : registrationOf (helperTree m command)
        ⟨commandName command.name, parserName command, aboutLines m command
          ++ (rest.flatMap (registration m) ++ ["return parser"]).takeWhile
            (registeredCommand? · == none)⟩ = registrationFor m command := by
      rw [registrationOf, destinations_helperTree,
        contains_configuredLine m command (takeWhile_registrations m hrest)]
      rfl
    rw [hentries, List.map_cons, List.zipWith_cons_cons, hfirst, ih hrest, List.map_cons]

/-- **The registrations of the setup file** are those of the commands, module by module. -/
theorem registrations_plainSetupFile (runtime : String) {collection : Collection}
    (h : ∀ m ∈ collection.modules, Accepted m) :
    registrations (plainSetupFile runtime collection)
      = collection.modules.map fun m => m.commands.map (registrationFor m) := by
  rw [registrations, nest_plainSetupFile, filter_isFunction_setupTrees,
    sections_modules _ _ (isHelper_topTree _), List.dropLast_concat, List.map_map]
  refine List.map_congr_left ?_
  intro m hm
  have htexts : (registrationTree m).suite.map (·.text) = registrationBody m := by
    rw [registrationTree, Statement.suite, List.map_map]
    exact List.map_id _
  have hentries : entries (registrationBody m)
      = entries (m.commands.flatMap (registration m) ++ ["return parser"]) := by
    rw [registrationBody, List.cons_append, entries, registeredCommand?_opening]
  show List.zipWith registrationOf (m.commands.map (helperTree m))
    (entries ((registrationTree m).suite.map (·.text))) = _
  rw [htexts, hentries]
  exact zipWith_registrations m m.commands (h m hm).command

/-! ## Modules -/

/-- The variable that holds the parser of a module. -/
def moduleParserName (m : Module) : String := lowerString m.name ++ "_parser"

theorem unbroken_moduleParserName {m : Module} (h : Unbroken (lowerString m.name)) :
    Unbroken (moduleParserName m) := by
  have hword : Unbroken "_parser" := by decide
  exact h.append hword

/-- The line that registers a module. -/
def moduleLine (m : Module) : String :=
  moduleParserName m ++ (" = module_subparser.add_parser(name="
    ++ (Code.quote m.name ++ (", help=" ++ help m.help ++ ")")))

theorem moduleLines_eq (m : Module) (setupName : String) :
    moduleLines m setupName
      = [moduleLine m,
          moduleParserName m ++ (" = " ++ (setupName ++ "(" ++ moduleParserName m ++ ")"))] := by
  unfold moduleLines moduleLine moduleParserName
  simp only [String.append_assoc]

theorem registeredModule?_moduleLine {m : Module} (h : Unbroken (lowerString m.name)) :
    registeredModule? (moduleLine m) = some m.name := by
  have hmore : scan .between "= module_subparser.add_parser(name=".toList = .symbol '='
      :: .name "module_subparser" :: .symbol '.' :: .name "add_parser" :: .symbol '('
      :: [.name "name", .symbol '='] := by
    decide +kernel
  exact registered?_add "= module_subparser.add_parser(name=".toList (unbroken_moduleParserName h) rfl
    (by decide) hmore (fun _ _ => rfl) _ _

/-- Assigning what a registration returns registers no module. -/
theorem registeredModule?_call {word : String} (h : Unbroken word) (m : Module) (rest : String) :
    registeredModule? (word ++ (" = " ++ (registrationName m ++ rest))) = none := by
  have hreceiver : "module_subparser".toList.head? ≠ some 's' := by decide
  refine registered?_assign h ?_ (c := 's') (by decide) hreceiver
  rw [registrationName]
  exact head?_append (head?_append (head?_append (by decide) _) _) _

theorem registeredModule?_return : registeredModule? "return parser" = none := by decide +kernel

theorem registeredModule?_opening : registeredModule? moduleOpeningLine = none := by decide +kernel

theorem filterMap_moduleLines {modules : List Module}
    (h : ∀ m ∈ modules, Unbroken (lowerString m.name)) :
    (modules.flatMap fun m => moduleLines m (registrationName m)).filterMap registeredModule?
      = modules.map (·.name) := by
  induction modules with
  | nil => rfl
  | cons m rest ih =>
    have hm := h m List.mem_cons_self
    have hcall := registeredModule?_call (unbroken_moduleParserName hm) m
      ("(" ++ (moduleParserName m ++ ")"))
    rw [List.flatMap_cons, List.filterMap_append, moduleLines_eq, String.append_assoc,
      String.append_assoc, List.filterMap_cons_some (registeredModule?_moduleLine hm),
      List.filterMap_cons_none hcall, ih fun other ho => h other (List.mem_cons_of_mem m ho)]
    rfl

/-- **Modules are registered under their names** if there are several. -/
theorem filterMap_topBody {modules : List Module} (h : ∀ m ∈ modules, Accepted m) :
    (topBody modules).filterMap registeredModule? = typedNames modules := by
  match modules, h with
  | [], _ =>
    rw [topBody, List.filterMap_cons_none registeredModule?_return]
    rfl
  | [m], _ =>
    have hword : Unbroken "parser" := by decide
    have hfront : "parser = " = "parser" ++ " = " := rfl
    have hcall := registeredModule?_call hword m "(parser)"
    rw [topBody, hfront, String.append_assoc, String.append_assoc, List.filterMap_cons_none hcall,
      List.filterMap_cons_none registeredModule?_return]
    rfl
  | first :: second :: rest, h =>
    have hmodules := filterMap_moduleLines fun m hm => (h m hm).module
    rw [topBody, List.cons_append, List.filterMap_cons_none registeredModule?_opening,
      List.filterMap_append, hmodules, List.filterMap_cons_none registeredModule?_return,
      List.filterMap_nil, List.append_nil]
    · rfl
    · simp
    · simp

theorem registeredModules_plainSetupFile (runtime : String) {collection : Collection}
    (h : ∀ m ∈ collection.modules, Accepted m) :
    registeredModules (plainSetupFile runtime collection) = typedNames collection.modules := by
  have htop : Code.opens "setup_parser" (topTree collection.modules).text = true := by
    rw [topTree, Statement.text]
    decide +kernel
  have hbody : Code.body? "setup_parser" (plainSetupFile runtime collection)
      = some ((topBody collection.modules).map .leaf) := by
    rw [Code.body?, nest_plainSetupFile, setupTrees, List.reverse_append, List.reverse_singleton,
      List.singleton_append, List.find?_cons, htop]
    rfl
  rw [registeredModules, hbody, Option.getD_some, List.filterMap_map]
  exact filterMap_topBody h

end ClassCli.Synthesis
