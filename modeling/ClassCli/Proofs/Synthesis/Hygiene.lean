import Mathlib.Data.List.DropRight
import ClassCli.Proofs.Code.Scope
import ClassCli.Proofs.Synthesis.Agreement
import ClassCli.Proofs.Synthesis.FunctionNames

/-!
# Local and global names

A generated function that assigns to a name owns it, so that it cannot call a function or a class of the same
name: the call would find the local variable before anything has been assigned to it. In the setup file the
variables are named after commands and modules with an ending, the functions after both with another ending
or with a prefix, and the function of the runtime has the name that it has. Names are compared as they are
written.

* **`Hygienic`** — no function calls a global that it assigns to. What a function calls are globals: its own
  variables hold parsers and objects.
* **`performs_registrationTree`**, **`performs_topTree`** — what the functions that register assign and call.
* **`hygienic_plainSetupFile_iff`** — exactly when the setup file is hygienic.
-/

namespace ClassCli.Synthesis

open Interface (Collection Command Module)
open Code (Does Effect IsName IsWord Line Performs Statement assigned? assignedCall assignedNames callsName
  does_assignedCall does_methodCall does_of_not_mem header nest tokens tokens_assign)
open Text (lowerString)

/-! ## Reading -/

/-- The name that a line imports: its last word. -/
def importedName? (text : String) : Option String :=
  if isImport text then some (String.ofList (text.toList.rtakeWhile (· != ' '))) else none

/-- The names that a file defines or imports at the top level. -/
def globalNames (lines : List Line) : List String :=
  (topTexts lines).filterMap fun text => (definedName? text).or (importedName? text)

/-- A function calls no global that it assigns to. -/
def Clean (globals : List String) (function : Statement) : Prop :=
  ∀ name ∈ assignedNames function, name ∈ globals → callsName function name = false

instance (globals : List String) (function : Statement) : Decidable (Clean globals function) :=
  inferInstanceAs (Decidable (∀ name ∈ assignedNames function, _))

/-- No function of a file calls a global that it assigns to. -/
def Hygienic (lines : List Line) : Prop :=
  ∀ function ∈ (nest lines).filter isFunction, Clean (globalNames lines) function

instance (lines : List Line) : Decidable (Hygienic lines) :=
  inferInstanceAs (Decidable (∀ function ∈ (nest lines).filter isFunction, _))

theorem clean_iff {function : Statement} {effects : List Effect} (h : Performs function effects)
    {globals : List String} :
    Clean globals function
      ↔ ∀ name ∈ effects.filterMap (·.target), name ∈ globals → name ∉ effects.filterMap (·.callee) := by
  rw [Clean, h.assignedNames_eq]
  refine forall₃_congr fun name _ _ => ?_
  rw [← h.callsName_iff, Bool.not_eq_true]

theorem importedName?_append {front name : String} (himport : isImport (front ++ (" " ++ name)) = true)
    (h : ' ' ∉ name.toList) : importedName? (front ++ (" " ++ name)) = some name := by
  have hspace : " ".toList = [' '] := rfl
  have hword : ∀ c ∈ name.toList.reverse, (c != ' ') = true := by
    intro c hc
    rw [bne_iff_ne]
    rintro rfl
    exact h (List.mem_reverse.mp hc)
  have htake : (front ++ (" " ++ name)).toList.rtakeWhile (· != ' ') = name.toList := by
    rw [List.rtakeWhile, String.toList_append, String.toList_append, hspace, List.reverse_append,
      List.reverse_append, List.reverse_singleton, List.append_assoc, List.takeWhile_append_of_pos hword,
      List.singleton_append, List.takeWhile_cons_of_neg (by simp), List.append_nil, List.reverse_reverse]
  rw [importedName?, if_pos himport, htake, String.ofList_toList]

theorem mem_globalNames_of_import {lines : List Line} {text name : String} (h : text ∈ topTexts lines)
    (himport : isImport text = true) (hname : importedName? text = some name) : name ∈ globalNames lines := by
  refine List.mem_filterMap.mpr ⟨text, h, ?_⟩
  rw [definedName?_of_isImport himport, Option.none_or, hname]

theorem mem_globalNames_of_header {lines : List Line} {name : String} {params : List (String × String)}
    {returns : Option String} (h : header name params returns ∈ topTexts lines) (hname : '(' ∉ name.toList) :
    name ∈ globalNames lines := by
  refine List.mem_filterMap.mpr ⟨_, h, ?_⟩
  rw [definedName?_header hname, Option.some_or]

/-! ## Names -/

theorem isWord_lowerString {name : String} (h : Text.isIdentifier name.toList = true) :
    IsWord (lowerString name).toList := by
  rw [lowerString, String.toList_ofList]
  exact Code.isWord_lower (Code.isWord_of_isIdentifier h).2

theorem isName_parserName {command : Command} (h : Text.isIdentifier command.name.toList = true) :
    IsName (parserName command) := by
  rw [parserName, variableName_identifier h]
  exact IsName.append (isWord_lowerString h) (by decide)

theorem isName_moduleParserName {m : Module} (h : Text.isIdentifier m.name.toList = true) :
    IsName (moduleParserName m) :=
  IsName.append (isWord_lowerString h) (by decide)

theorem isName_registrationName {m : Module} (h : Text.isIdentifier m.name.toList = true) :
    IsName (registrationName m) := by
  have hsetup : IsWord "setup_".toList := by decide
  refine IsName.append ?_ (by decide)
  rw [String.toList_append]
  exact hsetup.append (isWord_lowerString h)

theorem isName_helperName {m : Module} (hm : Text.isIdentifier m.name.toList = true) {command : Command}
    (hc : Text.isIdentifier command.name.toList = true) : IsName (helperName m command) := by
  have hadd : IsWord "add_".toList := by decide
  have hunderscore : IsWord "_".toList := by decide
  rw [helperName, variableName_identifier hc]
  refine IsName.append ?_ (by decide)
  rw [String.toList_append, String.toList_append, String.toList_append]
  exact hadd.append (((isWord_lowerString hm).append hunderscore).append (isWord_lowerString hc))

/-- A helper is named like no variable, by the ends of the names. -/
theorem helperName_ne_of_getLast? (m : Module) (command : Command) {name : String}
    (h : name.toList.getLast? = some 'r') : helperName m command ≠ name := by
  rintro rfl
  rw [helperName, getLast?_append _ (by decide)] at h
  exact absurd h (by decide)

theorem getLast?_parserName (command : Command) : (parserName command).toList.getLast? = some 'r' := by
  rw [parserName, getLast?_append _ (by decide)]
  decide

/-- The variable of a command meets the function for configurations. -/
theorem parserName_eq_iff {command : Command} (h : Text.isIdentifier command.name.toList = true) :
    parserName command = "add_hydra_parser" ↔ lowerString command.name = "add_hydra" := by
  have hsplit : "add_hydra_parser" = "add_hydra" ++ "_parser" := by decide
  rw [parserName, variableName_identifier h, hsplit, ← String.toList_inj, String.toList_append,
    String.toList_append, List.append_cancel_right_eq, String.toList_inj]

/-- The variable of a module meets the function that registers the commands of another one. -/
theorem moduleParserName_eq_iff {m other : Module} :
    moduleParserName m = registrationName other
      ↔ lowerString m.name = "setup_" ++ lowerString other.name := by
  rw [moduleParserName, registrationName, ← String.toList_inj, String.toList_append, String.toList_append,
    List.append_cancel_right_eq, String.toList_inj]

/-! ## Functions of the setup file -/

theorem does_return : Does "return parser" .nothing :=
  does_of_not_mem (by decide +kernel) (by decide +kernel)

/-- The tokens of a call that adds a parser under the name that is typed for it. -/
theorem tokens_addParser {front : String} (hfront : '\x27' ∉ front.toList) (typed text : String) :
    tokens (front ++ (Code.quote typed ++ (", help=" ++ help text ++ ")")))
      = tokens front ++ [.string typed, .symbol ',', .name "help", .symbol '=',
          .string (doublePercents text), .symbol ')'] := by
  have hclose : Code.Reads ")".toList [.symbol ')'] := Code.Reads.plain (by decide)
  have hend : Code.EndsName ")".toList := Code.endsName_cons (by decide) _
  have hhelp := Code.reads_quoted ", help=" (by decide) (doublePercents text) hclose hend
  have hkeyword : tokens ", help=" = [.symbol ',', .name "help", .symbol '='] := by decide +kernel
  have hcomma : Code.EndsName (", help=" ++ (Code.quote (doublePercents text) ++ ")")).toList := by
    rw [String.toList_append]
    exact Code.endsName_cons (by decide) _
  have hall := Code.reads_quoted front hfront typed hhelp hcomma
  rw [hkeyword] at hall
  refine Code.Reads.tokens_eq ?_
  rw [help, String.append_assoc]
  exact hall

/-- The line that registers a command assigns to the variable of the command. -/
theorem does_commandLine {command : Command} (h : Text.isIdentifier command.name.toList = true) :
    Does (commandLine command) (.assigns (parserName command)) := by
  have hfront : " = command_subparser.add_parser(" = " = " ++ "command_subparser.add_parser(" := by decide
  have hreceiver : tokens "command_subparser.add_parser("
      = [.name "command_subparser", .symbol '.', .name "add_parser", .symbol '('] := by decide +kernel
  have htokens := tokens_assign (isName_parserName h) ("command_subparser.add_parser("
    ++ (Code.quote (commandName command.name) ++ (", help=" ++ help command.help ++ ")")))
  rw [tokens_addParser (by decide), hreceiver] at htokens
  rw [commandLine, hfront, String.append_assoc]
  exact does_methodCall htokens (by simp)

/-- The line that registers a module assigns to the variable of the module. -/
theorem does_moduleLine {m : Module} (h : Text.isIdentifier m.name.toList = true) :
    Does (moduleLine m) (.assigns (moduleParserName m)) := by
  have hfront : " = module_subparser.add_parser(name="
      = " = " ++ "module_subparser.add_parser(name=" := by decide
  have hreceiver : tokens "module_subparser.add_parser(name=" = [.name "module_subparser", .symbol '.',
      .name "add_parser", .symbol '(', .name "name", .symbol '='] := by decide +kernel
  have htokens := tokens_assign (isName_moduleParserName h) ("module_subparser.add_parser(name="
    ++ (Code.quote m.name ++ (", help=" ++ help m.help ++ ")")))
  rw [tokens_addParser (by decide), hreceiver] at htokens
  rw [moduleLine, hfront, String.append_assoc]
  exact does_methodCall htokens (by simp)

theorem does_opening : Does CommandParser.openingLine (.assigns "command_subparser") := by
  have htokens : tokens CommandParser.openingLine = [.name "command_subparser", .symbol '=', .name "parser",
      .symbol '.', .name "add_subparsers", .symbol '(', .name "dest", .symbol '=', .string "command",
      .symbol ',', .name "title", .symbol '=', .string "command", .symbol ')'] := by decide +kernel
  exact does_methodCall htokens (by simp)

theorem does_moduleOpening : Does moduleOpeningLine (.assigns "module_subparser") := by
  have htokens : tokens moduleOpeningLine = [.name "module_subparser", .symbol '=', .name "parser",
      .symbol '.', .name "add_subparsers", .symbol '(', .name "dest", .symbol '=', .string "module",
      .symbol ',', .name "title", .symbol '=', .string "module", .symbol ')'] := by decide +kernel
  exact does_methodCall htokens (by simp)

theorem assigned?_argumentLine (arg : Interface.Argument) : assigned? (argumentLine arg) = none := by
  obtain ⟨more, htokens⟩ := exists_tokens_argumentLine arg
  rw [assigned?, htokens]
  rfl

/-- The functions that declare arguments assign to nothing. -/
theorem clean_helperTree (globals : List String) (m : Module) (command : Command) :
    Clean globals (helperTree m command) := by
  intro name hname
  obtain ⟨text, ht, hassigned⟩ := List.mem_filterMap.mp hname
  rw [helperTree, Statement.suite, Statement.textsAll_leaves] at ht
  simp only [helperBody, List.mem_append, List.mem_map, List.mem_singleton] at ht
  rcases ht with (⟨arg, -, rfl⟩ | ⟨arg, -, rfl⟩) | rfl
  · rw [assigned?_argumentLine] at hassigned
    cases hassigned
  · rw [assigned?_argumentLine] at hassigned
    cases hassigned
  · rw [does_return.assigned] at hassigned
    cases hassigned

/-- What the lines about a command do where it is registered. -/
def commandEffects (m : Module) (command : Command) : List Effect :=
  .assigns (parserName command) :: .binds (parserName command) (helperName m command)
    :: if usesHydra command then [.binds (parserName command) "add_hydra_parser"] else []

/-- What the function that registers the commands of a module does. -/
def registrationEffects (m : Module) : List Effect :=
  .assigns "command_subparser" :: m.commands.flatMap (commandEffects m) ++ [.nothing]

/-- What the lines about a module do where it is registered. -/
def moduleEffects (m : Module) : List Effect :=
  [.assigns (moduleParserName m), .binds (moduleParserName m) (registrationName m)]

/-- What the function that registers everything does if there are several modules. -/
def severalEffects (modules : List Module) : List Effect :=
  .assigns "module_subparser" :: modules.flatMap moduleEffects ++ [.nothing]

/-- What the function that registers everything does. -/
def topEffects : List Module → List Effect
  | [] => [.nothing]
  | [m] => [.binds "parser" (registrationName m), .nothing]
  | modules => severalEffects modules

theorem configuredLine_eq (parser : String) :
    configuredLine parser = assignedCall parser "add_hydra_parser" parser := by
  have hfront : " = add_hydra_parser(" = " = " ++ ("add_hydra_parser" ++ "(") := by decide
  simp only [configuredLine, assignedCall, hfront, String.append_assoc]

theorem does_registration {m : Module} (hm : Text.isIdentifier m.name.toList = true) {command : Command}
    (hc : Text.isIdentifier command.name.toList = true) :
    List.Forall₂ Does (registration m command) (commandEffects m command) := by
  have hparser := isName_parserName hc
  have hcall : parserName command ++ (" = " ++ (helperName m command ++ "(" ++ parserName command ++ ")"))
      = assignedCall (parserName command) (helperName m command) (parserName command) := by
    simp only [assignedCall, String.append_assoc]
  have hhelper := does_assignedCall hparser (isName_helperName hm hc) hparser
  have hhydra : Does (assignedCall (parserName command) "add_hydra_parser" (parserName command))
      (.binds (parserName command) "add_hydra_parser") := does_assignedCall hparser (by decide) hparser
  rw [registration_eq, aboutLines, hcall, configuredLine_eq, commandEffects]
  refine .cons (does_commandLine hc) (.cons hhelper ?_)
  split
  · exact .cons hhydra .nil
  · exact .nil

theorem does_moduleLines {m : Module} (h : Text.isIdentifier m.name.toList = true) :
    List.Forall₂ Does (moduleLines m (registrationName m)) (moduleEffects m) := by
  have hparser := isName_moduleParserName h
  have hcall : moduleParserName m ++ (" = " ++ (registrationName m ++ "(" ++ moduleParserName m ++ ")"))
      = assignedCall (moduleParserName m) (registrationName m) (moduleParserName m) := by
    simp only [assignedCall, String.append_assoc]
  rw [moduleLines_eq, hcall]
  exact .cons (does_moduleLine h) (.cons (does_assignedCall hparser (isName_registrationName h) hparser) .nil)

theorem performs_registrationTree {m : Module} (h : Named m) :
    Performs (registrationTree m) (registrationEffects m) := by
  have hcommands := Code.forall₂_flatMap (R := Does) fun command hc =>
    does_registration h.name (h.commandName command hc)
  rw [Performs, registrationTree, Statement.suite, Statement.textsAll_leaves]
  exact .cons does_opening (List.rel_append hcommands (.cons does_return .nil))

theorem performs_topTree {modules : List Module} (h : ∀ m ∈ modules, Named m) :
    Performs (topTree modules) (topEffects modules) := by
  rw [Performs, topTree, Statement.suite, Statement.textsAll_leaves]
  rcases modules with _ | ⟨m, _ | ⟨second, rest⟩⟩
  · exact .cons does_return .nil
  · have hcall : "parser = " ++ registrationName m ++ "(parser)"
        = assignedCall "parser" (registrationName m) "parser" := by
      have hfront : "parser = " = "parser" ++ " = " := by decide
      have hback : "(parser)" = "(" ++ ("parser" ++ ")") := by decide
      rw [assignedCall, hfront, hback, String.append_assoc, String.append_assoc]
    have hname := isName_registrationName (h m List.mem_cons_self).name
    rw [topBody, hcall]
    exact .cons (does_assignedCall (by decide) hname (by decide)) (.cons does_return .nil)
  · have hmodules := Code.forall₂_flatMap (R := Does) fun m hm => does_moduleLines (h m hm).name
    exact .cons does_moduleOpening (List.rel_append hmodules (.cons does_return .nil))

/-! ## Where names meet in the setup file -/

theorem mem_targets_registration {m : Module} {name : String} :
    name ∈ (registrationEffects m).filterMap (·.target)
      ↔ name = "command_subparser" ∨ ∃ command ∈ m.commands, name = parserName command := by
  have hcommand : ∀ command, name ∈ (commandEffects m command).filterMap (·.target)
      ↔ name = parserName command := by
    intro command
    unfold commandEffects
    split
    · simp [Effect.assigns, Effect.binds]
    · simp [Effect.assigns, Effect.binds]
  simp only [registrationEffects, Effect.assigns, Effect.nothing, List.filterMap_append, List.filterMap_cons,
    List.filterMap_flatMap, List.filterMap_nil, List.append_nil, List.mem_cons, List.mem_flatMap, hcommand]

theorem mem_callees_registration {m : Module} {name : String} :
    name ∈ (registrationEffects m).filterMap (·.callee)
      ↔ ∃ command ∈ m.commands,
          name = helperName m command ∨ usesHydra command = true ∧ name = "add_hydra_parser" := by
  have hcommand : ∀ command, name ∈ (commandEffects m command).filterMap (·.callee)
      ↔ name = helperName m command ∨ usesHydra command = true ∧ name = "add_hydra_parser" := by
    intro command
    unfold commandEffects
    split
    · simp_all [Effect.assigns, Effect.binds]
    · simp_all [Effect.assigns, Effect.binds]
  simp only [registrationEffects, Effect.assigns, Effect.nothing, List.filterMap_append, List.filterMap_cons,
    List.filterMap_flatMap, List.filterMap_nil, List.append_nil, List.mem_flatMap, hcommand]

/-- **A registration is clean** unless the variable of a command meets the function for configurations. -/
theorem clean_registrationTree_iff {m : Module} (h : Named m) {globals : List String}
    (hg : (∃ command ∈ m.commands, usesHydra command = true) → "add_hydra_parser" ∈ globals) :
    Clean globals (registrationTree m)
      ↔ ((∃ command ∈ m.commands, usesHydra command = true) →
          ∀ command ∈ m.commands, lowerString command.name ≠ "add_hydra") := by
  rw [clean_iff (performs_registrationTree h)]
  constructor
  · rintro hclean ⟨configured, hconfigured, hf⟩ command hc heq
    have hmeets := (parserName_eq_iff (h.commandName command hc)).mpr heq
    refine hclean "add_hydra_parser" (mem_targets_registration.mpr (Or.inr ⟨command, hc, hmeets.symm⟩))
      (hg ⟨configured, hconfigured, hf⟩) (mem_callees_registration.mpr ?_)
    exact ⟨configured, hconfigured, Or.inr ⟨hf, rfl⟩⟩
  · intro hapart name htarget _ hcallee
    obtain ⟨command, hc, rfl | ⟨hf, rfl⟩⟩ := mem_callees_registration.mp hcallee
      -- helpers have an ending of their own
    · rcases mem_targets_registration.mp htarget with heq | ⟨other, -, heq⟩
      · exact helperName_ne_of_getLast? m command (by decide) heq
      · exact helperName_ne_of_getLast? m command (getLast?_parserName other) heq
    · rcases mem_targets_registration.mp htarget with heq | ⟨other, ho, heq⟩
      · exact absurd heq (by decide)
      · exact hapart ⟨command, hc, hf⟩ other ho ((parserName_eq_iff (h.commandName other ho)).mp heq.symm)

theorem mem_targets_several {modules : List Module} {name : String} :
    name ∈ (severalEffects modules).filterMap (·.target)
      ↔ name = "module_subparser" ∨ ∃ m ∈ modules, name = moduleParserName m := by
  simp [severalEffects, moduleEffects, Effect.assigns, Effect.binds, Effect.nothing, List.filterMap_flatMap]

theorem mem_callees_several {modules : List Module} {name : String} :
    name ∈ (severalEffects modules).filterMap (·.callee) ↔ ∃ m ∈ modules, name = registrationName m := by
  simp [severalEffects, moduleEffects, Effect.assigns, Effect.binds, Effect.nothing, List.filterMap_flatMap]

/-- **The function that registers everything is clean** unless the variable of a module meets a
registration. -/
theorem clean_topTree_iff {modules : List Module} (h : ∀ m ∈ modules, Named m) {globals : List String}
    (hg : ∀ m ∈ modules, registrationName m ∈ globals) :
    Clean globals (topTree modules)
      ↔ ∀ m ∈ modules, ∀ other ∈ modules, lowerString m.name ≠ "setup_" ++ lowerString other.name := by
  have hfirst : ∀ m name, name.toList.head? ≠ some 's' → name ≠ registrationName m := by
    rintro m _ hne rfl
    exact hne (head?_registrationName m)
  rw [clean_iff (performs_topTree h)]
  match modules, hg with
  | [], _ => simp [topEffects, Effect.nothing]
  | [m], _ =>
    have hlength : lowerString m.name ≠ "setup_" ++ lowerString m.name := by
      intro heq
      have hlengths := congrArg String.length heq
      have hsetup : "setup_".length = 6 := rfl
      rw [String.length_append, hsetup] at hlengths
      omega
    have hparser := hfirst m "parser" (by decide)
    simp [topEffects, Effect.nothing, Effect.binds, hlength, hparser]
  | first :: second :: rest, hg =>
    have hopening : ∀ m, "module_subparser" ≠ registrationName m := fun m => hfirst m _ (by decide)
    constructor
    · intro hclean m hm other ho heq
      have hmeets := moduleParserName_eq_iff.mpr heq
      exact hclean _ (mem_targets_several.mpr (Or.inr ⟨m, hm, hmeets.symm⟩)) (hg other ho)
        (mem_callees_several.mpr ⟨other, ho, rfl⟩)
    · intro hapart name htarget _ hcallee
      obtain ⟨other, ho, rfl⟩ := mem_callees_several.mp hcallee
      rcases mem_targets_several.mp htarget with heq | ⟨m, hm, heq⟩
      · exact hopening other heq.symm
      · exact hapart m hm other ho (moduleParserName_eq_iff.mp heq.symm)

/-- The function for configurations is a global if a command takes one. -/
theorem hydra_mem_globalNames {runtime : String} {collection : Collection}
    (h : ∃ m ∈ collection.modules, ∃ command ∈ m.commands, usesHydra command = true) :
    "add_hydra_parser" ∈ globalNames (plainSetupFile runtime collection) := by
  have hany : anyHydra collection = true := by
    simpa only [anyHydra, List.any_eq_true] using h
  have hopens : isImport (configurationImport runtime) = true := by
    rw [configurationImport, String.append_assoc]
    exact isImport_from _
  have hsplit : configurationImport runtime
      = "from " ++ (runtime ++ ".api.hydra import") ++ (" " ++ "add_hydra_parser") := by
    have hback : ".api.hydra import add_hydra_parser"
        = ".api.hydra import" ++ (" " ++ "add_hydra_parser") := by decide
    rw [configurationImport, hback]
    simp only [String.append_assoc]
  have hname : importedName? (configurationImport runtime) = some "add_hydra_parser" := by
    rw [hsplit] at hopens ⊢
    exact importedName?_append hopens (by decide)
  exact mem_globalNames_of_import ((configurationImport_mem_setup runtime collection).mpr hany) hopens hname

theorem registrationName_mem_globalNames (runtime : String) {collection : Collection} {m : Module}
    (hm : m ∈ collection.modules) (h : Text.isIdentifier m.name.toList = true) :
    registrationName m ∈ globalNames (plainSetupFile runtime collection) := by
  have hbracket : '(' ∉ (registrationName m).toList := by
    intro hmem
    exact absurd ((isName_registrationName h).2 _ hmem) (by decide)
  have htree : registrationTree m ∈ nest (plainSetupFile runtime collection) := by
    rw [nest_plainSetupFile, setupTrees]
    refine List.mem_append_left _ (List.mem_append_right _ (List.mem_flatMap.mpr ⟨m, hm, ?_⟩))
    exact List.mem_append_right _ (List.mem_singleton_self _)
  have hhead : header (registrationName m) parserParams parserType
      ∈ topTexts (plainSetupFile runtime collection) := List.mem_map.mpr ⟨_, htree, rfl⟩
  exact mem_globalNames_of_header hhead hbracket

/-- **Exactly when the setup file is hygienic.** -/
theorem hygienic_plainSetupFile_iff (runtime : String) {collection : Collection}
    (h : ∀ m ∈ collection.modules, Named m) :
    Hygienic (plainSetupFile runtime collection)
      ↔ (∀ m ∈ collection.modules, (∃ command ∈ m.commands, usesHydra command = true) →
          ∀ command ∈ m.commands, lowerString command.name ≠ "add_hydra")
        ∧ ∀ m ∈ collection.modules, ∀ other ∈ collection.modules,
          lowerString m.name ≠ "setup_" ++ lowerString other.name := by
  have htop := clean_topTree_iff h fun m hm =>
    registrationName_mem_globalNames runtime hm (h m hm).name
  rw [Hygienic, nest_plainSetupFile, filter_isFunction_setupTrees, List.forall_mem_append,
    List.forall_mem_singleton, htop]
  refine and_congr_left' ?_
  have hmodule : ∀ m ∈ collection.modules,
      (∀ tree ∈ moduleTrees m, Clean (globalNames (plainSetupFile runtime collection)) tree)
        ↔ ((∃ command ∈ m.commands, usesHydra command = true) →
          ∀ command ∈ m.commands, lowerString command.name ≠ "add_hydra") := by
    intro m hm
    have hhelpers : ∀ tree ∈ m.commands.map (helperTree m),
        Clean (globalNames (plainSetupFile runtime collection)) tree := by
      intro tree ht
      obtain ⟨command, -, rfl⟩ := List.mem_map.mp ht
      exact clean_helperTree _ m command
    rw [moduleTrees, List.forall_mem_append, List.forall_mem_singleton, and_iff_right hhelpers]
    exact clean_registrationTree_iff (h m hm) fun hhydra => hydra_mem_globalNames ⟨m, hm, hhydra⟩
  rw [List.forall_mem_flatMap]
  exact forall₂_congr hmodule

end ClassCli.Synthesis
