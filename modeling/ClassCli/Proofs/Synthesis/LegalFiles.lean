import ClassCli.Proofs.Code.LegalText
import ClassCli.Proofs.Extraction.WrittenNames
import ClassCli.Proofs.Synthesis.FileLayout
import ClassCli.Proofs.Text.Letters

/-!
# Lines of the generated files

Names are identifiers and everything else is quoted, so that hardly any text of a collection can bring a line
end or a null character into a line of the generated files. Two can: a null character stays as it is inside
quotes, and the destination of an argument, which can be a tuple of names in several lines, is looked up
without being quoted.

* **`LegalModule`** — the texts of a module that have to be free of such characters.
* **`forall_plainSetupFile`**, **`forall_entryPoint`** — the lines of both files.
* **`generate_legal_iff`** — exactly when all lines of the generated files are legal.
* **`null_generated`** — an escape in a source text that brings a null character into a file.
-/

namespace ClassCli.Synthesis

open Code (LegalLine NoNull OneLine Pattern Statement callArgs functionLines gap header quote)
open Code.Statement (linesAll)
open Extraction (SourceFile WrittenModule extractSources)
open Interface (Argument Collection Command Flag Module)
open Text (isIdentifier lowerString)

/-! ## Texts that are shown -/

/-- The strings in the default of an argument that the setup file shows. -/
def defaultStrings (arg : Argument) : List String :=
  if isSwitch arg then [] else (arg.default.map Literal.strings).getD []

/-- The texts of an argument that the setup file quotes. -/
def shownTexts (arg : Argument) : List String :=
  [arg.name, arg.destination, arg.help] ++ defaultStrings arg

/-- The flag with which the wrapper around the call of a command is set up. -/
def wrapperFlag? (command : Command) : Option Flag := command.flag? Marker.hydraName

/-- The arguments whose values are looked up when a command runs. -/
def lookedUp (m : Module) (command : Command) : List Argument :=
  m.args ++ if (wrapperFlag? command).isSome then [] else command.args

/-- The texts of a command that have to be free of null characters, and those of line ends, too. -/
structure LegalCommand (m : Module) (command : Command) : Prop where
  help : NoNull command.help
  shown : ∀ arg ∈ command.args ++ m.args, ∀ text ∈ shownTexts arg, NoNull text
  flag : ∀ flag ∈ wrapperFlag? command, ∀ entry ∈ flag.values, ∀ text ∈ entry.2.strings, NoNull text
  lookedUp : ∀ arg ∈ lookedUp m command, LegalLine arg.destination

/-- The texts of a module that have to be free of null characters, and its commands. -/
structure LegalModule (m : Module) : Prop where
  help : NoNull m.help
  command : ∀ command ∈ m.commands, LegalCommand m command

instance (m : Module) (command : Command) : Decidable (LegalCommand m command) :=
  decidable_of_iff (NoNull command.help
      ∧ (∀ arg ∈ command.args ++ m.args, ∀ text ∈ shownTexts arg, NoNull text)
      ∧ (∀ flag ∈ (wrapperFlag? command).toList, ∀ entry ∈ flag.values, ∀ text ∈ entry.2.strings, NoNull text)
      ∧ ∀ arg ∈ lookedUp m command, LegalLine arg.destination)
    ⟨fun ⟨hhelp, hshown, hflag, hlooked⟩ => ⟨hhelp, hshown, by simpa using hflag, hlooked⟩,
      fun h => ⟨h.help, h.shown, by simpa using h.flag, h.lookedUp⟩⟩

instance (m : Module) : Decidable (LegalModule m) :=
  decidable_of_iff (NoNull m.help ∧ ∀ command ∈ m.commands, LegalCommand m command)
    ⟨fun h => ⟨h.1, h.2⟩, fun h => ⟨h.help, h.command⟩⟩

/-! ## Names -/

theorem noNull_help {text : String} : NoNull (help text) ↔ NoNull text := by
  rw [help, Code.noNull_quote, NoNull, NoNull, doublePercents, String.toList_ofList, not_iff_not,
    List.mem_flatMap]
  constructor
  · rintro ⟨c, hc, hnull⟩
    split at hnull
    · exact absurd hnull (by decide)
    · rwa [List.mem_singleton.mp hnull]
  · intro h
    exact ⟨'\x00', h, by decide⟩

theorem legalLine_help {text : String} : LegalLine (help text) ↔ NoNull text := by
  rw [help, Code.legalLine_quote, ← Code.noNull_quote]
  exact noNull_help

theorem noNull_lowerString {name : String} (h : NoNull name) : NoNull (lowerString name) := by
  rw [NoNull, lowerString, String.toList_ofList]
  exact fun hmem => h (Text.mem_of_mem_lower (by decide) hmem)

theorem noNull_replaceIn {old new : Char} {name : String} (hnew : new ≠ '\x00') (h : NoNull name) :
    NoNull (Text.replaceIn old new name) := by
  rw [NoNull, Text.replaceIn, String.toList_ofList, Text.replaceChar, List.mem_map]
  rintro ⟨c, hc, hnull⟩
  split at hnull
  · exact hnew hnull
  · exact h (hnull ▸ hc)

theorem noNull_variableName {name : String} (h : NoNull name) : NoNull (variableName name) :=
  noNull_lowerString (noNull_replaceIn (by decide) h)

theorem noNull_commandName {name : String} (h : NoNull name) : NoNull (commandName name) :=
  noNull_replaceIn (by decide) h

/-- The names of a module and of its commands have no null characters. -/
structure NoNullNames (m : Module) : Prop where
  name : NoNull m.name
  command : ∀ command ∈ m.commands, NoNull command.name

/-! ## The setup file -/

theorem noNull_readingOptions (arg : Argument) : ∀ text ∈ readingOptions arg, NoNull text := by
  intro text ht
  have hall : ∀ text ∈ ["action='store_true'", "action='store_false'", "type=int", "type=float", "type=str",
      "type=bool", "nargs='+'"], NoNull text := by decide
  exact hall text (mem_readingOptions ht)

theorem forall_absenceOptions {arg : Argument} :
    (∀ text ∈ absenceOptions arg, NoNull text) ↔ ∀ text ∈ defaultStrings arg, NoNull text := by
  unfold absenceOptions defaultStrings
  split
  · simp
  · split
    · rename_i hnone
      simp +decide [hnone]
    · rename_i hnone
      simp [hnone, Literal.strings]
    · rename_i value hvalue hdefault
      have hopen : NoNull "default=" := by decide
      simp [hdefault, hopen, Code.noNull_literal]

theorem noNull_argumentLine {arg : Argument} :
    NoNull (argumentLine arg) ↔ ∀ text ∈ shownTexts arg, NoNull text := by
  have hopen : NoNull "parser.add_argument(" := by decide
  have hclose : NoNull ")" := by decide
  have hhyphens : NoNull "--" := by decide
  have hdest : NoNull "dest=" := by decide
  have hhelp : NoNull "help=" := by decide
  have hseparator : NoNull ", " := by decide
  have hreading := noNull_readingOptions arg
  unfold argumentLine options optionList shownTexts
  rw [Code.noNull_append, Code.noNull_append, Code.noNull_joinStrings hseparator]
  simp only [List.forall_mem_append, List.forall_mem_cons, forall_absenceOptions, Code.noNull_append,
    Code.noNull_quote, noNull_help, hopen, hclose, hhyphens, hdest, hhelp, true_and, and_true,
    List.not_mem_nil, false_implies, implies_true]
  tauto

theorem noNull_header {name : String} (h : NoNull name) : NoNull (header name parserParams parserType) := by
  unfold header
  simp +decide [h]

theorem noNull_helperName {m : Module} (h : NoNullNames m) {command : Command}
    (hc : command ∈ m.commands) : NoNull (helperName m command) := by
  simp +decide [helperName, noNull_lowerString h.name, noNull_variableName (h.command command hc)]

theorem noNull_registrationName {m : Module} (h : NoNullNames m) : NoNull (registrationName m) := by
  simp +decide [registrationName, noNull_lowerString h.name]

theorem forall_helperLines {m : Module} (h : NoNullNames m) {command : Command} (hc : command ∈ m.commands) :
    (∀ line ∈ helperLines m command, NoNull line.text)
      ↔ ∀ arg ∈ command.args ++ m.args, ∀ text ∈ shownTexts arg, NoNull text := by
  have hreturn : NoNull "return parser" := by decide
  rw [helperLines, Code.forall_functionLines, helperBody, ← List.map_append, List.forall_mem_append,
    List.forall_mem_map]
  simp [noNull_header (noNull_helperName h hc), noNull_argumentLine, hreturn]

theorem forall_registration {m : Module} (h : NoNullNames m) {command : Command} (hc : command ∈ m.commands) :
    (∀ text ∈ registration m command, NoNull text) ↔ NoNull command.help := by
  have hvariable := noNull_variableName (h.command command hc)
  have htyped := noNull_commandName (h.command command hc)
  have hhelper := noNull_helperName h hc
  unfold registration CommandParser.commandLines
  rw [List.forall_mem_append]
  split
  · simp +decide [hvariable, htyped, hhelper, noNull_help]
  · simp +decide [hvariable, htyped, hhelper, noNull_help]

theorem forall_registrationLines {m : Module} (h : NoNullNames m) :
    (∀ line ∈ registrationLines m, NoNull line.text) ↔ ∀ command ∈ m.commands, NoNull command.help := by
  have hopening : NoNull CommandParser.openingLine := by decide
  have hreturn : NoNull "return parser" := by decide
  have hcommands : (∀ text ∈ m.commands.flatMap (registration m), NoNull text)
      ↔ ∀ command ∈ m.commands, NoNull command.help := by
    rw [List.forall_mem_flatMap]
    exact forall₂_congr fun command hc => forall_registration h hc
  rw [registrationLines, Code.forall_functionLines, registrationBody, List.forall_mem_append,
    List.forall_mem_cons, hcommands]
  simp [noNull_header (noNull_registrationName h), hopening, hreturn]

theorem forall_moduleSection {m : Module} (h : NoNullNames m) :
    (∀ line ∈ moduleSection m, NoNull line.text)
      ↔ ∀ command ∈ m.commands, NoNull command.help
        ∧ ∀ arg ∈ command.args ++ m.args, ∀ text ∈ shownTexts arg, NoNull text := by
  have hgap : ∀ line ∈ gap, NoNull line.text := by decide
  have hhelpers : (∀ line ∈ helperSection m, NoNull line.text) ↔ ∀ command ∈ m.commands,
      ∀ arg ∈ command.args ++ m.args, ∀ text ∈ shownTexts arg, NoNull text := by
    rw [helperSection, List.forall_mem_flatMap]
    refine forall₂_congr fun command hc => ?_
    rw [List.forall_mem_append, forall_helperLines h hc]
    exact and_iff_left hgap
  rw [moduleSection, List.forall_mem_append, List.forall_mem_append, hhelpers, forall_registrationLines h,
    and_iff_left hgap, and_comm]
  exact forall₂_and.symm

theorem forall_moduleLines {m : Module} (h : NoNullNames m) :
    (∀ text ∈ moduleLines m (registrationName m), NoNull text) ↔ NoNull m.help := by
  have hname := noNull_registrationName h
  have hlower := noNull_lowerString h.name
  unfold moduleLines
  simp +decide [hname, hlower, h.name, noNull_help]

theorem forall_topLines {modules : List Module} (h : ∀ m ∈ modules, NoNullNames m) :
    (∀ line ∈ topLines modules, NoNull line.text) ↔ (2 ≤ modules.length → ∀ m ∈ modules, NoNull m.help) := by
  have hheader : NoNull (header "setup_parser" parserParams parserType) := by decide
  have hreturn : NoNull "return parser" := by decide
  have hopening : NoNull moduleOpeningLine := by decide
  rw [topLines, Code.forall_functionLines]
  rcases modules with _ | ⟨first, _ | ⟨second, rest⟩⟩
  · simp [topBody, hheader, hreturn]
  · have hname := noNull_registrationName (h first List.mem_cons_self)
    simp +decide [topBody, hname]
  · have hmodules : (∀ text ∈ (first :: second :: rest).flatMap (fun m => moduleLines m (registrationName m)),
        NoNull text) ↔ ∀ m ∈ first :: second :: rest, NoNull m.help := by
      rw [List.forall_mem_flatMap]
      exact forall₂_congr fun m hm => forall_moduleLines (h m hm)
    have hbody : topBody (first :: second :: rest) = moduleOpeningLine
        :: (first :: second :: rest).flatMap (fun m => moduleLines m (registrationName m))
          ++ ["return parser"] := rfl
    rw [hbody, List.forall_mem_append, List.forall_mem_cons, hmodules]
    simp [hheader, hreturn, hopening]

theorem noNull_setupImports {runtime : String} (h : NoNull runtime) (collection : Collection) :
    ∀ text ∈ setupImports runtime collection, NoNull text := by
  unfold setupImports
  split
  · simp +decide [h]
  · simp +decide

/-- **Null characters in the setup file** come from texts that are shown there. -/
theorem forall_plainSetupFile {runtime : String} {collection : Collection} (hr : NoNull runtime)
    (h : ∀ m ∈ collection.modules, NoNullNames m) :
    (∀ line ∈ plainSetupFile runtime collection, NoNull line.text)
      ↔ (2 ≤ collection.modules.length → ∀ m ∈ collection.modules, NoNull m.help)
        ∧ ∀ m ∈ collection.modules, ∀ command ∈ m.commands, NoNull command.help
          ∧ ∀ arg ∈ command.args ++ m.args, ∀ text ∈ shownTexts arg, NoNull text := by
  have hgap : ∀ line ∈ gap, NoNull line.text := by decide
  have himports : ∀ line ∈ importSection (setupImports runtime collection), NoNull line.text := by
    rw [importSection, List.forall_mem_append, List.forall_mem_map]
    exact ⟨noNull_setupImports hr collection, hgap⟩
  have hmodules : (∀ line ∈ collection.modules.flatMap moduleSection, NoNull line.text)
      ↔ ∀ m ∈ collection.modules, ∀ command ∈ m.commands, NoNull command.help
        ∧ ∀ arg ∈ command.args ++ m.args, ∀ text ∈ shownTexts arg, NoNull text := by
    rw [List.forall_mem_flatMap]
    exact forall₂_congr fun m hm => forall_moduleSection (h m hm)
  rw [plainSetupFile, List.forall_mem_append, List.forall_mem_append, hmodules, forall_topLines h,
    and_iff_right himports, and_comm]

/-! ## The entry point -/

theorem legalLine_construction {m : Module} (h : LegalLine m.name) :
    LegalLine (construction m) ↔ ∀ arg ∈ m.args, LegalLine arg.destination := by
  unfold construction
  simp +decide [h, Code.legalLine_callArgs]

/-- The keys of the settings that are passed on. -/
def LegalKeys (command : Command) : Prop :=
  ∀ flag ∈ command.flags, ∀ entry ∈ flag.values, LegalLine entry.1

/-- The settings of a marker as they are passed on. -/
theorem forall_legalLine_settings {values : Entries Literal} (hk : ∀ entry ∈ values, LegalLine entry.1) :
    (∀ text ∈ values.map (fun (key, value) => key ++ "=" ++ Code.literal value), LegalLine text) ↔
      ∀ entry ∈ values, ∀ text ∈ entry.2.strings, NoNull text := by
  have hequals : LegalLine "=" := by decide
  rw [List.forall_mem_map]
  refine forall₂_congr fun entry hentry => ?_
  simp [hk entry hentry, hequals, Code.legalLine_literal]

theorem legalLine_invocation {command : Command} (h : LegalLine command.name) (hk : LegalKeys command) :
    LegalLine (invocation command)
      ↔ ((wrapperFlag? command).isSome = false → ∀ arg ∈ command.args, LegalLine arg.destination)
        ∧ ∀ flag ∈ wrapperFlag? command, ∀ entry ∈ flag.values, ∀ text ∈ entry.2.strings, NoNull text := by
  have hseparator : LegalLine ", " := by decide
  unfold invocation wrapperFlag?
  split
  · rename_i hnone
    simp +decide [hnone, h, Code.legalLine_callArgs]
  · rename_i flag hflag
    have hmem : flag ∈ command.flags := List.mem_of_find?_eq_some hflag
    have hsettings := forall_legalLine_settings (hk flag hmem)
    have hopen : LegalLine "hydra_wrapper(" := by decide
    have hclose : LegalLine ")" := by decide
    have hmethod : LegalLine "module." := by decide
    have hargs : LegalLine "args" := by decide
    have hcreate : LegalLine "create_parser()" := by decide
    rw [Code.legalLine_append, Code.legalLine_append, Code.legalLine_joinStrings hseparator,
      List.forall_mem_append, hsettings]
    simp [hflag, h, hopen, hclose, hmethod, hargs, hcreate]

theorem forall_matchTree {subject : String} (hs : LegalLine subject) {cases : List (Pattern × List Statement)}
    {level : Nat} :
    (∀ line ∈ (Code.matchTree subject (Code.caseTrees cases)).lines level, LegalLine line.text)
      ↔ ∀ c ∈ cases, LegalLine c.1.shown
        ∧ ∀ tree ∈ c.2, ∀ line ∈ tree.lines (level + 2), LegalLine line.text := by
  have hmatch : LegalLine "match " := by decide
  have hcase : LegalLine "case " := by decide
  have hcolon : LegalLine ":" := by decide
  rw [Code.matchTree, Code.forall_lines_node, Code.caseTrees, List.forall_mem_map]
  simp only [Code.legalLine_append, hs, hmatch, hcolon, true_and]
  refine forall₂_congr fun c _ => ?_
  rw [Code.caseTree, Code.forall_lines_node, Code.caseHead]
  simp [hcase, hcolon]

theorem forall_refusal (level : Nat) :
    ∀ tree ∈ refusal, ∀ line ∈ tree.lines level, LegalLine line.text := by
  have hreturn : LegalLine "return False" := by decide
  simpa [refusal] using hreturn

theorem forall_commandTree {m : Module} (h : NoNullNames m) {level : Nat} :
    (∀ line ∈ (commandTree m).lines level, LegalLine line.text)
      ↔ ∀ command ∈ m.commands, LegalLine (construction m) ∧ LegalLine (invocation command) := by
  have hsubject : LegalLine "args['command']" := by decide
  have hanything : LegalLine Pattern.anything.shown := by decide
  rw [commandTree, forall_matchTree hsubject, commandCases, List.forall_mem_append, List.forall_mem_map,
    List.forall_mem_singleton, and_iff_left ⟨hanything, forall_refusal _⟩]
  refine forall₂_congr fun command hc => ?_
  have htyped : LegalLine (Pattern.str (commandName command.name)).shown :=
    Code.legalLine_quote.mpr (noNull_commandName (h.command command hc))
  simp [htyped, armSuite]

/-- The lines of the dispatch are legal exactly if its calls are. -/
theorem forall_dispatchTrees {modules : List Module} (h : ∀ m ∈ modules, NoNullNames m) {level : Nat} :
    (∀ tree ∈ dispatchTrees modules, ∀ line ∈ tree.lines level, LegalLine line.text)
      ↔ ∀ m ∈ modules, ∀ command ∈ m.commands,
        LegalLine (construction m) ∧ LegalLine (invocation command) := by
  match modules, h with
  | [], _ => simp [dispatchTrees]
  | [m], h =>
    rw [dispatchTrees, List.forall_mem_singleton, List.forall_mem_singleton]
    exact forall_commandTree (h m List.mem_cons_self)
  | first :: second :: rest, h =>
    have hsubject : LegalLine "args['module']" := by decide
    have hanything : LegalLine Pattern.anything.shown := by decide
    have htrees : dispatchTrees (first :: second :: rest) = [moduleTree (first :: second :: rest)] := rfl
    rw [htrees, List.forall_mem_singleton, moduleTree, forall_matchTree hsubject, moduleCases,
      List.forall_mem_append, List.forall_mem_map, List.forall_mem_singleton,
      and_iff_left ⟨hanything, forall_refusal _⟩]
    refine forall₂_congr fun m hm => ?_
    have hname : LegalLine (Pattern.str m.name).shown := Code.legalLine_quote.mpr (h m hm).name
    rw [and_iff_right hname, List.forall_mem_singleton]
    exact forall_commandTree (h m hm)

theorem noNull_description {collection : Collection} (h : ∀ m ∈ collection.modules, NoNull m.name) :
    NoNull (description collection)
      ↔ (collection.modules.length = 1 → ∀ m ∈ collection.modules, NoNull m.help) := by
  have hopening : NoNull "Command-line interface for python modules: " := by decide
  have hseparator : NoNull ", " := by decide
  obtain ⟨modules⟩ := collection
  match modules, h with
  | [], _ => simp +decide
  | [m], _ => simp [description]
  | first :: second :: rest, h =>
    have hnames : ∀ name ∈ Collection.names ⟨first :: second :: rest⟩, NoNull name := by
      rw [Collection.names, List.forall_mem_map]
      exact h
    have hdescription : description ⟨first :: second :: rest⟩ = "Command-line interface for python modules: "
        ++ Text.joinStrings ", " (Collection.names ⟨first :: second :: rest⟩) := rfl
    rw [hdescription, Code.noNull_append, Code.noNull_joinStrings hseparator]
    exact iff_of_true ⟨hopening, hnames⟩ (fun hone => absurd hone (by simp))

theorem legalLine_modulePath {location : String} (h : LegalLine location) (projectRoot : String) :
    LegalLine (modulePath projectRoot location) :=
  ⟨oneLine_modulePath h.1 projectRoot, not_mem_modulePath (by decide) h.2 projectRoot⟩

theorem legalLine_entryImportTexts {surroundings : Surroundings} {parserFile : String}
    {collection : Collection} (hr : LegalLine surroundings.runtime) (hp : LegalLine parserFile)
    (hl : ∀ m ∈ collection.modules, LegalLine m.location)
    (hn : ∀ m ∈ collection.modules, LegalLine m.name) :
    ∀ text ∈ entryImportTexts surroundings parserFile collection, LegalLine text := by
  intro text ht
  simp only [entryImportTexts, classImports, List.mem_append, mem_foldl_withNew, List.mem_singleton,
    List.mem_map] at ht
  rcases ht with ((rfl | ⟨m, hm, rfl⟩) | rfl) | ht
  · decide
  · have hpath := legalLine_modulePath (hl m hm) surroundings.projectRoot
    simp +decide [classImport, hpath, hn m hm]
  · have hpath := legalLine_modulePath hp surroundings.projectRoot
    simp +decide [setupImport, hpath]
  · split at ht
    · obtain rfl := List.mem_singleton.mp ht
      simp +decide [wrapperImport, hr]
    · exact absurd ht List.not_mem_nil

/-- **The lines of the entry point** are legal exactly if its description and its calls are. -/
theorem forall_entryPoint {surroundings : Surroundings} {parserFile : String} {collection : Collection}
    (hr : LegalLine surroundings.runtime) (hp : LegalLine parserFile)
    (hl : ∀ m ∈ collection.modules, LegalLine m.location)
    (hone : ∀ m ∈ collection.modules, OneLine m.name) (hn : ∀ m ∈ collection.modules, NoNullNames m) :
    (∀ line ∈ (entryPoint surroundings parserFile collection).value.lines, LegalLine line.text)
      ↔ NoNull (description collection) ∧ ∀ m ∈ collection.modules, ∀ command ∈ m.commands,
        LegalLine (construction m) ∧ LegalLine (invocation command) := by
  have hgap : ∀ line ∈ gap, LegalLine line.text := by decide
  have himports : ∀ line ∈ linesAll 0 ((entryImportTexts surroundings parserFile collection).map .leaf),
      LegalLine line.text := by
    rw [Statement.linesAll_leaves, List.forall_mem_map]
    exact legalLine_entryImportTexts hr hp hl fun m hm => ⟨hone m hm, (hn m hm).name⟩
  have hmain : ∀ line ∈ linesAll 0 [mainTree], LegalLine line.text := by decide
  have hguard : ∀ line ∈ linesAll 0 [guardTree], LegalLine line.text := by decide
  have hexecute : (∀ line ∈ linesAll 0 [executeTree collection], LegalLine line.text)
      ↔ ∀ m ∈ collection.modules, ∀ command ∈ m.commands,
        LegalLine (construction m) ∧ LegalLine (invocation command) := by
    have hheader : LegalLine (header "execute" [("args", "dict")] (some "bool")) := by decide
    have hreturn : LegalLine "return True" := by decide
    rw [Code.forall_linesAll, List.forall_mem_singleton, executeTree, Code.forall_lines_node,
      List.forall_mem_append, forall_dispatchTrees hn, List.forall_mem_singleton, Code.forall_lines_leaf,
      and_iff_right hheader, and_iff_left hreturn]
  have hcreate : (∀ line ∈ linesAll 0 [createTree collection], LegalLine line.text)
      ↔ NoNull (description collection) := by
    have hheader : LegalLine (header "create_parser" [] parserType) := by decide
    have hopen : LegalLine "parser = ArgumentParser(description=" := by decide
    have hclose : LegalLine ")" := by decide
    have hsetup : LegalLine "parser = setup_parser(parser)" := by decide
    have hreturn : LegalLine "return parser" := by decide
    rw [Code.forall_linesAll, List.forall_mem_singleton, createTree, Code.forall_lines_node]
    simp [hheader, hopen, hclose, hsetup, hreturn, legalLine_help]
  rw [entryPoint_lines]
  simp only [List.forall_mem_append, hexecute, hcreate, iff_true_intro himports, iff_true_intro hgap,
    iff_true_intro hmain, iff_true_intro hguard, true_and, and_true]
  exact and_comm

/-! ## Both files -/

/-- The texts of a module are legal exactly if what both files show of it is. -/
theorem legalModule_iff {m : Module} (hname : LegalLine m.name)
    (hcommand : ∀ command ∈ m.commands, LegalLine command.name)
    (hkeys : ∀ command ∈ m.commands, LegalKeys command) :
    LegalModule m ↔ NoNull m.help
      ∧ (∀ command ∈ m.commands, NoNull command.help
        ∧ ∀ arg ∈ command.args ++ m.args, ∀ text ∈ shownTexts arg, NoNull text)
      ∧ ∀ command ∈ m.commands, LegalLine (construction m) ∧ LegalLine (invocation command) := by
  have hcalls (command : Command) (hc : command ∈ m.commands) :
      LegalLine (construction m) ∧ LegalLine (invocation command)
        ↔ (∀ arg ∈ lookedUp m command, LegalLine arg.destination)
          ∧ ∀ flag ∈ wrapperFlag? command, ∀ entry ∈ flag.values, ∀ text ∈ entry.2.strings, NoNull text := by
    rw [legalLine_construction hname, legalLine_invocation (hcommand command hc) (hkeys command hc),
      lookedUp, List.forall_mem_append, and_assoc]
    cases (wrapperFlag? command).isSome with
    | true => simp
    | false => simp
  constructor
  · intro h
    refine ⟨h.help, fun command hc => ?_, fun command hc => ?_⟩
    · exact ⟨(h.command command hc).help, (h.command command hc).shown⟩
    · exact (hcalls command hc).mpr ⟨(h.command command hc).lookedUp, (h.command command hc).flag⟩
  · rintro ⟨hhelp, hshown, hlines⟩
    refine ⟨hhelp, fun command hc => ?_⟩
    obtain ⟨hlooked, hflag⟩ := (hcalls command hc).mp (hlines command hc)
    exact ⟨(hshown command hc).1, (hshown command hc).2, hflag, hlooked⟩

/-- **Exactly when the generated files are legal.** For source texts that can be read, with paths, a runtime
package and parameters of markers that are legal themselves, no line of the two files holds a line end or a
null character exactly if no text that is quoted there holds a null character and no name that is looked up
holds either. -/
theorem generate_legal_iff {settings : Extraction.Settings} {sources : List SourceFile}
    {collection : Collection} {surroundings : Surroundings} {parserFile : String} {files : Generated}
    (hextract : (extractSources settings sources).run.value = .ok collection)
    (hgenerate : (generate surroundings collection parserFile).run.value = .ok files)
    (hlocations : ∀ source ∈ sources, LegalLine source.location) (hparser : LegalLine parserFile)
    (hruntime : LegalLine surroundings.runtime)
    (hkeys : ∀ key, settings.registry.HasParam key → LegalLine key) :
    (∀ line ∈ files.setupParser.lines ++ files.entryPoint.lines, LegalLine line.text)
      ↔ ∀ m ∈ collection.modules, LegalModule m := by
  have hwritten := Extraction.written_of_extractSources hextract
  have hname (m : Module) (hm : m ∈ collection.modules) : LegalLine m.name :=
    LegalLine.of_identifier (hwritten m hm).isIdentifier_name
  have hcommand (m : Module) (hm : m ∈ collection.modules) :
      ∀ command ∈ m.commands, LegalLine command.name :=
    fun command hc => LegalLine.of_identifier ((hwritten m hm).isIdentifier_commandName command hc)
  have hnull (m : Module) (hm : m ∈ collection.modules) : NoNullNames m :=
    ⟨(hname m hm).2, fun command hc => (hcommand m hm command hc).2⟩
  have hlocation (m : Module) (hm : m ∈ collection.modules) : LegalLine m.location := by
    obtain ⟨source, hsource, heq, -⟩ := hwritten m hm
    rw [heq]
    exact hlocations source hsource
  obtain ⟨hsetup, hentry⟩ := generate_eq_ok hgenerate
  obtain ⟨haccepted, hlines⟩ := setupParser_eq_ok hsetup
  have honeLine : ∀ line ∈ plainSetupFile surroundings.runtime collection, OneLine line.text :=
    (Code.laidOut_of_filter (soundAll_setupTrees hruntime.1 haccepted) (by simp [setupTrees])
      (filter_plainSetupFile surroundings.runtime collection)).oneLine
  have hsetupLines : (∀ line ∈ files.setupParser.lines, LegalLine line.text)
      ↔ ∀ line ∈ plainSetupFile surroundings.runtime collection, NoNull line.text := by
    rw [hlines]
    exact forall₂_congr fun line hline => and_iff_right (honeLine line hline)
  rw [List.forall_mem_append, hsetupLines, forall_plainSetupFile hruntime.2 hnull, ← hentry,
    forall_entryPoint hruntime hparser hlocation (fun m hm => (hname m hm).1) hnull,
    noNull_description fun m hm => (hname m hm).2]
  have hmodule (m : Module) (hm : m ∈ collection.modules) :=
    legalModule_iff (hname m hm) (hcommand m hm) fun command hc flag hflag entry hentry =>
      hkeys _ ((hwritten m hm).key_of_flag command hc flag hflag entry hentry)
  constructor
  · rintro ⟨⟨hseveral, hshown⟩, hsingle, hcalls⟩ m hm
    refine (hmodule m hm).mpr ⟨?_, hshown m hm, hcalls m hm⟩
    -- the description shows the help of the only module, the setup file that of each of several
    by_cases hone : collection.modules.length = 1
    · exact hsingle hone m hm
    · have hpos := List.length_pos_of_mem hm
      exact hseveral (by omega) m hm
  · intro h
    have hparts (m : Module) (hm : m ∈ collection.modules) := (hmodule m hm).mp (h m hm)
    exact ⟨⟨fun _ m hm => (hparts m hm).1, fun m hm => (hparts m hm).2.1⟩, fun _ m hm => (hparts m hm).1,
      fun m hm => (hparts m hm).2.2⟩

/-- The keys of the built-in markers are legal. -/
theorem legalLine_of_hasParam_builtin (home : String) :
    ∀ key, (Marker.Registry.builtin home).HasParam key → LegalLine key := by
  rintro key ⟨entry, hentry, hkey⟩
  obtain rfl := List.mem_singleton.mp hentry
  revert key
  decide

/-- A method whose default has a line feed in it, and a loader for its configuration. -/
def loaderSource : SourceFile where
  location := "jobs/a.py"
  text := "from argsmith import add_hydra\n\nclass A:\n    @add_hydra(config_path='conf')\n"
    ++ "    def run(self, cfg, x='a\\nb'):\n        pass\n"

/-- The collection of this method. -/
def loaderCollection : Collection :=
  ⟨[{ name := "A", location := "jobs/a.py",
      commands := [
        { name := "run", help := Docstring.noDocumentation,
          args := [{ Argument.ofParameter "x" with
            default := some (.str "a\nb"), help := Docstring.noDocumentation }],
          flags := [{ name := Marker.hydraName,
                      values := [("config_var_name", .str "cfg"), ("version_base", .none),
                        ("config_path", .str "conf"), ("config_name", .none)] }] }] }]⟩

/-- A line feed in a default is no line end in the files. -/
theorem generate_legal_iff_loader :
    (extractSources {} [loaderSource]).run.value = .ok loaderCollection
      ∧ (∀ source ∈ [loaderSource], LegalLine source.location) ∧ LegalLine "cli/utils/parser.py"
      ∧ LegalLine "argsmith"
      ∧ (∀ key, ({} : Extraction.Settings).registry.HasParam key → LegalLine key)
      ∧ ∃ files, (generate ⟨"/project", "argsmith"⟩ loaderCollection "cli/utils/parser.py").run.value
          = .ok files
        ∧ ∀ line ∈ files.setupParser.lines ++ files.entryPoint.lines, LegalLine line.text := by
  have hextract : (extractSources {} [loaderSource]).run.value = .ok loaderCollection := by decide +kernel
  obtain ⟨files, hgenerate⟩ := exists_generate_eq_ok ⟨"/project", "argsmith"⟩ loaderCollection
    "cli/utils/parser.py" (by decide +kernel)
  have hlocations : ∀ source ∈ [loaderSource], LegalLine source.location := by decide
  have hparser : LegalLine "cli/utils/parser.py" := by decide
  have hruntime : LegalLine "argsmith" := by decide
  have hkeys : ∀ key, ({} : Extraction.Settings).registry.HasParam key → LegalLine key :=
    legalLine_of_hasParam_builtin _
  refine ⟨hextract, hlocations, hparser, hruntime, hkeys, files, hgenerate, ?_⟩
  refine (generate_legal_iff hextract hgenerate hlocations hparser hruntime hkeys).mpr ?_
  decide +kernel

/-- A method with the escape of a null character in a default. -/
def nullSource : SourceFile where
  location := "a.py"
  text := "class A:\n    def run(self, x='a\\0b'):\n        pass\n"

/-- The collection of this method. -/
def nullCollection : Collection :=
  ⟨[{ name := "A", location := "a.py",
      commands := [
        { name := "run", help := Docstring.noDocumentation,
          args := [{ Argument.ofParameter "x" with
            default := some (.str "a\x00b"), help := Docstring.noDocumentation }] }] }]⟩

/-- **An escape brings a null character into the setup file**, although the source text and the paths have
none. -/
theorem null_generated :
    (extractSources {} [nullSource]).run.value = .ok nullCollection
      ∧ (∀ source ∈ [nullSource], LegalLine source.location ∧ NoNull source.text)
      ∧ LegalLine "cli/utils/parser.py" ∧ LegalLine "argsmith"
      ∧ ∃ files, (generate ⟨"/project", "argsmith"⟩ nullCollection "cli/utils/parser.py").run.value
          = .ok files
        ∧ ∃ line ∈ files.setupParser.lines, ¬LegalLine line.text := by
  obtain ⟨files, hgenerate⟩ := exists_generate_eq_ok ⟨"/project", "argsmith"⟩ nullCollection
    "cli/utils/parser.py" (by decide +kernel)
  obtain ⟨line, hline, htext⟩ :=
    exists_line_argumentLine hgenerate List.mem_cons_self List.mem_cons_self List.mem_cons_self
  refine ⟨by decide +kernel, by decide +kernel, by decide, by decide, files, hgenerate, line, hline, ?_⟩
  rw [htext]
  decide +kernel

end ClassCli.Synthesis
