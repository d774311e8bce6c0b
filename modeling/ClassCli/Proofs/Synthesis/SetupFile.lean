import ClassCli.Proofs.Attempt
import ClassCli.Proofs.Code.Placement
import ClassCli.Proofs.Synthesis.Names
import ClassCli.Synthesis

/-!
# The setup file, part by part

The setup file grows by insertion: the functions of a command go above the function that registers it,
those of a module above the function that registers modules, and the imports above everything. What
comes out is the plain sequence of its parts in the order of the collection.

* **`plainSetupFile`** — the parts one after the other.
* **`helperLines_eq`**, **`registrationLines_eq`**, **`topLines_nil`**, **`topLines_singleton`**,
  **`topLines_several`** — the parts as they are written, with **`registration_texts`** for a command and
  **`moduleLines_texts`** for a module.
* **`register_shows`** — registering commands puts one helper for each of them above the registration.
* **`setupParser_eq_ok`** — the file is the plain sequence of its parts.
-/

namespace ClassCli.Synthesis

open Interface (Argument Collection Command Module)
open Code (Block Definition Flush Line functionLines gap header quote)
open Text (lowerString)

/-! ## The parts -/

/-- The name of the function that declares the arguments of a command. -/
def helperName (m : Module) (command : Command) : String :=
  "add_" ++ (lowerString m.name ++ "_" ++ variableName command.name) ++ "_args"

/-- The declarations of the arguments of a command: its own ones and then the constructor's. -/
def helperBody (m : Module) (command : Command) : List String :=
  command.args.map argumentLine ++ m.args.map argumentLine ++ ["return parser"]

/-- The function that declares the arguments of a command. -/
def helperLines (m : Module) (command : Command) : List Line :=
  functionLines (header (helperName m command) parserParams parserType) (helperBody m command)

/-- The name of the function that registers the commands of a module. -/
def registrationName (m : Module) : String := "setup_" ++ lowerString m.name ++ "_parser"

/-- The lines that register a command. -/
def registration (m : Module) (command : Command) : List String :=
  CommandParser.commandLines command (helperName m command)

/-- The lines that register the commands of a module. -/
def registrationBody (m : Module) : List String :=
  CommandParser.openingLine :: m.commands.flatMap (registration m) ++ ["return parser"]

/-- The function that registers the commands of a module. -/
def registrationLines (m : Module) : List Line :=
  functionLines (header (registrationName m) parserParams parserType) (registrationBody m)

/-- The functions of the commands of a module, with a gap behind each. -/
def helperSection (m : Module) : List Line :=
  m.commands.flatMap fun command => helperLines m command ++ gap

/-- Everything about a module: a helper for each command and the registration behind them. -/
def moduleSection (m : Module) : List Line := helperSection m ++ registrationLines m ++ gap

/-- The body of the function that registers everything. -/
def topBody : List Module → List String
  | [] => ["return parser"]
  | [m] => ["parser = " ++ registrationName m ++ "(parser)", "return parser"]
  | modules =>
    moduleOpeningLine :: modules.flatMap (fun m => moduleLines m (registrationName m))
      ++ ["return parser"]

/-- The function that registers everything. -/
def topLines (modules : List Module) : List Line :=
  functionLines (header "setup_parser" parserParams parserType) (topBody modules)

/-- The imports with a gap behind them. -/
def importSection (imports : List String) : List Line := imports.map (⟨·, 0⟩) ++ gap

/-- The setup file as the plain sequence of its parts. -/
def plainSetupFile (runtime : String) (collection : Collection) : List Line :=
  importSection (setupImports runtime collection) ++ collection.modules.flatMap moduleSection
    ++ topLines collection.modules

/-! ## The parts as they are written -/

/-- The first line of a function that sets up a parser. -/
theorem header_setup (name : String) :
    header name parserParams parserType = "def " ++ name ++ "(parser: ArgumentParser) -> ArgumentParser:" := by
  have hsignature : "(" ++ (Text.joinStrings ", " (parserParams.map fun p => Code.parameter p.1 p.2)
      ++ (")" ++ (" -> ArgumentParser" ++ ":"))) = "(parser: ArgumentParser) -> ArgumentParser:" := by decide
  rw [← hsignature]
  simp only [header, parserType, String.append_assoc]
  rfl

theorem header_helperName (m : Module) (command : Command) :
    header (helperName m command) parserParams parserType
      = "def add_" ++ lowerString m.name ++ "_" ++ variableName command.name
        ++ "_args(parser: ArgumentParser) -> ArgumentParser:" := by
  have hopen : "def add_" = "def " ++ "add_" := by decide
  have hclose : "_args(parser: ArgumentParser) -> ArgumentParser:"
      = "_args" ++ "(parser: ArgumentParser) -> ArgumentParser:" := by decide
  rw [header_setup, helperName]
  simp only [hopen, hclose, String.append_assoc]

theorem header_registrationName (m : Module) :
    header (registrationName m) parserParams parserType
      = "def setup_" ++ lowerString m.name ++ "_parser(parser: ArgumentParser) -> ArgumentParser:" := by
  have hopen : "def setup_" = "def " ++ "setup_" := by decide
  have hclose : "_parser(parser: ArgumentParser) -> ArgumentParser:"
      = "_parser" ++ "(parser: ArgumentParser) -> ArgumentParser:" := by decide
  rw [header_setup, registrationName]
  simp only [hopen, hclose, String.append_assoc]

/-- A command is registered with its name and its help, its arguments are declared, and one that hands a configuration
over has the options of the loader added. -/
theorem registration_texts (m : Module) (command : Command) :
    registration m command
      = [variableName command.name ++ "_parser = command_subparser.add_parser(" ++ quote (commandName command.name)
            ++ ", help=" ++ help command.help ++ ")",
          variableName command.name ++ "_parser = add_" ++ lowerString m.name ++ "_" ++ variableName command.name
            ++ "_args(" ++ variableName command.name ++ "_parser)"]
        ++ if usesHydra command then
            [variableName command.name ++ "_parser = add_hydra_parser(" ++ variableName command.name ++ "_parser)"]
          else [] := by
  have hparser : "_parser = command_subparser.add_parser(" = "_parser" ++ " = command_subparser.add_parser(" := by
    decide
  have hhelper : "_parser = add_" = "_parser" ++ (" = " ++ "add_") := by decide
  have hargs : "_args(" = "_args" ++ "(" := by decide
  have hclose : "_parser)" = "_parser" ++ ")" := by decide
  have hloader : "_parser = add_hydra_parser(" = "_parser" ++ " = add_hydra_parser(" := by decide
  simp only [registration, CommandParser.commandLines, helperName, hparser, hhelper, hargs, hclose, hloader,
    String.append_assoc]

/-- A module is registered with its name and its help, and the function of its commands is called. -/
theorem moduleLines_texts (m : Module) :
    moduleLines m (registrationName m)
      = [lowerString m.name ++ "_parser = module_subparser.add_parser(name=" ++ quote m.name ++ ", help="
            ++ help m.help ++ ")",
          lowerString m.name ++ "_parser = setup_" ++ lowerString m.name ++ "_parser(" ++ lowerString m.name
            ++ "_parser)"] := by
  have hparser : "_parser = module_subparser.add_parser(name="
      = "_parser" ++ " = module_subparser.add_parser(name=" := by decide
  have hsetup : "_parser = setup_" = "_parser" ++ (" = " ++ "setup_") := by decide
  have hopen : "_parser(" = "_parser" ++ "(" := by decide
  have hclose : "_parser)" = "_parser" ++ ")" := by decide
  simp only [moduleLines, registrationName, hparser, hsetup, hopen, hclose, String.append_assoc]

/-- The function that declares the arguments of a command: a line for each of its own, and for each of the
constructor's behind them. -/
theorem helperLines_eq (m : Module) (command : Command) :
    helperLines m command
      = ⟨"def add_" ++ lowerString m.name ++ "_" ++ variableName command.name
          ++ "_args(parser: ArgumentParser) -> ArgumentParser:", 0⟩
        :: (command.args ++ m.args).map (fun arg => ⟨"parser.add_argument(" ++ options arg ++ ")", 1⟩)
          ++ [⟨"return parser", 1⟩] := by
  have hline : (fun text => (⟨text, 1⟩ : Line)) ∘ argumentLine
      = fun arg => ⟨"parser.add_argument(" ++ options arg ++ ")", 1⟩ := rfl
  rw [helperLines, functionLines, header_helperName, helperBody, ← List.map_append, List.map_append, List.map_map,
    hline, List.map_singleton, List.cons_append]

/-- The function that registers the commands of a module: the lines of each command, in order. -/
theorem registrationLines_eq (m : Module) :
    registrationLines m
      = ⟨"def setup_" ++ lowerString m.name ++ "_parser(parser: ArgumentParser) -> ArgumentParser:", 0⟩
        :: ⟨"command_subparser = parser.add_subparsers(dest='command', title='command')", 1⟩
        :: m.commands.flatMap (fun command => (registration m command).map (⟨·, 1⟩))
          ++ [⟨"return parser", 1⟩] := by
  rw [registrationLines, functionLines, header_registrationName, registrationBody, CommandParser.openingLine,
    List.map_append, List.map_cons, List.map_flatMap, List.map_singleton, List.cons_append, List.cons_append,
    List.cons_append]

theorem header_setupParser :
    header "setup_parser" parserParams parserType
      = "def setup_parser(parser: ArgumentParser) -> ArgumentParser:" := by
  decide

/-- Without modules the parser is returned as it is. -/
theorem topLines_nil :
    topLines []
      = [⟨"def setup_parser(parser: ArgumentParser) -> ArgumentParser:", 0⟩, ⟨"return parser", 1⟩] := by
  rw [topLines, functionLines, header_setupParser]
  rfl

/-- One module alone sets the parser up. -/
theorem topLines_singleton (m : Module) :
    topLines [m]
      = [⟨"def setup_parser(parser: ArgumentParser) -> ArgumentParser:", 0⟩,
          ⟨"parser = setup_" ++ lowerString m.name ++ "_parser(parser)", 1⟩,
          ⟨"return parser", 1⟩] := by
  have hcall : "parser = setup_" = "parser = " ++ "setup_" := by decide
  have hclose : "_parser(parser)" = "_parser" ++ "(parser)" := by decide
  rw [topLines, functionLines, header_setupParser]
  simp only [topBody, registrationName, hcall, hclose, List.map_cons, List.map_nil, String.append_assoc]

/-- Several modules get a parser each: the lines of each module, in order. -/
theorem topLines_several (first second : Module) (rest : List Module) :
    topLines (first :: second :: rest)
      = ⟨"def setup_parser(parser: ArgumentParser) -> ArgumentParser:", 0⟩
        :: ⟨"module_subparser = parser.add_subparsers(dest='module', title='module')", 1⟩
        :: (first :: second :: rest).flatMap (fun m => (moduleLines m (registrationName m)).map (⟨·, 1⟩))
          ++ [⟨"return parser", 1⟩] := by
  rw [topLines, functionLines, header_setupParser]
  simp only [topBody, moduleOpeningLine, List.map_append, List.map_cons, List.map_flatMap, List.map_nil,
    List.cons_append]

/-! ## Lines that are not blank -/

theorem argumentLine_ne_empty (arg : Argument) : argumentLine arg ≠ "" :=
  append_ne_empty_right _ (by decide)

theorem commandLines_ne_empty (command : Command) (helper : String) :
    "" ∉ CommandParser.commandLines command helper := by
  simp only [CommandParser.commandLines, List.mem_append, List.mem_cons, List.not_mem_nil, or_false,
    not_or]
  refine ⟨⟨?_, ?_⟩, ?_⟩
  · exact Ne.symm (append_ne_empty_right _ (by decide))
  · exact Ne.symm (append_ne_empty_right _ (by decide))
  · split
    · simp
    · simp

theorem moduleLines_ne_empty (m : Module) (setupName : String) : "" ∉ moduleLines m setupName := by
  simp only [moduleLines, List.mem_cons, List.not_mem_nil, or_false, not_or]
  refine ⟨?_, ?_⟩
  · exact Ne.symm (append_ne_empty_right _ (by decide))
  · exact Ne.symm (append_ne_empty_right _ (by decide))

theorem helperBody_ne_empty (m : Module) (command : Command) : "" ∉ helperBody m command := by
  simp only [helperBody, List.mem_append, List.mem_map, not_or]
  refine ⟨⟨?_, ?_⟩, by simp⟩
  · rintro ⟨arg, -, h⟩
    exact argumentLine_ne_empty arg h
  · rintro ⟨arg, -, h⟩
    exact argumentLine_ne_empty arg h

theorem flush_helperLines (m : Module) (command : Command) : Flush (helperLines m command) :=
  Code.flush_functionLines (Code.header_ne_empty _ _ _) (helperBody_ne_empty m command)

theorem flush_helperSection (m : Module) : Flush (helperSection m) :=
  Flush.flatMap fun command _ => (flush_helperLines m command).append Code.flush_gap

theorem registrationBody_ne_empty (m : Module) : "" ∉ registrationBody m := by
  simp only [registrationBody, List.mem_append, List.mem_cons, List.mem_flatMap, not_or]
  refine ⟨⟨by simp [CommandParser.openingLine], ?_⟩, by simp⟩
  rintro ⟨command, -, h⟩
  exact commandLines_ne_empty command _ h

theorem flush_registrationLines (m : Module) : Flush (registrationLines m) :=
  Code.flush_functionLines (Code.header_ne_empty _ _ _) (registrationBody_ne_empty m)

theorem flush_moduleSection (m : Module) : Flush (moduleSection m) :=
  ((flush_helperSection m).append (flush_registrationLines m)).append Code.flush_gap

theorem flush_importSection {imports : List String} (h : "" ∉ imports) :
    Flush (importSection imports) := by
  rw [importSection, ← Code.Statement.linesAll_leaves]
  exact (Code.flush_leaves h).append Code.flush_gap

theorem setupImports_ne_empty (runtime : String) (collection : Collection) :
    "" ∉ setupImports runtime collection := by
  unfold setupImports
  split <;> simp [argparseImport]

/-! ## Assembly of a module -/

theorem argumentHelper_shows {stem : String} {args : List Argument} {helper : Definition}
    (h : argumentHelper stem args = .ok helper) :
    Unbroken stem ∧ helper.name = "add_" ++ stem ++ "_args"
      ∧ helper.block.lines = functionLines (header ("add_" ++ stem ++ "_args") parserParams parserType)
          (args.map argumentLine ++ ["return parser"]) := by
  obtain ⟨checked, hcheck, hhelper⟩ := except_bind_eq_ok.mp h
  cases hhelper
  have hstart := Definition.Shows.start ("add_" ++ stem ++ "_args") parserParams parserType
  have hshows := hstart.appendLines (args.map argumentLine ++ ["return parser"])
  exact ⟨checkName_eq_ok hcheck, rfl, congrArg Block.lines hshows.block⟩

-- The position is always the number of lines above the definition: that is what the induction carries
-- through the insertions.
/-- **Registering commands**: the helper of each goes below the earlier ones and above the definition,
and the lines that register it end the body. -/
theorem register_shows (m : Module) (commands : List Command) :
    ∀ {definition result : Definition} {above : List Line} {head : String} {body : List String},
      definition.Shows above head body →
      CommandParser.register (lowerString m.name) definition above.length
        (commands.map fun c => { c with args := c.args ++ m.args }) = .ok result →
      result.name = definition.name
        ∧ (∀ command ∈ commands, Unbroken (variableName command.name))
        ∧ result.Shows (above ++ commands.flatMap fun command => helperLines m command ++ gap) head
            (body ++ commands.flatMap (registration m)) := by
  induction commands with
  | nil =>
    intro definition result above head body hd h
    obtain rfl : definition = result := Except.ok.inj h
    exact ⟨rfl, by simp, by simpa using hd⟩
  | cons command rest ih =>
    intro definition result above head body hd h
    obtain ⟨helper, hhelper, hrest⟩ := except_bind_eq_ok.mp h
    obtain ⟨hunbroken, hname, hlines⟩ := argumentHelper_shows hhelper
    have habove : helper.block.separate.lines = helperLines m command ++ gap := by
      rw [Block.separate_eq, hlines]
      simp only [helperLines, helperBody, helperName, List.map_append, List.append_assoc]
    have hflush : Flush (helperLines m command ++ gap) :=
      (flush_helperLines m command).append Code.flush_gap
    -- the helper goes above the function, whose own place moves by as many lines
    have hnext := (hd.appendLines (registration m command)).putAbove hflush
    have hlength : above.length + (helperLines m command ++ gap).length
        = (above ++ (helperLines m command ++ gap)).length :=
      List.length_append.symm
    simp only [habove, hname, hlength] at hrest
    obtain ⟨hsame, hwords, hshows⟩ := ih hnext hrest
    refine ⟨hsame, ?_, ?_⟩
    · intro other ho
      rcases List.mem_cons.mp ho with rfl | ho
      · exact hunbroken.of_append_right
      · exact hwords other ho
    · simpa only [List.flatMap_cons, List.append_assoc] using hshows

/-- What the checks of names guarantee about a module of a file that is generated. -/
structure Accepted (m : Module) : Prop where
  module : Unbroken (lowerString m.name)
  command : ∀ command ∈ m.commands, Unbroken (variableName command.name)

/-- The imports of a part, with the gap behind them if there are any. -/
def importsAbove (imports : List String) : List Line :=
  if imports.isEmpty then [] else importSection imports

theorem flush_importsAbove {imports : List String} (h : "" ∉ imports) :
    Flush (importsAbove imports) := by
  unfold importsAbove
  split
  · exact Flush.nil
  · exact flush_importSection h

/-- **The part of a module**: its imports, its helpers and its registration. -/
theorem moduleParser_lines {imports : List String} {m : Module} {p : CommandParser}
    (hi : "" ∉ imports) (h : moduleParser imports m = .ok p) :
    Accepted m ∧ p.name = registrationName m
      ∧ p.block.separate.lines = importsAbove imports ++ moduleSection m := by
  obtain ⟨opened, hopened, hadd⟩ := except_bind_eq_ok.mp h
  obtain ⟨checked, hcheck, hstart⟩ := except_bind_eq_ok.mp hopened
  cases hstart
  obtain ⟨registered, hregister, hclose⟩ := except_bind_eq_ok.mp hadd
  cases hclose
  have hbegun := (Definition.Shows.start (registrationName m) parserParams parserType).appendLine
    CommandParser.openingLine
  obtain ⟨hname, hwords, hshows⟩ := register_shows m m.commands hbegun hregister
  have hclosed := hshows.appendLine "return parser"
  have hflush : Flush ([] ++ helperSection m) := Flush.nil.append (flush_helperSection m)
  refine ⟨⟨checkName_eq_ok hcheck, hwords⟩, ?_, ?_⟩
  · show (if imports.isEmpty then registered.appendLine "return parser" else _).name = _
    split
    · exact hname
    · exact hname
  · rw [Block.separate_eq]
    show (if imports.isEmpty then registered.appendLine "return parser" else _).block.lines ++ gap = _
    unfold importsAbove
    split
    · rw [hclosed.block]
      rfl
    · have htop := hclosed.putTop hflush (flush_importSection hi)
      have hlines : (Block.ofTexts imports).separate.lines = importSection imports := by
        rw [Block.separate_eq, Block.ofTexts_lines, Code.Statement.linesAll_leaves]
        rfl
      rw [hlines, htop.block]
      simp [moduleSection, registrationLines, List.append_assoc]
      rfl

/-! ## Assembly of the file -/

/-- Registering one module puts its part above the definition, below the parts that are there. -/
theorem registerModules_cons {definition result : Definition} {above : List Line} {head : String}
    {body imports : List String} {m : Module} {rest : List Module} (hi : "" ∉ imports)
    (hd : definition.Shows above head body)
    (h : registerModules definition above.length imports (m :: rest) = .ok result) :
    Accepted m ∧ ∃ next : Definition,
      next.Shows (above ++ (importsAbove imports ++ moduleSection m)) head
          (body ++ moduleLines m (registrationName m))
        ∧ registerModules next (above ++ (importsAbove imports ++ moduleSection m)).length [] rest
          = .ok result := by
  obtain ⟨p, hp, hrest⟩ := except_bind_eq_ok.mp h
  obtain ⟨haccepted, hname, hlines⟩ := moduleParser_lines hi hp
  have hflush : Flush (importsAbove imports ++ moduleSection m) :=
    (flush_importsAbove hi).append (flush_moduleSection m)
  have hnext := (hd.appendLines (moduleLines m (registrationName m))).putAbove hflush
  refine ⟨haccepted, _, hnext, ?_⟩
  have hlength : (above ++ (importsAbove imports ++ moduleSection m)).length
      = above.length + (importsAbove imports ++ moduleSection m).length := List.length_append
  rw [hlength]
  simpa only [hlines, hname] using hrest

/-- **Registering modules** without imports puts their parts one below the other. -/
theorem registerModules_shows (modules : List Module) :
    ∀ {definition result : Definition} {above : List Line} {head : String} {body : List String},
      definition.Shows above head body →
      registerModules definition above.length [] modules = .ok result →
      (∀ m ∈ modules, Accepted m)
        ∧ result.Shows (above ++ modules.flatMap moduleSection) head
            (body ++ modules.flatMap fun m => moduleLines m (registrationName m)) := by
  induction modules with
  | nil =>
    intro definition result above head body hd h
    obtain rfl : definition = result := Except.ok.inj h
    exact ⟨by simp, by simpa using hd⟩
  | cons m rest ih =>
    intro definition result above head body hd h
    obtain ⟨haccepted, next, hnext, hrest⟩ := registerModules_cons (by simp) hd h
    obtain ⟨hothers, hshows⟩ := ih hnext hrest
    refine ⟨?_, ?_⟩
    · intro other ho
      rcases List.mem_cons.mp ho with rfl | ho
      · exact haccepted
      · exact hothers other ho
    · simpa only [importsAbove, List.isEmpty_nil, if_true, List.nil_append, List.flatMap_cons,
        List.append_assoc] using hshows

theorem importsAbove_setupImports (runtime : String) (collection : Collection) :
    importsAbove (setupImports runtime collection)
      = importSection (setupImports runtime collection) := rfl

/-- **The setup file is the plain sequence of its parts**, and its names have passed the check. -/
theorem setupParser_eq_ok {runtime : String} {collection : Collection} {file : Block}
    (h : setupParser runtime collection = .ok file) :
    (∀ m ∈ collection.modules, Accepted m) ∧ file.lines = plainSetupFile runtime collection := by
  obtain ⟨modules⟩ := collection
  have hstart := Definition.Shows.start "setup_parser" parserParams parserType
  have hi := setupImports_ne_empty runtime ⟨modules⟩
  have htop : (Block.ofTexts (setupImports runtime ⟨modules⟩)).separate.lines
      = importSection (setupImports runtime ⟨modules⟩) := by
    rw [Block.separate_eq, Block.ofTexts_lines, Code.Statement.linesAll_leaves]
    rfl
  -- without classes, with one and with several the file is put together differently
  match modules, h with
  | [], h =>
    cases h
    have hshows := (hstart.appendLine "return parser").putTop Flush.nil (flush_importSection hi)
    refine ⟨by simp, ?_⟩
    show ((setupFunction "setup_parser").appendLine "return parser" |>.putAbove _).block.lines = _
    rw [htop]
    exact (congrArg Block.lines hshows.block).trans (by simp [plainSetupFile, topLines, topBody])
  | [m], h =>
    obtain ⟨p, hp, hclose⟩ := except_bind_eq_ok.mp h
    cases hclose
    obtain ⟨haccepted, hname, hlines⟩ := moduleParser_lines hi hp
    have hflush : Flush (importSection (setupImports runtime ⟨[m]⟩) ++ moduleSection m) :=
      (flush_importSection hi).append (flush_moduleSection m)
    have hshows := (hstart.appendLines
      ["parser = " ++ registrationName m ++ "(parser)", "return parser"]).putTop Flush.nil hflush
    refine ⟨by simpa using haccepted, ?_⟩
    show ((setupFunction "setup_parser").appendLines _ |>.putAbove _).block.lines = _
    rw [hlines, hname, importsAbove_setupImports]
    exact (congrArg Block.lines hshows.block).trans
      (by simp [plainSetupFile, topLines, topBody, List.append_assoc])
  | first :: second :: rest, h =>
    obtain ⟨registered, hregister, hclose⟩ := except_bind_eq_ok.mp h
    cases hclose
    obtain ⟨hfirst, next, hnext, hrest⟩ :=
      registerModules_cons hi (hstart.appendLine moduleOpeningLine) hregister
    obtain ⟨hothers, hshows⟩ := registerModules_shows (second :: rest) hnext hrest
    refine ⟨?_, ?_⟩
    · intro m hm
      rcases List.mem_cons.mp hm with rfl | hm
      · exact hfirst
      · exact hothers m hm
    · rw [importsAbove_setupImports] at hshows
      have hclosed := hshows.appendLine "return parser"
      exact (congrArg Block.lines hclosed.block).trans
        (by simp [plainSetupFile, topLines, topBody, List.append_assoc])

/-! ## Generation -/

/-- Generation succeeds with the two files that are assembled for the collection. -/
theorem generate_eq_ok {surroundings : Surroundings} {collection : Collection} {parserFile : String}
    {files : Generated} (h : (generate surroundings collection parserFile).run.value = .ok files) :
    setupParser surroundings.runtime collection = .ok files.setupParser
      ∧ (entryPoint surroundings parserFile collection).value = files.entryPoint := by
  obtain ⟨-, -, h⟩ := Attempt.value_bind_eq_ok.mp h
  obtain ⟨setup, hsetup, h⟩ := Attempt.value_bind_eq_ok.mp h
  obtain ⟨entry, hentry, h⟩ := Attempt.value_bind_eq_ok.mp h
  obtain rfl : (⟨setup, entry⟩ : Generated) = files := Except.ok.inj h
  exact ⟨hsetup, Except.ok.inj hentry⟩

/-- Nothing but the setup file can keep the two files from being generated. -/
theorem exists_generate_eq_ok (surroundings : Surroundings) (collection : Collection)
    (parserFile : String) (h : (setupParser surroundings.runtime collection).isOk = true) :
    ∃ files, (generate surroundings collection parserFile).run.value = .ok files := by
  cases hsetup : setupParser surroundings.runtime collection with
  | error fault =>
    rw [hsetup] at h
    cases h
  | ok setup =>
    refine ⟨⟨setup, (entryPoint surroundings parserFile collection).value⟩, ?_⟩
    refine Attempt.value_bind_eq_ok.mpr ⟨(), rfl, ?_⟩
    refine Attempt.value_bind_eq_ok.mpr ⟨setup, hsetup, ?_⟩
    exact Attempt.value_bind_eq_ok.mpr ⟨_, rfl, rfl⟩

/-- Every argument is declared in the helper of its command. -/
theorem exists_line_argumentLine {surroundings : Surroundings} {collection : Collection}
    {parserFile : String} {files : Generated}
    (hgenerate : (generate surroundings collection parserFile).run.value = .ok files)
    {m : Module} (hm : m ∈ collection.modules) {command : Command}
    (hcommand : command ∈ m.commands) {arg : Argument} (harg : arg ∈ command.args ++ m.args) :
    ∃ line ∈ files.setupParser.lines, line.text = argumentLine arg := by
  obtain ⟨-, hlines⟩ := setupParser_eq_ok (generate_eq_ok hgenerate).1
  have hbody : argumentLine arg ∈ helperBody m command := by
    rw [helperBody, ← List.map_append]
    exact List.mem_append_left _ (List.mem_map_of_mem harg)
  have hhelper : ⟨argumentLine arg, 1⟩ ∈ helperLines m command :=
    List.mem_cons_of_mem _ (List.mem_map_of_mem hbody)
  have hsection : ⟨argumentLine arg, 1⟩ ∈ moduleSection m := by
    refine List.mem_append_left _ (List.mem_append_left _ ?_)
    exact List.mem_flatMap.mpr ⟨command, hcommand, List.mem_append_left _ hhelper⟩
  refine ⟨⟨argumentLine arg, 1⟩, ?_, rfl⟩
  rw [hlines, plainSetupFile]
  exact List.mem_append_left _ (List.mem_append_right _ (List.mem_flatMap.mpr ⟨m, hm, hsection⟩))

end ClassCli.Synthesis
