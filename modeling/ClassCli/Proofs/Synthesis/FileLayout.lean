import ClassCli.Proofs.Code.Indentation
import ClassCli.Proofs.Path
import ClassCli.Proofs.Synthesis.Agreement

/-!
# The layout of the generated files

Both files are written statements with gaps between them. Each of their lines is one line if names are
identifiers and paths have no line ends, and it ends in a colon exactly if it opens a function, a match, a
case or a condition, all of which have something below them.

* **`not_mem_modulePath`** — a dotted name consists of characters of its path and of points.
* **`soundAll_setupTrees`**, **`soundAll_entryTrees`** — the lines of the files, part by part.
* **`generate_laidOut`** — both files are laid out.
-/

namespace ClassCli.Synthesis

open Interface (Argument Collection Command Module)
open Code (LaidOut OneLine Pattern SimpleLine Statement)
open Code.Statement (SoundAll)
open Text (lowerString)

/-! ## Dotted names of files -/

/-- Dropping the ending of a file adds no characters. -/
theorem mem_of_mem_withoutEnding {name : List Char} {c : Char} (hc : c ∈ withoutEnding name) :
    c ∈ name := by
  unfold withoutEnding Text.beforeEnd at hc
  cases hstart : Text.afterStart ['.', 'p', 'y'].reverse name.reverse with
  | none =>
    rw [hstart] at hc
    exact hc
  | some rest =>
    rw [hstart] at hc
    exact List.mem_reverse.mp (Text.mem_of_afterStart hstart c (List.mem_reverse.mp hc))

theorem mem_mapLast {α : Type} {f : α → α} {items : List α} {x : α} (h : x ∈ mapLast f items) :
    ∃ y ∈ items, x = y ∨ x = f y := by
  fun_induction mapLast f items with
  | case1 => exact absurd h List.not_mem_nil
  | case2 y => exact ⟨y, List.mem_cons_self, Or.inr (List.mem_singleton.mp h)⟩
  | case3 y z rest ih =>
    rcases List.mem_cons.mp h with rfl | h
    · exact ⟨x, List.mem_cons_self, Or.inl rfl⟩
    · obtain ⟨other, ho, hx⟩ := ih h
      exact ⟨other, List.mem_cons_of_mem y ho, hx⟩

/-- **The dotted name of a file** consists of characters of its path and of points. -/
theorem not_mem_modulePath {c : Char} {location : String} (hpoint : c ≠ '.') (h : c ∉ location.toList)
    (projectRoot : String) : c ∉ (modulePath projectRoot location).toList := by
  have hnames : ∀ name ∈ Path.names ((Path.after (Path.components projectRoot)
      (Path.components location)).getD (Path.components location)), c ∉ name := by
    intro name hname hc
    obtain ⟨component, hmem, hnormal⟩ := List.mem_filterMap.mp hname
    obtain rfl : component = .normal name := by
      cases component with
      | normal own => exact congrArg Path.Component.normal (Option.some.inj hnormal)
      | root | current | parent => cases hnormal
    refine h (Path.mem_of_mem_components ?_ hc)
    cases hafter : Path.after (Path.components projectRoot) (Path.components location) with
    | none =>
      rw [hafter] at hmem
      exact hmem
    | some rest =>
      rw [hafter] at hmem
      exact Path.mem_of_mem_after hafter _ hmem
  rw [modulePath, String.toList_ofList]
  refine Text.not_mem_join (by simpa using hpoint) ?_
  intro piece hp hc
  obtain ⟨name, hname, rfl | rfl⟩ := mem_mapLast hp
  · exact hnames piece hname hc
  · exact hnames name hname (mem_of_mem_withoutEnding hc)

theorem oneLine_modulePath {location : String} (h : OneLine location) (projectRoot : String) :
    OneLine (modulePath projectRoot location) := by
  have hpoint : ∀ c ∈ Code.lineEnds, c ≠ '.' := Code.forall_lineEnds.mpr (by decide)
  exact fun c hc => not_mem_modulePath (hpoint c hc) (h c hc) projectRoot

/-! ## Names -/

theorem Unbroken.oneLine {word : String} (h : Unbroken word) : OneLine word := by
  have hends : ∀ c ∈ Code.lineEnds, Text.isBlank c = true := Code.forall_lineEnds.mpr (by decide)
  intro c hc hmem
  have hblank := hends c hc
  rw [h c hmem] at hblank
  cases hblank

theorem oneLine_helperName {m : Module} (h : Accepted m) {command : Command} (hc : command ∈ m.commands) :
    OneLine (helperName m command) := by
  simp +decide [helperName, h.module.oneLine, (h.command command hc).oneLine]

theorem oneLine_registrationName {m : Module} (h : Accepted m) : OneLine (registrationName m) := by
  simp +decide [registrationName, h.module.oneLine]

/-! ## The setup file -/

theorem oneLine_help (text : String) : OneLine (help text) := Code.oneLine_quote _

/-- What can be said about how values are read. -/
theorem mem_readingOptions {arg : Argument} {text : String} (h : text ∈ readingOptions arg) :
    text ∈ ["action='store_true'", "action='store_false'", "type=int", "type=float", "type=str", "type=bool",
      "nargs='+'"] := by
  unfold readingOptions at h
  split at h
  · obtain rfl := List.mem_singleton.mp h
    unfold switchAction
    split
    · decide
    · decide
  · rcases List.mem_append.mp h with h | h
    · obtain ⟨kind, -, rfl⟩ := Option.map_eq_some_iff.mp (Option.mem_toList.mp h)
      cases kind <;> decide
    · split at h
      · obtain rfl := List.mem_singleton.mp h
        decide
      · cases h

theorem oneLine_readingOptions (arg : Argument) : ∀ text ∈ readingOptions arg, OneLine text := by
  intro text ht
  have hall : ∀ text ∈ ["action='store_true'", "action='store_false'", "type=int", "type=float", "type=str",
      "type=bool", "nargs='+'"], OneLine text := by decide
  exact hall text (mem_readingOptions ht)

theorem oneLine_absenceOptions (arg : Argument) : ∀ text ∈ absenceOptions arg, OneLine text := by
  intro text ht
  unfold absenceOptions at ht
  split at ht
  · exact absurd ht List.not_mem_nil
  · split at ht
    · obtain rfl := List.mem_singleton.mp ht
      decide
    · exact absurd ht List.not_mem_nil
    · obtain rfl := List.mem_singleton.mp ht
      simp +decide [Code.oneLine_literal]

/-- Whatever an argument holds, its declaration is one line. -/
theorem oneLine_options (arg : Argument) : OneLine (options arg) := by
  refine OneLine.joinStrings (by decide) ?_
  intro text ht
  simp only [optionList, List.mem_append, List.mem_cons, List.not_mem_nil, or_false] at ht
  rcases ht with (((rfl | rfl) | ht) | rfl) | ht
  · exact Code.oneLine_quote _
  · simp +decide
  · exact oneLine_readingOptions arg text ht
  · simp +decide [oneLine_help]
  · exact oneLine_absenceOptions arg text ht

/-- A call without its last parenthesis is made a simple line by it. -/
theorem simpleLine_call {call : String} (h : OneLine call) : SimpleLine (call ++ ")") :=
  SimpleLine.append h (by decide)

theorem simpleLine_return : SimpleLine "return parser" := by decide

theorem simpleLine_argumentLine (arg : Argument) : SimpleLine (argumentLine arg) :=
  simpleLine_call (by simp +decide [oneLine_options])

theorem simpleLine_helperBody (m : Module) (command : Command) :
    ∀ text ∈ helperBody m command, SimpleLine text := by
  intro text ht
  simp only [helperBody, List.mem_append, List.mem_map, List.mem_singleton] at ht
  rcases ht with (⟨arg, -, rfl⟩ | ⟨arg, -, rfl⟩) | rfl
  · exact simpleLine_argumentLine arg
  · exact simpleLine_argumentLine arg
  · exact simpleLine_return

theorem simpleLine_registration {m : Module} (h : Accepted m) {command : Command}
    (hc : command ∈ m.commands) : ∀ text ∈ registration m command, SimpleLine text := by
  have hword := (h.command command hc).oneLine
  have hhelper := oneLine_helperName h hc
  intro text ht
  simp only [registration, CommandParser.commandLines, List.mem_append, List.mem_cons, List.not_mem_nil,
    or_false] at ht
  rcases ht with (rfl | rfl) | ht
  · exact simpleLine_call (by simp +decide [hword, oneLine_help])
  · exact simpleLine_call (by simp +decide [hword, hhelper])
  · split at ht
    · obtain rfl := List.mem_singleton.mp ht
      exact simpleLine_call (by simp +decide [hword])
    · exact absurd ht List.not_mem_nil

theorem simpleLine_registrationBody {m : Module} (h : Accepted m) :
    ∀ text ∈ registrationBody m, SimpleLine text := by
  intro text ht
  simp only [registrationBody, List.mem_append, List.mem_cons, List.mem_flatMap, List.not_mem_nil,
    or_false] at ht
  rcases ht with (rfl | ⟨command, hc, ht⟩) | rfl
  · decide
  · exact simpleLine_registration h hc text ht
  · exact simpleLine_return

theorem simpleLine_moduleLines {m : Module} (h : Accepted m) :
    ∀ text ∈ moduleLines m (registrationName m), SimpleLine text := by
  have hname := oneLine_registrationName h
  intro text ht
  simp only [moduleLines, List.mem_cons, List.not_mem_nil, or_false] at ht
  rcases ht with rfl | rfl
  · exact simpleLine_call (by simp +decide [h.module.oneLine, oneLine_help])
  · exact simpleLine_call (by simp +decide [h.module.oneLine, hname])

theorem simpleLine_topBody {modules : List Module} (h : ∀ m ∈ modules, Accepted m) :
    ∀ text ∈ topBody modules, SimpleLine text := by
  intro text ht
  match modules, h, ht with
  | [], _, ht =>
    obtain rfl := List.mem_singleton.mp ht
    exact simpleLine_return
  | [m], h, ht =>
    simp only [topBody, List.mem_cons, List.not_mem_nil, or_false] at ht
    rcases ht with rfl | rfl
    · have hname := oneLine_registrationName (h m List.mem_cons_self)
      exact SimpleLine.append (by simp +decide [hname]) (by decide)
    · exact simpleLine_return
  | first :: second :: rest, h, ht =>
    simp only [topBody, List.mem_append, List.mem_cons, List.mem_flatMap, List.not_mem_nil,
      or_false] at ht
    rcases ht with (rfl | ⟨m, hm, ht⟩) | rfl
    · decide
    · exact simpleLine_moduleLines (h m (by simpa using hm)) text ht
    · exact simpleLine_return

theorem simpleLine_setupImports {runtime : String} (h : OneLine runtime) (collection : Collection) :
    ∀ text ∈ setupImports runtime collection, SimpleLine text := by
  intro text ht
  rcases List.mem_cons.mp ht with rfl | ht
  · decide
  · split at ht
    · obtain rfl := List.mem_singleton.mp ht
      exact SimpleLine.append (by simp +decide [h]) (by decide)
    · exact absurd ht List.not_mem_nil

/-- A function that sets up a parser, with the lines of its body. -/
theorem sound_setupFunction {name : String} {body : List String} (hn : OneLine name) (hne : body ≠ [])
    (h : ∀ text ∈ body, SimpleLine text) :
    (Statement.node (Code.header name parserParams parserType) (body.map .leaf)).Sound :=
  Code.sound_function hn (by decide) (by decide) (by simpa using hne) (Statement.soundAll_leaves h)

theorem soundAll_moduleTrees {m : Module} (h : Accepted m) : SoundAll (moduleTrees m) := by
  rw [Statement.soundAll_iff]
  intro tree ht
  rcases List.mem_append.mp ht with ht | ht
  · obtain ⟨command, hc, rfl⟩ := List.mem_map.mp ht
    exact sound_setupFunction (oneLine_helperName h hc) (by simp [helperBody])
      (simpleLine_helperBody m command)
  · obtain rfl := List.mem_singleton.mp ht
    exact sound_setupFunction (oneLine_registrationName h) (by simp [registrationBody])
      (simpleLine_registrationBody h)

theorem topBody_ne_nil (modules : List Module) : topBody modules ≠ [] := by
  match modules with
  | [] | [_] | _ :: _ :: _ => simp [topBody]

/-- **The lines of the setup file**, if the checks of names have passed. -/
theorem soundAll_setupTrees {runtime : String} {collection : Collection} (hr : OneLine runtime)
    (h : ∀ m ∈ collection.modules, Accepted m) : SoundAll (setupTrees runtime collection) := by
  have hmodules : SoundAll (collection.modules.flatMap moduleTrees) := by
    rw [Statement.soundAll_iff]
    intro tree ht
    obtain ⟨m, hm, ht⟩ := List.mem_flatMap.mp ht
    exact (Statement.soundAll_iff _).mp (soundAll_moduleTrees (h m hm)) tree ht
  have htop : (topTree collection.modules).Sound :=
    sound_setupFunction (by decide) (topBody_ne_nil _) (simpleLine_topBody h)
  have himports := Statement.soundAll_leaves (simpleLine_setupImports hr collection)
  exact Statement.soundAll_append (Statement.soundAll_append himports hmodules) ⟨htop, trivial⟩

/-! ## The entry point -/

/-- The names in the settings of the markers are identifiers. -/
def Keyed (m : Module) : Prop :=
  ∀ command ∈ m.commands, ∀ flag ∈ command.flags, ∀ entry ∈ flag.values,
    Text.isIdentifier entry.1.toList = true

instance (m : Module) : Decidable (Keyed m) :=
  inferInstanceAs (Decidable (∀ command ∈ m.commands, ∀ flag ∈ command.flags,
    ∀ entry ∈ flag.values, Text.isIdentifier entry.1.toList = true))

theorem simpleLine_construction {m : Module} (h : Named m) : SimpleLine (construction m) := by
  have hargs := Code.oneLine_callArgs fun arg ha => OneLine.of_identifier (h.args arg ha)
  exact simpleLine_call (by simp +decide [OneLine.of_identifier h.name, hargs])

theorem simpleLine_invocation {m : Module} (h : Named m) (hk : Keyed m) {command : Command}
    (hc : command ∈ m.commands) : SimpleLine (invocation command) := by
  have hname := OneLine.of_identifier (h.commandName command hc)
  have hargs := Code.oneLine_callArgs fun arg ha => OneLine.of_identifier (h.commandArgs command hc arg ha)
  unfold invocation
  split
  · exact simpleLine_call (by simp +decide [hname, hargs])
  · rename_i flag hflag
    have hmem : flag ∈ command.flags := List.mem_of_find?_eq_some hflag
    refine simpleLine_call (Code.oneLine_append.mpr ⟨by decide, OneLine.joinStrings (by decide) ?_⟩)
    intro text ht
    simp only [List.mem_append, List.mem_cons, List.mem_map, List.not_mem_nil, or_false] at ht
    rcases ht with (rfl | rfl | rfl) | ⟨entry, he, rfl⟩
    · simp +decide [hname]
    · decide
    · decide
    · have hkey := OneLine.of_identifier (hk command hc flag hmem entry he)
      simp +decide [hkey, Code.oneLine_literal]

theorem soundAll_refusal : SoundAll refusal :=
  ⟨Statement.sound_leaf (by decide), trivial⟩

theorem sound_commandTree {m : Module} (h : Named m) (hk : Keyed m) : (commandTree m).Sound := by
  refine Code.sound_matchTree (by decide) (by simp [commandCases]) ?_
  intro c hc
  rcases List.mem_append.mp hc with hc | hc
  · obtain ⟨command, hmem, rfl⟩ := List.mem_map.mp hc
    exact ⟨by simp [armSuite], Statement.sound_leaf (simpleLine_construction h),
      Statement.sound_leaf (simpleLine_invocation h hk hmem), trivial⟩
  · obtain rfl := List.mem_singleton.mp hc
    exact ⟨by simp [refusal], soundAll_refusal⟩

theorem sound_moduleTree {modules : List Module} (h : ∀ m ∈ modules, Named m)
    (hk : ∀ m ∈ modules, Keyed m) : (moduleTree modules).Sound := by
  refine Code.sound_matchTree (by decide) (by simp [moduleCases]) ?_
  intro c hc
  rcases List.mem_append.mp hc with hc | hc
  · obtain ⟨m, hm, rfl⟩ := List.mem_map.mp hc
    exact ⟨by simp, sound_commandTree (h m hm) (hk m hm), trivial⟩
  · obtain rfl := List.mem_singleton.mp hc
    exact ⟨by simp [refusal], soundAll_refusal⟩

theorem soundAll_dispatchTrees {modules : List Module} (h : ∀ m ∈ modules, Named m)
    (hk : ∀ m ∈ modules, Keyed m) : SoundAll (dispatchTrees modules) := by
  match modules, h, hk with
  | [], _, _ => trivial
  | [m], h, hk =>
    exact ⟨sound_commandTree (h m List.mem_cons_self) (hk m List.mem_cons_self), trivial⟩
  | first :: second :: rest, h, hk => exact ⟨sound_moduleTree h hk, trivial⟩

theorem simpleLine_entryImportTexts {surroundings : Surroundings} {parserFile : String}
    {collection : Collection} (hr : OneLine surroundings.runtime) (hp : OneLine parserFile)
    (hl : ∀ m ∈ collection.modules, OneLine m.location) (hn : ∀ m ∈ collection.modules, Named m) :
    ∀ text ∈ entryImportTexts surroundings parserFile collection, SimpleLine text := by
  intro text ht
  simp only [entryImportTexts, classImports, List.mem_append, mem_foldl_withNew, List.mem_singleton,
    List.mem_map] at ht
  rcases ht with ((rfl | ⟨m, hm, rfl⟩) | rfl) | ht
  · decide
  · have hpath := oneLine_modulePath (hl m hm) surroundings.projectRoot
    exact SimpleLine.append (by simp +decide [hpath]) (SimpleLine.of_identifier (hn m hm).name)
  · have hpath := oneLine_modulePath hp surroundings.projectRoot
    exact SimpleLine.append (by simp +decide [hpath]) (by decide)
  · split at ht
    · obtain rfl := List.mem_singleton.mp ht
      exact SimpleLine.append (by simp +decide [hr]) (by decide)
    · exact absurd ht List.not_mem_nil

theorem sound_createTree (collection : Collection) : (createTree collection).Sound := by
  refine Code.sound_function (by decide) (by decide) (by decide) (by simp) ?_
  exact ⟨Statement.sound_leaf (simpleLine_call (by simp +decide [oneLine_help])),
    Statement.sound_leaf (by decide), Statement.sound_leaf (by decide), trivial⟩

theorem sound_mainTree : mainTree.Sound := by
  have hprint : SoundAll [.leaf "parser.print_usage()"] := ⟨Statement.sound_leaf (by decide), trivial⟩
  have hcheck : (Statement.node "if not execute(args_dict):" [.leaf "parser.print_usage()"]).Sound :=
    Statement.sound_node (by decide) (by decide) (by simp) hprint
  refine Code.sound_function (by decide) (by decide) (by decide) (by simp) ?_
  exact ⟨Statement.sound_leaf (by decide), Statement.sound_leaf (by decide),
    Statement.sound_leaf (by decide), hcheck, trivial⟩

theorem sound_guardTree : guardTree.Sound :=
  Statement.sound_node (by decide) (by decide) (by simp) ⟨Statement.sound_leaf (by decide), trivial⟩

/-- **The lines of the entry point**, if names are identifiers and paths have no line ends. -/
theorem soundAll_entryTrees {surroundings : Surroundings} {parserFile : String}
    {collection : Collection} (hr : OneLine surroundings.runtime) (hp : OneLine parserFile)
    (hl : ∀ m ∈ collection.modules, OneLine m.location) (hn : ∀ m ∈ collection.modules, Named m)
    (hk : ∀ m ∈ collection.modules, Keyed m) :
    SoundAll (entryTrees surroundings parserFile collection) := by
  have hreturn : SoundAll [.leaf "return True"] := ⟨Statement.sound_leaf (by decide), trivial⟩
  have hexecute : (executeTree collection).Sound :=
    Code.sound_function (by decide) (by decide) (by decide) (by simp)
      (Statement.soundAll_append (soundAll_dispatchTrees hn hk) hreturn)
  have himports := Statement.soundAll_leaves (simpleLine_entryImportTexts hr hp hl hn)
  exact Statement.soundAll_append himports
    ⟨hexecute, sound_createTree collection, sound_mainTree, sound_guardTree, trivial⟩

/-! ## Both files -/

/-- **The generated files are laid out**: what is written as a line is one line, the first one stands at
the top level, and a deeper line follows exactly below a line that ends in a colon, by one level. -/
theorem generate_laidOut {surroundings : Surroundings} {collection : Collection} {parserFile : String}
    {files : Generated} (h : (generate surroundings collection parserFile).run.value = .ok files)
    (hn : ∀ m ∈ collection.modules, Named m) (hk : ∀ m ∈ collection.modules, Keyed m)
    (hl : ∀ m ∈ collection.modules, OneLine m.location) (hp : OneLine parserFile)
    (hr : OneLine surroundings.runtime) :
    LaidOut files.setupParser.lines ∧ LaidOut files.entryPoint.lines := by
  obtain ⟨hsetup, hentry⟩ := generate_eq_ok h
  obtain ⟨haccepted, hlines⟩ := setupParser_eq_ok hsetup
  constructor
  · rw [hlines]
    exact Code.laidOut_of_filter (soundAll_setupTrees hr haccepted) (by simp [setupTrees])
      (filter_plainSetupFile surroundings.runtime collection)
  · rw [← hentry]
    exact Code.laidOut_of_filter (soundAll_entryTrees hr hp hl hn hk) (by simp [entryTrees])
      (filter_entryPoint surroundings parserFile collection)

/-- A class whose texts have line ends and colons in them, and a class without commands. -/
def sweepAndReport : Collection :=
  ⟨[{ name := "Sweep", help := "Steps:\n  all of them:", args := [.ofParameter "seed"],
      location := "jobs/sweep.py",
      commands := [
        { name := "run_all", help := "One line:\nand another",
          args := [{ name := "out-dir", destination := "out_dir", default := some (.str "a\r\nb:") }],
          flags := [{ name := Marker.hydraName,
                      values := [("config_path", .str "conf:\n"), ("version_base", .none)] }] },
        { name := "stop" }] },
    { name := "Report", location := "report.py" }]⟩

theorem generate_laidOut_sweepAndReport :
    ∃ files, (generate ⟨"/project", "argsmith"⟩ sweepAndReport "utils/parser.py").run.value = .ok files
      ∧ (∀ m ∈ sweepAndReport.modules, Named m) ∧ (∀ m ∈ sweepAndReport.modules, Keyed m)
      ∧ (∀ m ∈ sweepAndReport.modules, OneLine m.location) ∧ OneLine "utils/parser.py" ∧ OneLine "argsmith"
      ∧ LaidOut files.setupParser.lines ∧ LaidOut files.entryPoint.lines := by
  obtain ⟨files, h⟩ : ∃ files,
      (generate ⟨"/project", "argsmith"⟩ sweepAndReport "utils/parser.py").run.value = .ok files :=
    ⟨_, rfl⟩
  have hn : ∀ m ∈ sweepAndReport.modules, Named m := by decide +kernel
  have hk : ∀ m ∈ sweepAndReport.modules, Keyed m := by decide +kernel
  have hl : ∀ m ∈ sweepAndReport.modules, OneLine m.location := by decide +kernel
  have hp : OneLine "utils/parser.py" := by decide
  have hr : OneLine "argsmith" := by decide
  exact ⟨files, h, hn, hk, hl, hp, hr, generate_laidOut h hn hk hl hp hr⟩

end ClassCli.Synthesis
