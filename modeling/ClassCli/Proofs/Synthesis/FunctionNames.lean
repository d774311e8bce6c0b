import Mathlib.Data.List.Nodup
import ClassCli.Proofs.Code.Token
import ClassCli.Proofs.Synthesis.SetupLevels
import ClassCli.Proofs.Text.Letters

/-!
# Names of the generated functions

Every function of the setup file is named after a module, or after a module and a command with an
underscore between them. Both parts may hold underscores themselves, and capitals are lost, so that two
commands can end up with one name; then the later function replaces the earlier one.

* **`definedNames`** — the names of the functions that a file defines.
* **`RunsInto`** — the name of one module goes on where that of another ends and a command begins.
* **`definedNames_nodup_iff`** — exactly when no name is defined twice.
-/

namespace ClassCli.Synthesis

open Interface (Collection Command Module)
open Code (Line functionLines gap header)
open Text (lowerString)

/-! ## Reading -/

/-- The name that a line defines as a function. -/
def definedName? (text : String) : Option String :=
  if firstWord text = "def".toList then
    some (String.ofList ((text.toList.drop 4).takeWhile (· != '(')))
  else none

/-- The names of the functions that a file defines, in order. -/
def definedNames (lines : List Line) : List String := lines.filterMap (definedName? ·.text)

theorem definedName?_header {name : String} (h : '(' ∉ name.toList)
    (params : List (String × String)) (returns : Option String) :
    definedName? (header name params returns) = some name := by
  obtain ⟨rest, hrest⟩ : ∃ rest, (header name params returns).toList
      = "def ".toList ++ (name.toList ++ '(' :: rest) := by
    simp only [header, String.toList_append, List.append_assoc]
    exact ⟨_, rfl⟩
  have hword : firstWord (header name params returns) = "def".toList := by
    rw [firstWord, hrest]
    rfl
  have hdrop : (header name params returns).toList.drop 4 = name.toList ++ '(' :: rest := by
    rw [hrest]
    rfl
  have hname : ∀ c ∈ name.toList, (c != '(') = true := by
    intro c hc
    rw [bne_iff_ne]
    rintro rfl
    exact h hc
  have htake : (name.toList ++ '(' :: rest).takeWhile (· != '(') = name.toList := by
    rw [List.takeWhile_append_of_pos hname, List.takeWhile_cons_of_neg (by simp), List.append_nil]
  rw [definedName?, if_pos hword, hdrop, htake, String.ofList_toList]

theorem definedName?_of_inner {text : String} (h : Inner text) : definedName? text = none := by
  have hword : firstWord text ≠ "def".toList := by
    intro hdef
    have htop := h.opensTopLevel
    rw [opensTopLevel, hdef] at htop
    exact absurd htop (by decide)
  rw [definedName?, if_neg hword]

theorem definedName?_of_isImport {text : String} (h : isImport text = true) :
    definedName? text = none := by
  have hword : firstWord text = "from".toList := eq_of_beq h
  rw [definedName?, hword]
  rfl

theorem definedNames_append (front back : List Line) :
    definedNames (front ++ back) = definedNames front ++ definedNames back :=
  List.filterMap_append

theorem definedNames_gap : definedNames gap = [] := by decide

theorem definedNames_functionLines {name : String} (hname : '(' ∉ name.toList) {body : List String}
    (hbody : ∀ text ∈ body, Inner text) :
    definedNames (functionLines (header name parserParams parserType) body) = [name] := by
  have hinner : (body.map fun text => (⟨text, 1⟩ : Line)).filterMap (definedName? ·.text) = [] := by
    refine List.filterMap_eq_nil_iff.mpr ?_
    intro line hl
    obtain ⟨text, ht, rfl⟩ := List.mem_map.mp hl
    exact definedName?_of_inner (hbody text ht)
  have hhead := definedName?_header hname parserParams parserType
  rw [definedNames, functionLines, List.filterMap_cons]
  dsimp only
  rw [hhead, hinner]

/-! ## The names of the file -/

/-- Whether the names of a module and its commands are identifiers. -/
def IdentifierNames (m : Module) : Prop :=
  Text.isIdentifier m.name.toList = true
    ∧ ∀ command ∈ m.commands, Text.isIdentifier command.name.toList = true

instance (m : Module) : Decidable (IdentifierNames m) :=
  inferInstanceAs (Decidable (_ ∧ ∀ command ∈ m.commands, _))

/-- What stands between the prefix and the suffix of the name of a helper. -/
def stem (m : Module) (command : Command) : String :=
  lowerString m.name ++ "_" ++ lowerString command.name

theorem not_mem_identifier {text : List Char} {c : Char} (hc : Code.isNameChar c = false)
    (h : Text.isIdentifier text = true) : c ∉ text := by
  intro hmem
  have hword := (Code.isWord_of_isIdentifier h).2 c hmem
  rw [hc] at hword
  exact absurd hword (by decide)

theorem bracket_not_mem_lowerString {name : String} (h : Text.isIdentifier name.toList = true) :
    '(' ∉ (lowerString name).toList := by
  rw [lowerString, String.toList_ofList]
  intro hmem
  exact not_mem_identifier (by decide) h (Text.mem_of_mem_lower (by decide) hmem)

/-- An identifier has no hyphens that could be replaced. -/
theorem variableName_identifier {name : String} (h : Text.isIdentifier name.toList = true) :
    variableName name = lowerString name := by
  have hsame : Text.replaceChar '-' '_' name.toList = name.toList := by
    rw [Text.replaceChar]
    conv => rhs; rw [← List.map_id name.toList]
    refine List.map_congr_left ?_
    intro c hc
    have hne : c ≠ '-' := by
      rintro rfl
      exact not_mem_identifier (by decide) h hc
    rw [if_neg hne]
    rfl
  rw [variableName, Text.replaceIn, hsame, String.ofList_toList]

theorem helperName_eq {m : Module} (h : IdentifierNames m) {command : Command}
    (hc : command ∈ m.commands) : helperName m command = "add_" ++ stem m command ++ "_args" := by
  rw [helperName, variableName_identifier (h.2 command hc)]
  rfl

theorem definedNames_helperLines {m : Module} (h : IdentifierNames m) {command : Command}
    (hc : command ∈ m.commands) : definedNames (helperLines m command) = [helperName m command] := by
  have hname : '(' ∉ (helperName m command).toList := by
    rw [helperName_eq h hc, stem]
    simp only [String.toList_append, List.mem_append, not_or]
    exact ⟨⟨by decide, ⟨bracket_not_mem_lowerString h.1, by decide⟩,
      bracket_not_mem_lowerString (h.2 command hc)⟩, by decide⟩
  exact definedNames_functionLines hname (inner_helperBody m command)

/-- The names of the functions about a module. -/
def moduleNames (m : Module) : List String := m.commands.map (helperName m) ++ [registrationName m]

theorem definedNames_moduleSection {m : Module} (h : IdentifierNames m) (ha : Accepted m) :
    definedNames (moduleSection m) = moduleNames m := by
  have hhelpers : definedNames (helperSection m) = m.commands.map (helperName m) := by
    rw [helperSection, definedNames, List.filterMap_flatMap, List.map_eq_flatMap]
    refine List.flatMap_congr ?_
    intro command hc
    show definedNames (helperLines m command ++ gap) = _
    rw [definedNames_append, definedNames_helperLines h hc, definedNames_gap]
    rfl
  have hname : '(' ∉ (registrationName m).toList := by
    simp only [registrationName, String.toList_append, List.mem_append, not_or]
    exact ⟨⟨by decide, bracket_not_mem_lowerString h.1⟩, by decide⟩
  rw [moduleSection, definedNames_append, definedNames_append, hhelpers, registrationLines,
    definedNames_functionLines hname (inner_registrationBody ha), definedNames_gap, List.append_nil,
    moduleNames]

/-- **The names that the setup file defines**: those about each module, and the function on top. -/
theorem definedNames_plainSetupFile (runtime : String) {collection : Collection}
    (h : ∀ m ∈ collection.modules, IdentifierNames m) (ha : ∀ m ∈ collection.modules, Accepted m) :
    definedNames (plainSetupFile runtime collection)
      = collection.modules.flatMap moduleNames ++ ["setup_parser"] := by
  have himports : definedNames (importSection (setupImports runtime collection)) = [] := by
    have hnone : ((setupImports runtime collection).map fun text => (⟨text, 0⟩ : Line)).filterMap
        (definedName? ·.text) = [] := by
      refine List.filterMap_eq_nil_iff.mpr ?_
      intro line hl
      obtain ⟨text, ht, rfl⟩ := List.mem_map.mp hl
      exact definedName?_of_isImport (isImport_of_mem_setupImports text ht)
    rw [importSection, definedNames_append, definedNames_gap, List.append_nil]
    exact hnone
  have hmodules : definedNames (collection.modules.flatMap moduleSection)
      = collection.modules.flatMap moduleNames := by
    rw [definedNames, List.filterMap_flatMap]
    refine List.flatMap_congr ?_
    intro m hm
    exact definedNames_moduleSection (h m hm) (ha m hm)
  rw [plainSetupFile, definedNames_append, definedNames_append, himports, hmodules, topLines,
    definedNames_functionLines (by decide) (inner_topBody ha), List.nil_append]

/-! ## Names that are equal -/

/-- The name of one module, an underscore and more is the name of the other, and a command of the first
one has this more, an underscore and a command of the other one for its name; capitals do not count. -/
def RunsInto (m other : Module) : Prop :=
  ∃ between : String, lowerString other.name = lowerString m.name ++ "_" ++ between
    ∧ ∃ command ∈ m.commands, ∃ further ∈ other.commands,
      lowerString command.name = between ++ "_" ++ lowerString further.name

theorem not_runsInto_self (m : Module) : ¬RunsInto m m := by
  rintro ⟨between, h, -⟩
  have hlength := congrArg String.length h
  simp only [String.length_append] at hlength
  have hone : "_".length = 1 := rfl
  omega

/-- Two different texts with an underscore and a third text behind each make the same text only if one
of them goes on where the other ends. -/
theorem append_underscore_eq {a b c d : List Char} (hne : a ≠ c) :
    a ++ '_' :: b = c ++ '_' :: d
      ↔ (∃ between, c = a ++ '_' :: between ∧ b = between ++ '_' :: d)
        ∨ ∃ between, a = c ++ '_' :: between ∧ d = between ++ '_' :: b := by
  constructor
  · intro h
    -- the longer front goes on behind the shorter one, and there the underscore comes first
    rcases List.append_eq_append_iff.mp h with ⟨more, hc, hb⟩ | ⟨more, ha, hd⟩
    · cases more with
      | nil => exact absurd (by rw [hc, List.append_nil]) hne
      | cons first between =>
        rw [List.cons_append, List.cons.injEq] at hb
        obtain ⟨rfl, hb⟩ := hb
        exact Or.inl ⟨between, hc, hb⟩
    · cases more with
      | nil => exact absurd (by rw [ha, List.append_nil]) hne
      | cons first between =>
        rw [List.cons_append, List.cons.injEq] at hd
        obtain ⟨rfl, hd⟩ := hd
        exact Or.inr ⟨between, ha, hd⟩
  · rintro (⟨between, rfl, rfl⟩ | ⟨between, rfl, rfl⟩)
    · simp only [List.append_assoc, List.cons_append]
    · simp only [List.append_assoc, List.cons_append]

theorem stem_eq_iff {m other : Module} {command further : Command} :
    stem m command = stem other further
      ↔ (lowerString m.name).toList ++ '_' :: (lowerString command.name).toList
        = (lowerString other.name).toList ++ '_' :: (lowerString further.name).toList := by
  have hmark : "_".toList = ['_'] := rfl
  rw [← String.toList_inj, stem, stem]
  simp only [String.toList_append, hmark, List.append_assoc, List.cons_append, List.nil_append]

/-- Within a module the stems are as different as the commands. -/
theorem stem_inj {m : Module} {command further : Command} :
    stem m command = stem m further ↔ lowerString command.name = lowerString further.name := by
  rw [stem_eq_iff, List.append_cancel_left_eq, List.cons.injEq, ← String.toList_inj]
  exact and_iff_right rfl

theorem eq_append_underscore {whole front back : String} :
    whole = front ++ "_" ++ back ↔ whole.toList = front.toList ++ '_' :: back.toList := by
  have hmark : "_".toList = ['_'] := rfl
  rw [← String.toList_inj]
  simp only [String.toList_append, hmark, List.append_assoc, List.cons_append, List.nil_append]

/-- **Stems of different modules are equal** only where one name runs into the other. -/
theorem exists_stem_eq_iff {m other : Module} (hne : lowerString m.name ≠ lowerString other.name) :
    (∃ command ∈ m.commands, ∃ further ∈ other.commands, stem m command = stem other further)
      ↔ RunsInto m other ∨ RunsInto other m := by
  have hlists : (lowerString m.name).toList ≠ (lowerString other.name).toList :=
    fun e => hne (String.toList_inj.mp e)
  constructor
  · rintro ⟨command, hc, further, hf, h⟩
    rw [stem_eq_iff, append_underscore_eq hlists] at h
    rcases h with ⟨between, hname, hrest⟩ | ⟨between, hname, hrest⟩
    · refine Or.inl ⟨String.ofList between, ?_, command, hc, further, hf, ?_⟩
      · rw [eq_append_underscore, String.toList_ofList, hname]
      · rw [eq_append_underscore, String.toList_ofList, hrest]
    · refine Or.inr ⟨String.ofList between, ?_, further, hf, command, hc, ?_⟩
      · rw [eq_append_underscore, String.toList_ofList, hname]
      · rw [eq_append_underscore, String.toList_ofList, hrest]
  · rintro (⟨between, hname, command, hc, further, hf, hrest⟩
      | ⟨between, hname, further, hf, command, hc, hrest⟩)
    · refine ⟨command, hc, further, hf, ?_⟩
      rw [stem_eq_iff, append_underscore_eq hlists]
      exact Or.inl ⟨between.toList, eq_append_underscore.mp hname, eq_append_underscore.mp hrest⟩
    · refine ⟨command, hc, further, hf, ?_⟩
      rw [stem_eq_iff, append_underscore_eq hlists]
      exact Or.inr ⟨between.toList, eq_append_underscore.mp hname, eq_append_underscore.mp hrest⟩

theorem head?_helperName (m : Module) (command : Command) :
    (helperName m command).toList.head? = some 'a' := by
  simp [helperName]

theorem head?_registrationName (m : Module) : (registrationName m).toList.head? = some 's' := by
  simp [registrationName]

/-- A helper is never named like a function that registers. -/
theorem helperName_ne_of_head? (m : Module) (command : Command) {name : String}
    (h : name.toList.head? = some 's') : helperName m command ≠ name := by
  rintro rfl
  rw [head?_helperName] at h
  exact absurd h (by decide)

theorem registrationName_inj {m other : Module} :
    registrationName m = registrationName other ↔ lowerString m.name = lowerString other.name := by
  rw [← String.toList_inj, ← String.toList_inj, registrationName, registrationName]
  simp only [String.toList_append, List.append_cancel_right_eq, List.append_cancel_left_eq]

theorem registrationName_ne_top (m : Module) : registrationName m ≠ "setup_parser" := by
  have hparser : "_parser".length = 7 := rfl
  have hsetup : "setup_".length = 6 := rfl
  have htop : "setup_parser".length = 12 := rfl
  intro h
  have hlength := congrArg String.length h
  simp only [registrationName, String.length_append] at hlength
  omega

theorem helperName_inj {m other : Module} (hm : IdentifierNames m) (ho : IdentifierNames other)
    {command further : Command} (hc : command ∈ m.commands) (hf : further ∈ other.commands) :
    helperName m command = helperName other further ↔ stem m command = stem other further := by
  rw [helperName_eq hm hc, helperName_eq ho hf, ← String.toList_inj, ← String.toList_inj]
  simp only [String.toList_append, List.append_cancel_right_eq, List.append_cancel_left_eq]

/-! ## Names that are defined once -/

/-- The functions about one module have different names if its commands differ in more than capitals. -/
theorem moduleNames_nodup_iff {m : Module} (h : IdentifierNames m) :
    (moduleNames m).Nodup ↔ (m.commands.map fun command => lowerString command.name).Nodup := by
  have hhelpers : (m.commands.map (helperName m)).Nodup
      ↔ (m.commands.map fun command => lowerString command.name).Nodup := by
    unfold List.Nodup
    rw [List.pairwise_map, List.pairwise_map]
    refine List.Pairwise.iff_of_mem ?_
    intro command further hc hf
    rw [ne_eq, ne_eq, helperName_inj h h hc hf, stem_inj]
  have hregistration : registrationName m ∉ m.commands.map (helperName m) := by
    intro hmem
    obtain ⟨command, -, heq⟩ := List.mem_map.mp hmem
    exact helperName_ne_of_head? m command (head?_registrationName m) heq
  rw [moduleNames, ← List.concat_eq_append, List.nodup_concat, and_iff_right hregistration, hhelpers]

/-- The functions about two modules of different names have different names unless one of the modules
runs into the other. -/
theorem disjoint_moduleNames_iff {m other : Module} (hm : IdentifierNames m)
    (ho : IdentifierNames other) (hne : lowerString m.name ≠ lowerString other.name) :
    (moduleNames m).Disjoint (moduleNames other) ↔ ¬RunsInto m other ∧ ¬RunsInto other m := by
  rw [← not_or, ← exists_stem_eq_iff hne, List.disjoint_left]
  constructor
  · rintro hdisjoint ⟨command, hc, further, hf, hstem⟩
    have hsame := (helperName_inj hm ho hc hf).mpr hstem
    exact hdisjoint (List.mem_append_left _ (List.mem_map_of_mem hc))
      (hsame ▸ List.mem_append_left _ (List.mem_map_of_mem hf))
  · intro hstems name hname hother
    simp only [moduleNames, List.mem_append, List.mem_map, List.mem_singleton] at hname hother
    rcases hname with ⟨command, hc, rfl⟩ | rfl
    · rcases hother with ⟨further, hf, heq⟩ | heq
      · exact hstems ⟨command, hc, further, hf, (helperName_inj hm ho hc hf).mp heq.symm⟩
      · exact helperName_ne_of_head? m command (head?_registrationName other) heq
    · rcases hother with ⟨further, -, heq⟩ | heq
      · exact helperName_ne_of_head? other further (head?_registrationName m) heq
      · exact hne (registrationName_inj.mp heq)

/-- The names of a generated setup file. -/
theorem definedNames_generate {surroundings : Surroundings} {collection : Collection}
    {parserFile : String} {files : Generated}
    (h : (generate surroundings collection parserFile).run.value = .ok files)
    (hn : ∀ m ∈ collection.modules, IdentifierNames m) :
    definedNames files.setupParser.lines
      = collection.modules.flatMap moduleNames ++ ["setup_parser"] := by
  obtain ⟨haccepted, hlines⟩ := setupParser_eq_ok (generate_eq_ok h).1
  rw [hlines, definedNames_plainSetupFile _ hn haccepted]

/-- **Exactly when no name is defined twice.** The commands of each module must differ in more than
capitals, and no module may run into another one; the names of modules themselves are taken to differ in
more than capitals. -/
theorem definedNames_nodup_iff {surroundings : Surroundings} {collection : Collection}
    {parserFile : String} {files : Generated}
    (h : (generate surroundings collection parserFile).run.value = .ok files)
    (hn : ∀ m ∈ collection.modules, IdentifierNames m)
    (hd : (collection.modules.map fun m => lowerString m.name).Nodup) :
    (definedNames files.setupParser.lines).Nodup
      ↔ (∀ m ∈ collection.modules, (m.commands.map fun command => lowerString command.name).Nodup)
        ∧ ∀ m ∈ collection.modules, ∀ other ∈ collection.modules, ¬RunsInto m other := by
  have htop : "setup_parser" ∉ collection.modules.flatMap moduleNames := by
    intro hmem
    obtain ⟨m, -, hmem⟩ := List.mem_flatMap.mp hmem
    rcases List.mem_append.mp hmem with hmem | hmem
    · obtain ⟨command, -, heq⟩ := List.mem_map.mp hmem
      exact helperName_ne_of_head? m command (by decide) heq
    · exact registrationName_ne_top m (List.mem_singleton.mp hmem).symm
  have hwithin : (∀ m ∈ collection.modules, (moduleNames m).Nodup)
      ↔ ∀ m ∈ collection.modules, (m.commands.map fun command => lowerString command.name).Nodup :=
    forall₂_congr fun m hm => moduleNames_nodup_iff (hn m hm)
  have hdiffer : collection.modules.Pairwise fun m other =>
      lowerString m.name ≠ lowerString other.name := List.pairwise_map.mp hd
  have hbetween : collection.modules.Pairwise (Function.onFun List.Disjoint moduleNames)
      ↔ ∀ m ∈ collection.modules, ∀ other ∈ collection.modules, ¬RunsInto m other := by
    constructor
    · intro hdisjoint
      -- running into is not symmetric, so each pair says it in both directions
      have hpairs : collection.modules.Pairwise fun m other =>
          ¬RunsInto m other ∧ ¬RunsInto other m := by
        refine (hdisjoint.and hdiffer).imp_of_mem ?_
        rintro m other hm ho ⟨hnames, hne⟩
        exact (disjoint_moduleNames_iff (hn m hm) (hn other ho) hne).mp hnames
      have hforth := hpairs.imp fun h => h.1
      have hback := hpairs.imp fun h => h.2
      exact List.Pairwise.forall_of_forall_of_flip (fun m _ => not_runsInto_self m) hforth hback
    · intro hruns
      refine List.Pairwise.imp_of_mem ?_ hdiffer
      intro m other hm ho hne
      exact (disjoint_moduleNames_iff (hn m hm) (hn other ho) hne).mpr
        ⟨hruns m hm other ho, hruns other ho m hm⟩
  rw [definedNames_generate h hn, ← List.concat_eq_append, List.nodup_concat, and_iff_right htop,
    List.nodup_flatMap, hwithin, hbetween]

/-- Two classes whose names do not run into each other's commands. -/
theorem definedNames_nodup_iff_trainerAndReport :
    ∃ files,
      (generate ⟨"/project", "argsmith"⟩ trainerAndReport "utils/parser.py").run.value = .ok files
        ∧ (∀ m ∈ trainerAndReport.modules, IdentifierNames m)
        ∧ (trainerAndReport.modules.map fun m => lowerString m.name).Nodup
        ∧ (definedNames files.setupParser.lines).Nodup
        ∧ ∀ m ∈ trainerAndReport.modules, ∀ other ∈ trainerAndReport.modules, ¬RunsInto m other := by
  obtain ⟨files, h⟩ := exists_generate_eq_ok ⟨"/project", "argsmith"⟩ trainerAndReport "utils/parser.py"
    (by decide +kernel)
  have hn : ∀ m ∈ trainerAndReport.modules, IdentifierNames m := by decide +kernel
  have hd : (trainerAndReport.modules.map fun m => lowerString m.name).Nodup := by decide +kernel
  have hnodup : (definedNames files.setupParser.lines).Nodup := by
    rw [definedNames_generate h hn]
    decide +kernel
  exact ⟨files, h, hn, hd, hnodup, ((definedNames_nodup_iff h hn hd).mp hnodup).2⟩

/-- A class whose name and an underscore begin the name of another class. -/
def journals : Collection :=
  ⟨[{ name := "Log", location := "log.py", commands := [{ name := "file_clear" }] },
    { name := "Log_file", location := "log_file.py", commands := [{ name := "clear" }] }]⟩

/-- A class with two commands that differ in a capital only. -/
def runner : Collection :=
  ⟨[{ name := "Runner", location := "runner.py", commands := [{ name := "run" }, { name := "Run" }] }]⟩

/-- What is asked of a collection: its modules differ in more than capitals, and the commands of each
module differ. -/
def DistinctNames (collection : Collection) : Prop :=
  (collection.modules.map fun m => lowerString m.name).Nodup
    ∧ ∀ m ∈ collection.modules, IdentifierNames m ∧ (m.commands.map (·.name)).Nodup

instance (collection : Collection) : Decidable (DistinctNames collection) :=
  inferInstanceAs (Decidable (_ ∧ ∀ m ∈ collection.modules, _ ∧ _))

/-- Distinct modules and commands do not keep a name from being defined twice. -/
theorem definedNames_repeated :
    (∃ files, (generate ⟨"/project", "argsmith"⟩ journals "cli/utils/parser.py").run.value = .ok files
      ∧ DistinctNames journals
      ∧ definedNames files.setupParser.lines
        = ["add_log_file_clear_args", "setup_log_parser", "add_log_file_clear_args",
          "setup_log_file_parser", "setup_parser"])
      ∧ ∃ files, (generate ⟨"/project", "argsmith"⟩ runner "cli/utils/parser.py").run.value = .ok files
        ∧ DistinctNames runner
        ∧ definedNames files.setupParser.lines
          = ["add_runner_run_args", "add_runner_run_args", "setup_runner_parser", "setup_parser"] := by
  obtain ⟨first, hfirst⟩ := exists_generate_eq_ok ⟨"/project", "argsmith"⟩ journals "cli/utils/parser.py"
    (by decide +kernel)
  obtain ⟨second, hsecond⟩ := exists_generate_eq_ok ⟨"/project", "argsmith"⟩ runner "cli/utils/parser.py"
    (by decide +kernel)
  have hjournals : DistinctNames journals := by decide +kernel
  have hrunner : DistinctNames runner := by decide +kernel
  refine ⟨⟨first, hfirst, hjournals, ?_⟩, second, hsecond, hrunner, ?_⟩
  · rw [definedNames_generate hfirst fun m hm => (hjournals.2 m hm).1]
    decide +kernel
  · rw [definedNames_generate hsecond fun m hm => (hrunner.2 m hm).1]
    decide +kernel

end ClassCli.Synthesis
