import ClassCli.Proofs.Synthesis.SetupFile

/-!
# Levels of the setup file

Only imports and first lines of functions stand at the top level of the setup file; every line of a body
is one level deeper. No name can disguise a line of a body as an import, because the names that a line
may start with have passed the check. So the imports are met once each, before everything else.

* **`Standing`** — what a line below the imports can be.
* **`generate_setupParser_lines`** — the lines of a generated setup file, in order and with their levels.
-/

namespace ClassCli.Synthesis

open Interface (Argument Collection Command Module)
open Code (Line functionLines gap header)
open Text (lowerString)

/-! ## Words that open a line -/

/-- The words that open a line of the top level: a function or an import. -/
def topWords : List (List Char) := ["def".toList, "from".toList]

/-- Whether a line opens a function or is an import. -/
def opensTopLevel (text : String) : Bool := topWords.contains (firstWord text)

/-- Whether a line is an import. -/
def isImport (text : String) : Bool := firstWord text == "from".toList

/-- The first word of a line holds a character that no word of the top level holds. -/
def Inner (text : String) : Prop := ∃ c ∈ firstWord text, ∀ word ∈ topWords, c ∉ word

theorem Inner.opensTopLevel {text : String} (h : Inner text) : opensTopLevel text = false := by
  obtain ⟨c, hc, hwords⟩ := h
  rw [Synthesis.opensTopLevel, ← Bool.not_eq_true, List.contains_iff_mem]
  intro hmem
  exact hwords _ hmem hc

theorem Inner.ne_empty {text : String} (h : Inner text) : text ≠ "" := by
  rintro rfl
  obtain ⟨c, hc, -⟩ := h
  exact absurd hc (by simp [firstWord])

theorem isImport_of_not_opensTopLevel {text : String} (h : opensTopLevel text = false) :
    isImport text = false := by
  rw [isImport, beq_eq_false_iff_ne]
  intro hfrom
  rw [opensTopLevel, hfrom] at h
  exact absurd h (by decide)

/-- What a line of the setup file below the imports can be. -/
inductive Standing : Line → Prop
  | blank : Standing Line.empty
  | head {text : String} : firstWord text = "def".toList → Standing ⟨text, 0⟩
  | body {text : String} : Inner text → Standing ⟨text, 1⟩

theorem Standing.level {line : Line} (h : Standing line) :
    line.level = if line.isBlank || opensTopLevel line.text then 0 else 1 := by
  cases h with
  | blank => rfl
  | head hdef => simp [Synthesis.opensTopLevel, hdef, topWords]
  | body hinner => simp [Line.isBlank, hinner.ne_empty, hinner.opensTopLevel]

theorem Standing.not_isImport {line : Line} (h : Standing line) : isImport line.text = false := by
  cases h with
  | blank => decide
  | head hdef =>
    simp only [isImport, hdef]
    decide
  | body hinner => exact isImport_of_not_opensTopLevel hinner.opensTopLevel

theorem standing_gap : ∀ line ∈ gap, Standing line := by
  intro line hl
  obtain rfl : line = Line.empty := by simpa [gap] using hl
  exact Standing.blank

theorem standing_functionLines (name : String) {body : List String} (h : ∀ text ∈ body, Inner text) :
    ∀ line ∈ functionLines (header name parserParams parserType) body, Standing line := by
  intro line hl
  rcases List.mem_cons.mp hl with rfl | hl
  · exact Standing.head (by simp [header, firstWord])
  · obtain ⟨text, ht, rfl⟩ := List.mem_map.mp hl
    exact Standing.body (h text ht)

theorem inner_append {word : String} (h : Unbroken word) {rest : String} {c : Char}
    (hc : c ∈ word.toList ++ firstWord rest) (hwords : ∀ top ∈ topWords, c ∉ top) :
    Inner (word ++ rest) :=
  ⟨c, by rwa [firstWord_append h], hwords⟩

theorem inner_argumentLine (arg : Argument) : Inner (argumentLine arg) := by
  have hline : argumentLine arg = "parser.add_argument(" ++ (options arg ++ ")") :=
    String.append_assoc
  have hword : Unbroken "parser.add_argument(" := by decide
  rw [hline]
  exact inner_append (c := 'p') hword (List.mem_append_left _ (by decide)) (by decide)

theorem inner_return : Inner "return parser" := ⟨'t', by decide, by decide⟩

/-- A line that starts with the variable of a parser is no line of the top level. -/
theorem inner_parserLine {word : String} (h : Unbroken word) (rest : String) :
    Inner (word ++ ("_parser" ++ rest)) := by
  refine inner_append (c := '_') h (List.mem_append_right _ ?_) (by decide)
  rw [firstWord_append (by decide)]
  exact List.mem_append_left _ (by decide)

theorem inner_commandLines {command : Command} (h : Unbroken (variableName command.name))
    (helper : String) : ∀ text ∈ CommandParser.commandLines command helper, Inner text := by
  intro text ht
  simp only [CommandParser.commandLines, List.mem_append, List.mem_cons, List.not_mem_nil,
    or_false] at ht
  rcases ht with (rfl | rfl) | ht
  · simp only [String.append_assoc]
    exact inner_parserLine h _
  · simp only [String.append_assoc]
    exact inner_parserLine h _
  · split at ht
    · obtain rfl := List.mem_singleton.mp ht
      simp only [String.append_assoc]
      exact inner_parserLine h _
    · exact absurd ht (by simp)

theorem inner_moduleLines {m : Module} (h : Unbroken (lowerString m.name)) (setupName : String) :
    ∀ text ∈ moduleLines m setupName, Inner text := by
  intro text ht
  simp only [moduleLines, List.mem_cons, List.not_mem_nil, or_false] at ht
  rcases ht with rfl | rfl
  · simp only [String.append_assoc]
    exact inner_parserLine h _
  · simp only [String.append_assoc]
    exact inner_parserLine h _

/-! ## The parts of the file -/

theorem inner_helperBody (m : Module) (command : Command) :
    ∀ text ∈ helperBody m command, Inner text := by
  intro text ht
  simp only [helperBody, List.mem_append, List.mem_map, List.mem_singleton] at ht
  rcases ht with (⟨arg, -, rfl⟩ | ⟨arg, -, rfl⟩) | rfl
  · exact inner_argumentLine arg
  · exact inner_argumentLine arg
  · exact inner_return

theorem standing_helperSection (m : Module) : ∀ line ∈ helperSection m, Standing line := by
  intro line hl
  obtain ⟨command, -, hl⟩ := List.mem_flatMap.mp hl
  rcases List.mem_append.mp hl with hl | hl
  · exact standing_functionLines _ (inner_helperBody m command) line hl
  · exact standing_gap line hl

theorem inner_registrationBody {m : Module} (h : Accepted m) :
    ∀ text ∈ registrationBody m, Inner text := by
  intro text ht
  simp only [registrationBody, List.mem_append, List.mem_cons, List.mem_flatMap, List.not_mem_nil,
    or_false] at ht
  rcases ht with (rfl | ⟨command, hc, ht⟩) | rfl
  · exact ⟨'_', by decide, by decide⟩
  · exact inner_commandLines (h.command command hc) _ text ht
  · exact inner_return

theorem standing_registrationLines {m : Module} (h : Accepted m) :
    ∀ line ∈ registrationLines m, Standing line :=
  standing_functionLines _ (inner_registrationBody h)

theorem standing_moduleSection {m : Module} (h : Accepted m) :
    ∀ line ∈ moduleSection m, Standing line := by
  intro line hl
  simp only [moduleSection, List.mem_append] at hl
  rcases hl with (hl | hl) | hl
  · exact standing_helperSection m line hl
  · exact standing_registrationLines h line hl
  · exact standing_gap line hl

theorem inner_topBody {modules : List Module} (h : ∀ m ∈ modules, Accepted m) :
    ∀ text ∈ topBody modules, Inner text := by
  intro text ht
  match modules, h, ht with
  | [], _, ht =>
    obtain rfl := List.mem_singleton.mp ht
    exact inner_return
  | [m], _, ht =>
    simp only [topBody, List.mem_cons, List.not_mem_nil, or_false] at ht
    rcases ht with rfl | rfl
    · simp only [String.append_assoc]
      exact ⟨'p', by simp [firstWord], by decide⟩
    · exact inner_return
  | first :: second :: rest, h, ht =>
    simp only [topBody, List.mem_append, List.mem_cons, List.mem_flatMap, List.not_mem_nil,
      or_false] at ht
    rcases ht with (rfl | ⟨m, hm, ht⟩) | rfl
    · exact ⟨'_', by decide, by decide⟩
    · exact inner_moduleLines (h m (by simpa using hm)).module _ text ht
    · exact inner_return

/-- Below the imports there are only gaps, functions and their bodies. -/
theorem standing_below {modules : List Module} (h : ∀ m ∈ modules, Accepted m) :
    ∀ line ∈ gap ++ modules.flatMap moduleSection ++ topLines modules, Standing line := by
  intro line hl
  simp only [List.mem_append, List.mem_flatMap] at hl
  rcases hl with (hl | ⟨m, hm, hl⟩) | hl
  · exact standing_gap line hl
  · exact standing_moduleSection (h m hm) line hl
  · exact standing_functionLines _ (inner_topBody h) line hl

/-! ## Imports -/

theorem isImport_of_mem_setupImports {runtime : String} {collection : Collection} :
    ∀ text ∈ setupImports runtime collection, isImport text = true := by
  intro text ht
  simp only [setupImports, List.mem_cons] at ht
  rcases ht with rfl | ht
  · decide
  · split at ht
    · obtain rfl := List.mem_singleton.mp ht
      simp [isImport, firstWord]
    · exact absurd ht (by simp)

theorem setupImports_nodup (runtime : String) (collection : Collection) :
    (setupImports runtime collection).Nodup := by
  unfold setupImports
  split
  · simp only [List.nodup_cons, List.mem_singleton, List.not_mem_nil, not_false_eq_true,
      List.nodup_nil, and_true]
    intro h
    have hend := congrArg (fun text : String => text.toList.reverse.take 6) h
    simp [argparseImport] at hend
  · simp

theorem filter_isImport_setupImports (runtime : String) (collection : Collection) :
    ((setupImports runtime collection).map fun text => (⟨text, 0⟩ : Line)).filter
        (isImport ·.text)
      = (setupImports runtime collection).map (⟨·, 0⟩) := by
  refine List.filter_eq_self.mpr ?_
  intro line hl
  obtain ⟨text, ht, rfl⟩ := List.mem_map.mp hl
  exact isImport_of_mem_setupImports text ht

/-- **The lines of a generated setup file.** They are the plain sequence of the parts; a line stands at
the top level exactly if it is blank or opens a function or is an import, and one level deeper
otherwise; and the imports are met in order, once each, before everything else. -/
theorem generate_setupParser_lines {surroundings : Surroundings} {collection : Collection}
    {parserFile : String} {files : Generated}
    (h : (generate surroundings collection parserFile).run.value = .ok files) :
    files.setupParser.lines = plainSetupFile surroundings.runtime collection
      ∧ (∀ line ∈ files.setupParser.lines,
          line.level = if line.isBlank || opensTopLevel line.text then 0 else 1)
      ∧ (setupImports surroundings.runtime collection).map (⟨·, 0⟩) <+: files.setupParser.lines
      ∧ files.setupParser.lines.filter (isImport ·.text)
          = (setupImports surroundings.runtime collection).map (⟨·, 0⟩)
      ∧ (setupImports surroundings.runtime collection).Nodup := by
  obtain ⟨hsetup, -⟩ := generate_eq_ok h
  obtain ⟨haccepted, hlines⟩ := setupParser_eq_ok hsetup
  have hsplit : files.setupParser.lines
      = (setupImports surroundings.runtime collection).map (⟨·, 0⟩)
        ++ (gap ++ collection.modules.flatMap moduleSection ++ topLines collection.modules) := by
    rw [hlines, plainSetupFile, importSection]
    simp only [List.append_assoc]
  -- below the imports no line is one, and the level of a line follows from its first word
  have hbelow := standing_below haccepted
  refine ⟨hlines, ?_, ⟨_, hsplit.symm⟩, ?_, setupImports_nodup _ _⟩
  · intro line hl
    rw [hsplit] at hl
    rcases List.mem_append.mp hl with hl | hl
    · obtain ⟨text, ht, rfl⟩ := List.mem_map.mp hl
      have himport : firstWord text = "from".toList :=
        eq_of_beq (isImport_of_mem_setupImports text ht)
      simp [opensTopLevel, himport, topWords]
    · exact (hbelow line hl).level
  · have hnone : (gap ++ collection.modules.flatMap moduleSection
        ++ topLines collection.modules).filter (isImport ·.text) = [] := by
      refine List.filter_eq_nil_iff.mpr ?_
      intro line hl
      simp [(hbelow line hl).not_isImport]
    rw [hsplit, List.filter_append, filter_isImport_setupImports, hnone, List.append_nil]

/-- A program of two classes; the first has a constructor with a parameter and a command that hands a
configuration over, the second has no commands. -/
def trainerAndReport : Collection :=
  ⟨[{ name := "Trainer", args := [.ofParameter "seed"], location := "train.py",
      commands := [
        { name := "fit", args := [.ofParameter "learning_rate"],
          flags := [{ name := Marker.hydraName }] },
        { name := "dry_run" }] },
    { name := "Report", location := "report.py" }]⟩

/-- The file is written out: a function for each command, one for the commands of each class, and one for the
classes. -/
theorem generate_setupParser_lines_trainerAndReport :
    ∃ files, (generate ⟨"/project", "argsmith"⟩ trainerAndReport "utils/parser.py").run.value = .ok files
      ∧ (files.setupParser.lines = plainSetupFile "argsmith" trainerAndReport
        ∧ (∀ line ∈ files.setupParser.lines,
            line.level = if line.isBlank || opensTopLevel line.text then 0 else 1)
        ∧ (setupImports "argsmith" trainerAndReport).map (⟨·, 0⟩) <+: files.setupParser.lines
        ∧ files.setupParser.lines.filter (isImport ·.text)
            = (setupImports "argsmith" trainerAndReport).map (⟨·, 0⟩)
        ∧ (setupImports "argsmith" trainerAndReport).Nodup)
      ∧ files.setupParser.lines.map (fun line => (line.level, line.text)) = [
          (0, "from argparse import ArgumentParser"),
          (0, "from argsmith.api.hydra import add_hydra_parser"),
          (0, ""),
          (0, ""),
          (0, "def add_trainer_fit_args(parser: ArgumentParser) -> ArgumentParser:"),
          (1, "parser.add_argument('--learning-rate', dest='learning_rate', help='', required=True)"),
          (1, "parser.add_argument('--seed', dest='seed', help='', required=True)"),
          (1, "return parser"),
          (0, ""),
          (0, ""),
          (0, "def add_trainer_dry_run_args(parser: ArgumentParser) -> ArgumentParser:"),
          (1, "parser.add_argument('--seed', dest='seed', help='', required=True)"),
          (1, "return parser"),
          (0, ""),
          (0, ""),
          (0, "def setup_trainer_parser(parser: ArgumentParser) -> ArgumentParser:"),
          (1, "command_subparser = parser.add_subparsers(dest='command', title='command')"),
          (1, "fit_parser = command_subparser.add_parser('fit', help='')"),
          (1, "fit_parser = add_trainer_fit_args(fit_parser)"),
          (1, "fit_parser = add_hydra_parser(fit_parser)"),
          (1, "dry_run_parser = command_subparser.add_parser('dry-run', help='')"),
          (1, "dry_run_parser = add_trainer_dry_run_args(dry_run_parser)"),
          (1, "return parser"),
          (0, ""),
          (0, ""),
          (0, "def setup_report_parser(parser: ArgumentParser) -> ArgumentParser:"),
          (1, "command_subparser = parser.add_subparsers(dest='command', title='command')"),
          (1, "return parser"),
          (0, ""),
          (0, ""),
          (0, "def setup_parser(parser: ArgumentParser) -> ArgumentParser:"),
          (1, "module_subparser = parser.add_subparsers(dest='module', title='module')"),
          (1, "trainer_parser = module_subparser.add_parser(name='Trainer', help='')"),
          (1, "trainer_parser = setup_trainer_parser(trainer_parser)"),
          (1, "report_parser = module_subparser.add_parser(name='Report', help='')"),
          (1, "report_parser = setup_report_parser(report_parser)"),
          (1, "return parser")] := by
  obtain ⟨files, h⟩ : ∃ files,
      (generate ⟨"/project", "argsmith"⟩ trainerAndReport "utils/parser.py").run.value = .ok files :=
    ⟨_, rfl⟩
  have hlines := generate_setupParser_lines h
  refine ⟨files, h, hlines, ?_⟩
  rw [hlines.1]
  decide +kernel

end ClassCli.Synthesis
