import ClassCli.Proofs.Extraction.Sources
import ClassCli.Proofs.Synthesis.SetupReading

/-!
# Options that are typed

The helper of a command declares one option for every argument of the command and one for every argument
of the constructor. These come from two methods that are never compared, and a parser has an option for
help from the start. A parser refuses an option that it has.

* **`declaredOptions`** — the options that the helpers of a setup file declare.
* **`declaredOptions_accepted_iff`** — exactly when none of them is refused.
-/

namespace ClassCli.Synthesis

open Extraction (ProperParams SourceFile Tidy TidyModule extractSources methodsIn typed_inj)
open Interface (Argument Collection Command Module)
open Code (Line nest tokens)

/-! ## Reading -/

/-- The option that a line declares. -/
def declaredOption? (text : String) : Option String :=
  match tokens text with
  | .name "parser" :: .symbol '.' :: .name "add_argument" :: .symbol '(' :: .string option :: _ =>
    some option
  | _ => none

/-- The options that the helpers of a setup file declare, module by module and command by command. -/
def declaredOptions (lines : List Line) : List (List (List String)) :=
  (sections [] ((nest lines).filter isFunction)).dropLast.map fun (helpers, _) =>
    helpers.map fun helper => helper.suite.filterMap (declaredOption? ·.text)

/-- The option that every parser has from the start. -/
def helpOption : String := "--help"

/-- Whether a parser takes options one after the other without refusing any. -/
def AcceptedOptions (options : List String) : Prop := options.Nodup ∧ helpOption ∉ options

instance (options : List String) : Decidable (AcceptedOptions options) :=
  inferInstanceAs (Decidable (_ ∧ _))

/-- The option of an argument. -/
def optionString (arg : Argument) : String := "--" ++ arg.name

theorem declaredOption?_argumentLine (arg : Argument) :
    declaredOption? (argumentLine arg) = some (optionString arg) := by
  obtain ⟨more, htokens⟩ := exists_tokens_argumentLine arg
  rw [declaredOption?, htokens]
  rfl

theorem declaredOption?_return : declaredOption? "return parser" = none := by
  decide +kernel

/-- **The options of a setup file** are those of the commands, each followed by those of the
constructor. -/
theorem declaredOptions_plainSetupFile (runtime : String) (collection : Collection) :
    declaredOptions (plainSetupFile runtime collection)
      = collection.modules.map fun m => m.commands.map fun command =>
          command.args.map optionString ++ m.args.map optionString := by
  rw [declaredOptions, nest_plainSetupFile, filter_isFunction_setupTrees,
    sections_modules _ _ (isHelper_topTree _), List.dropLast_concat, List.map_map]
  refine List.map_congr_left ?_
  intro m _
  show (m.commands.map (helperTree m)).map _ = _
  rw [List.map_map]
  refine List.map_congr_left ?_
  intro command _
  exact filterMap_helperTree declaredOption?_argumentLine declaredOption?_return m command

/-! ## Options of tidy arguments -/

theorem option_inj {a b : String} : "--" ++ a = "--" ++ b ↔ a = b := by
  rw [← String.toList_inj, String.toList_append, String.toList_append, List.append_cancel_left_eq,
    String.toList_inj]

/-- Options are equal for equal destinations only. -/
theorem optionString_inj {args others : List Argument} (ha : Tidy args) (ho : Tidy others)
    {arg other : Argument} (harg : arg ∈ args) (hother : other ∈ others) :
    optionString arg = optionString other ↔ arg.destination = other.destination := by
  rw [optionString, optionString, option_inj, ha.name arg harg, ho.name other hother,
    typed_inj (ha.noHyphen arg harg) (ho.noHyphen other hother)]

theorem optionString_eq_help {args : List Argument} (h : Tidy args) {arg : Argument}
    (harg : arg ∈ args) : optionString arg = helpOption ↔ arg.destination = "help" := by
  have hhelp : helpOption = "--" ++ Text.replaceIn '_' '-' "help" := by decide +kernel
  rw [optionString, hhelp, option_inj, h.name arg harg, typed_inj (h.noHyphen arg harg) (by decide)]

theorem nodup_options {args : List Argument} (h : Tidy args) : (args.map optionString).Nodup := by
  have hpairs : args.Pairwise fun arg other => arg.destination ≠ other.destination :=
    List.pairwise_map.mp h.distinct
  refine List.pairwise_map.mpr (hpairs.imp_of_mem ?_)
  intro arg other harg hother hne heq
  exact hne ((optionString_inj h h harg hother).mp heq)

/-- The options of a method and of a constructor are accepted exactly if they store nothing under one
name and nothing under the name of the option for help. -/
theorem acceptedOptions_append_iff {args inherited : List Argument} (ha : Tidy args)
    (hi : Tidy inherited) :
    AcceptedOptions (args.map optionString ++ inherited.map optionString)
      ↔ (∀ arg ∈ args, ∀ other ∈ inherited, arg.destination ≠ other.destination)
        ∧ ∀ arg ∈ args ++ inherited, arg.destination ≠ "help" := by
  refine and_congr ?_ ?_
  · rw [List.nodup_append]
    simp only [nodup_options ha, nodup_options hi, true_and, List.forall_mem_map]
    exact forall₂_congr fun arg harg => forall₂_congr fun other hother =>
      not_congr (optionString_inj ha hi harg hother)
  · rw [← List.map_append, List.mem_map, not_exists]
    refine forall_congr' fun arg => ?_
    rw [not_and]
    refine forall_congr' fun harg => not_congr ?_
    rcases List.mem_append.mp harg with hmem | hmem
    · exact optionString_eq_help ha hmem
    · exact optionString_eq_help hi hmem

/-! ## Generated programs -/

/-- **Exactly when no option is refused.** If the parameters of every method are proper, the options of a
command are accepted exactly if no parameter of its method is named like a parameter of the constructor
and none is named like the option for help. -/
theorem declaredOptions_accepted_iff {settings : Extraction.Settings} {sources : List SourceFile}
    {collection : Collection} {surroundings : Surroundings} {parserFile : String} {files : Generated}
    (hextract : (extractSources settings sources).run.value = .ok collection)
    (hparams : ∀ source ∈ sources, ∀ f ∈ methodsIn source, ProperParams f)
    (hgenerate : (generate surroundings collection parserFile).run.value = .ok files)
    {i j : Nat} {m : Module} {command : Command} (hm : collection.modules[i]? = some m)
    (hc : m.commands[j]? = some command) :
    ∃ options, (declaredOptions files.setupParser.lines)[i]?.bind (·[j]?) = some options
      ∧ (AcceptedOptions options
        ↔ (∀ arg ∈ command.args, ∀ other ∈ m.args, arg.destination ≠ other.destination)
          ∧ ∀ arg ∈ command.args ++ m.args, arg.destination ≠ "help") := by
  obtain ⟨-, hlines⟩ := setupParser_eq_ok (generate_eq_ok hgenerate).1
  have htidy : TidyModule m :=
    Extraction.tidy_of_extractSources hparams hextract m (List.mem_of_getElem? hm)
  refine ⟨command.args.map optionString ++ m.args.map optionString, ?_, ?_⟩
  · rw [hlines, declaredOptions_plainSetupFile]
    simp [hm, hc]
  · exact acceptedOptions_append_iff (htidy.command command (List.mem_of_getElem? hc)) htidy.constructor

/-- A class whose method and constructor share no parameter. -/
def jobSource : SourceFile where
  location := "job.py"
  text := "class Job:\n    def __init__(self, root):\n        pass\n    def run(self, file_name):\n        pass\n"

/-- The collection of the class. -/
def jobCollection : Collection :=
  ⟨[{ name := "Job", location := "job.py",
      args := [{ Argument.ofParameter "root" with help := Docstring.noDocumentation }],
      commands := [
        { name := "run", help := Docstring.noDocumentation,
          args := [{ Argument.ofParameter "file_name" with help := Docstring.noDocumentation }] }] }]⟩

/-- The options of a method and a constructor that share no parameter are accepted. -/
theorem declaredOptions_accepted_iff_job :
    (extractSources {} [jobSource]).run.value = .ok jobCollection
      ∧ (∀ source ∈ [jobSource], ∀ f ∈ methodsIn source, ProperParams f)
      ∧ ∃ files, (generate ⟨"/project", "argsmith"⟩ jobCollection "cli/utils/parser.py").run.value
          = .ok files
        ∧ ∃ options, (declaredOptions files.setupParser.lines)[0]?.bind (·[0]?) = some options
          ∧ AcceptedOptions options := by
  have hextract : (extractSources {} [jobSource]).run.value = .ok jobCollection := by decide +kernel
  have hparams : ∀ source ∈ [jobSource], ∀ f ∈ methodsIn source, ProperParams f := by
    intro source hs
    obtain rfl := List.mem_singleton.mp hs
    decide +kernel
  obtain ⟨files, hgenerate⟩ := exists_generate_eq_ok ⟨"/project", "argsmith"⟩ jobCollection "cli/utils/parser.py"
    (by decide +kernel)
  obtain ⟨options, hoptions, hiff⟩ :=
    declaredOptions_accepted_iff (i := 0) (j := 0) hextract hparams hgenerate rfl rfl
  exact ⟨hextract, hparams, files, hgenerate, options, hoptions, hiff.mpr (by decide +kernel)⟩

/-- A method that has a parameter of the constructor and one that is named like the option for help. -/
def clashingSource : SourceFile where
  location := "job.py"
  text := "class Job:\n    def __init__(self, name):\n        pass\n    def run(self, name, help):\n        pass\n"

/-- The collection of the class. -/
def clashingCollection : Collection :=
  ⟨[{ name := "Job", location := "job.py",
      args := [{ Argument.ofParameter "name" with help := Docstring.noDocumentation }],
      commands := [
        { name := "run", help := Docstring.noDocumentation,
          args := [
            { Argument.ofParameter "name" with help := Docstring.noDocumentation },
            { Argument.ofParameter "help" with help := Docstring.noDocumentation }] }] }]⟩

/-- Proper parameters do not keep an option from being declared twice or from being the one for help. -/
theorem declaredOptions_refused :
    (extractSources {} [clashingSource]).run.value = .ok clashingCollection
      ∧ (∀ source ∈ [clashingSource], ∀ f ∈ methodsIn source, ProperParams f)
      ∧ ∃ files, (generate ⟨"/project", "argsmith"⟩ clashingCollection "cli/utils/parser.py").run.value
          = .ok files
        ∧ declaredOptions files.setupParser.lines = [[["--name", "--help", "--name"]]]
        ∧ ¬["--name", "--help", "--name"].Nodup
        ∧ helpOption ∈ ["--name", "--help", "--name"] := by
  obtain ⟨files, hgenerate⟩ := exists_generate_eq_ok ⟨"/project", "argsmith"⟩ clashingCollection "cli/utils/parser.py"
    (by decide +kernel)
  refine ⟨by decide +kernel, ?_, files, hgenerate, ?_, by decide, by decide⟩
  · intro source hs
    obtain rfl := List.mem_singleton.mp hs
    decide +kernel
  · rw [(setupParser_eq_ok (generate_eq_ok hgenerate).1).2, declaredOptions_plainSetupFile]
    decide +kernel

end ClassCli.Synthesis
