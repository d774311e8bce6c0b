import ClassCli.Proofs.Docstring.Described
import ClassCli.Proofs.Extraction.Sources
import ClassCli.Proofs.Extraction.Structure

/-!
# Help texts say something on one line

Every help text in what is extracted stands on one line, is not empty and has no white space at its edges,
whatever the docstrings hold. The help of a module is empty exactly where its class has no docstring.

* **`oneLiner_textFor`** — the text about a parameter of a function.
* **`Helpful`** — the help texts of a module.
* **`helpful_of_extract`** — the modules of an outline.
-/

namespace ClassCli.Docstring

open Outline (Function)
open Text

theorem oneLiner_noDocumentation : OneLiner noDocumentation := by decide +kernel

/-! ## Texts about parameters -/

/-- Entries whose texts all say something on one line. -/
def Said (entries : Entries String) : Prop := ∀ entry ∈ entries, OneLiner entry.2

theorem Said.put {entries : Entries String} (h : Said entries) (name : String) {text : String}
    (ht : OneLiner text) : Said (entries.put name text) := by
  intro entry hentry
  rcases Entries.mem_put entry hentry with rfl | hentry
  · exact ht
  · exact h entry hentry

/-- A text that is looked up, or the filler. -/
theorem Said.oneLiner_getD {entries : Entries String} (h : Said entries) (name : String) :
    OneLiner ((entries.get? name).getD noDocumentation) := by
  cases hget : entries.get? name with
  | none => exact oneLiner_noDocumentation
  | some text => exact h _ (Entries.mem_of_get?_eq_some hget)

/-- What is collected says something once the empty texts are filled. -/
theorem oneLiner_orFiller {documented : Entries String} (h : Collected documented) (name : String) :
    OneLiner (orFiller (documented.get? name)) := by
  cases hget : documented.get? name with
  | none => exact oneLiner_noDocumentation
  | some text =>
    rw [orFiller]
    split
    · exact oneLiner_noDocumentation
    · rename_i hne
      exact oneLiner_of_compact (h.get? hget) fun heq => hne (String.isEmpty_iff.mpr heq)

theorem Collected.remove {entries : Entries String} (h : Collected entries) (name : String) :
    Collected (entries.remove name) :=
  ⟨h.nodup.sublist (List.filter_sublist.map Prod.fst), fun entry hentry =>
    h.texts entry (List.mem_of_mem_filter hentry)⟩

/-- The texts that are taken for parameters. -/
theorem said_takeHelp {names : List String} {help documented : Entries String} (hhelp : Said help)
    (hdocumented : Collected documented) : Said (takeHelp names help documented).1 := by
  induction names generalizing help documented with
  | nil => exact hhelp
  | cons name rest ih => exact ih (hhelp.put name (oneLiner_orFiller hdocumented name)) (hdocumented.remove name)

/-- Parameters without a docstring have the filler. -/
theorem said_ofPairs (names : List String) :
    Said (Entries.ofPairs (names.map fun name => (name, noDocumentation))) := by
  have hfold {help : Entries String} (hhelp : Said help) :
      Said ((names.map fun name => (name, noDocumentation)).foldl
        (fun entries pair => entries.put pair.1 pair.2) help) := by
    induction names generalizing help with
    | nil => exact hhelp
    | cons name rest ih => exact ih (hhelp.put name oneLiner_noDocumentation)
  exact hfold (List.forall_mem_nil _)

/-- **The text about a parameter** says something on one line, whatever the docstring holds; the parameters
may have the same name. -/
theorem oneLiner_textFor (convention : Convention) (f : Function) {name : String}
    (h : name ∈ f.explicitParams.map (·.name)) :
    OneLiner (((argumentHelp convention f).get? name).getD noDocumentation) := by
  unfold argumentHelp
  dsimp only
  split
  · exact oneLiner_noDocumentation
  · split
    · exact (said_ofPairs _).oneLiner_getD name
    · rename_i doc _
      -- what is left over has no parameter's name, so it hides no text
      have hleft := takeHelp_snd (f.explicitParams.map (·.name)) [] (convention.documentedArgs doc)
      have hnew : name ∉ Entries.keys (takeHelp (f.explicitParams.map (·.name)) []
          (convention.documentedArgs doc)).2 := by
        rw [hleft]
        intro hmem
        obtain ⟨entry, hentry, rfl⟩ := List.mem_map.mp hmem
        exact of_decide_eq_true (List.mem_filter.mp hentry).2 h
      have hsame := Entries.get?_foldl_put_of_not_mem hnew (takeHelp (f.explicitParams.map (·.name)) []
          (convention.documentedArgs doc)).1
      rw [hsame]
      exact (said_takeHelp (List.forall_mem_nil _) (collected_documentedArgs convention doc)).oneLiner_getD name

/-- **The summary of a definition**, with or without a docstring. -/
theorem oneLiner_summary (convention : Convention) (docstring : Option String) :
    OneLiner (summary convention docstring) := by
  unfold summary
  cases hline : docstring.bind convention.summaryLine? with
  | none => exact oneLiner_noDocumentation
  | some line =>
    obtain ⟨doc, -, hdoc⟩ := Option.bind_eq_some_iff.mp hline
    exact oneLiner_of_summaryLine? hdoc

end ClassCli.Docstring

namespace ClassCli.Extraction

open Docstring (Convention)
open Interface (Argument Collection Command Module)
open Outline (ClassPlace Function Node outerClasses)
open Text (OneLiner)

/-- The help of every argument of a function. -/
theorem oneLiner_help_arguments {convention : Convention} {f : Function} {attached : List String} :
    ∀ arg ∈ (arguments convention f attached).value, OneLiner arg.help := by
  intro arg harg
  rw [value_arguments] at harg
  obtain ⟨entry, hentry, rfl⟩ := List.mem_map.mp harg
  have hparam : entry.1 ∈ f.explicitParams :=
    (defaulted_sublist f).mem (List.mem_map_of_mem (List.mem_filter.mp hentry).1)
  exact Docstring.oneLiner_textFor convention f (List.mem_map_of_mem hparam)

/-- The help texts of the module of a class. -/
structure Helpful (c : ClassPlace) (m : Module) : Prop where
  help : if c.head.docstring.isSome then OneLiner m.help else m.help = ""
  args : ∀ arg ∈ m.args, OneLiner arg.help
  command : ∀ command ∈ m.commands, OneLiner command.help
  commandArgs : ∀ command ∈ m.commands, ∀ arg ∈ command.args, OneLiner arg.help

theorem helpful_of_describes {settings : Settings} {location : String} {c : ClassPlace} {m : Module}
    (h : Describes settings location c m) : Helpful c m := by
  refine ⟨?_, ?_, ?_, ?_⟩
  · rw [h.help]
    split
    · exact Docstring.oneLiner_summary _ _
    · rfl
  · rw [h.args]
    cases lastFunction? c.body constructorName with
    | none => exact List.forall_mem_nil _
    | some f => exact oneLiner_help_arguments
  · intro command hcommand
    obtain ⟨f, -, hf⟩ := h.command command hcommand
    rw [hf]
    exact Docstring.oneLiner_summary _ _
  · intro command hcommand
    obtain ⟨f, -, hf⟩ := h.command command hcommand
    rw [hf]
    exact oneLiner_help_arguments

/-- **Help texts say something on one line**, in every convention and for every outline: those of arguments
and commands always, that of a module if its class has a docstring. -/
theorem helpful_of_extract {settings : Settings} {collection result : Collection} {outline : List Node}
    {location : String} (h : (extract settings collection outline location).run.value = .ok result) :
    ∃ found, result.modules = collection.modules ++ found ∧
      List.Forall₂ Helpful (outerClasses outline) found := by
  obtain ⟨-, hmodules⟩ := extract_eq_ok_iff.mp h
  refine ⟨_, hmodules, ?_⟩
  rw [List.forall₂_map_right_iff, List.forall₂_same]
  exact fun c _ => helpful_of_describes (describes_moduleAt settings location c)

/-- A class that says what it is, with a method that says little about its parameters, and a class that says
nothing. -/
def atelier : List Node :=
  [.classDef ⟨"Painter", [], some "\n    Paints. \n", 1⟩
      [.functionDef { plainFunction "paint" with
        parameters := { args := [⟨"self", none⟩, ⟨"wall", none⟩, ⟨"colour", none⟩, ⟨"coats", none⟩] }
        docstring := some "Args:\n    wall:\n    colour: any\n        of them\n" } []],
    .classDef ⟨"Helper", [], none, 9⟩ []]

theorem helpful_of_extract_atelier :
    ∃ result, (extract {} {} atelier "atelier.py").run.value = .ok result ∧
      result.modules.map (fun m => (m.help, m.commands.map fun command => command.args.map (·.help))) =
        [("Paints.", [["--no-documentation-exists--", "any of them", "--no-documentation-exists--"]]),
          ("", [])] ∧
      ∃ found, result.modules = [] ++ found ∧ List.Forall₂ Helpful (outerClasses atelier) found := by
  have hstrict : ({} : Settings).strict = false := rfl
  have hok := extract_of_not_strict hstrict {} atelier "atelier.py"
  exact ⟨_, hok, by decide +kernel, helpful_of_extract hok⟩

end ClassCli.Extraction
