import ClassCli.Proofs.Extraction.WrittenModules
import ClassCli.Proofs.Outline.StringValues
import ClassCli.Proofs.Synthesis.SetupFile

/-!
# Defaults that are strings

A string that is written beside a parameter becomes the default of an option: extraction gives it a value,
and the setup file quotes this value. What Python reads there is what it reads in the source text exactly
if extraction resolves all escapes of the literals.

* **`default_denotes_iff`** — exactly when a default in the setup file denotes what was written.
* **`default_not_kept`** — an escape that is quoted instead of resolved.
-/

namespace ClassCli

namespace Source

/-- The string literals that an expression consists of, brackets aside. -/
def Expr.strings? : Expr → Option (List String)
  | .string parts _ => some parts
  | .group inner => strings? inner
  | _ => Option.none

end Source

namespace Synthesis

open Code (quote)
open Code.StringReading (CharNames denote? points)
open Extraction (SourceFile extractSources)
open Interface (Argument Collection)
open Outline (lowerExpr)
open Outline.StringLiteral (keepsValue values?)

/-- The value of string literals that stand next to each other, perhaps in brackets. -/
theorem literal?_lowerExpr_of_strings? {x : Source.Expr} {parts : List String} {value : String}
    (hparts : x.strings? = some parts) (hvalue : values? parts = some value) :
    (lowerExpr x).literal? = some (.str value) := by
  fun_induction Source.Expr.strings? x with
  | case1 found text =>
    cases hparts
    rw [lowerExpr, hvalue]
    rfl
  | case2 inner ih =>
    rw [lowerExpr]
    exact ih hparts
  | case3 => cases hparts

/-- The options of a declaration in front of what is said about its absence. -/
def presenceOptions (arg : Argument) : List String :=
  [quote ("--" ++ arg.name), "dest=" ++ quote arg.destination] ++ readingOptions arg
    ++ ["help=" ++ help arg.help]

/-- The declaration of an argument with a string for its default. -/
theorem argumentLine_of_str {arg : Argument} {value : String} (hswitch : isSwitch arg = false)
    (hdefault : arg.default = some (.str value)) :
    argumentLine arg = "parser.add_argument("
      ++ Text.joinStrings ", " (presenceOptions arg ++ ["default=" ++ quote value]) ++ ")" := by
  have habsence : absenceOptions arg = ["default=" ++ quote value] := by
    simp [absenceOptions, hswitch, hdefault, Code.literal]
  have hoptions : optionList arg = presenceOptions arg ++ absenceOptions arg := rfl
  unfold argumentLine options
  rw [hoptions, habsence]

/-- **Exactly when a default keeps its value.** Every argument of a command comes from a written parameter.
If literals that denote a string stand beside this parameter, the setup file declares the argument with a
default, unless it is a switch, and the text of this default denotes the same string exactly if extraction
keeps the value of each literal. -/
theorem default_denotes_iff {settings : Extraction.Settings} {sources : List SourceFile}
    {collection : Collection} {surroundings : Surroundings} {parserFile : String} {files : Generated}
    (hextract : (extractSources settings sources).run.value = .ok collection)
    (hgenerate : (generate surroundings collection parserFile).run.value = .ok files) :
    ∀ m ∈ collection.modules, ∀ command ∈ m.commands, ∀ arg ∈ command.args ++ m.args,
      ∃ source ∈ sources, ∃ c ∈ source.classes, ∃ d ∈ c.functions, ∃ p ∈ d.explicit,
        arg.destination = p.name
          ∧ (Source.DefaultsLast d.params → isSwitch arg = false → ∀ x ∈ p.default, ∀ parts ∈ x.strings?,
            ∀ names denoted, denote? names parts = some denoted →
              ∃ line ∈ files.setupParser.lines, ∃ written,
                line.text = "parser.add_argument("
                    ++ Text.joinStrings ", " (presenceOptions arg ++ ["default=" ++ written]) ++ ")"
                  ∧ (denote? names [written] = some denoted ↔ ∀ part ∈ parts, keepsValue part = true)) := by
  intro m hm command hcommand arg harg
  have hmem : arg ∈ m.args ++ m.commands.flatMap (·.args) := by
    rcases List.mem_append.mp harg with harg | harg
    · exact List.mem_append_right _ (List.mem_flatMap.mpr ⟨command, hcommand, harg⟩)
    · exact List.mem_append_left _ harg
  obtain ⟨source, hsource, c, hc, d, hd, p, hp, hname, hdefault⟩ :=
    Extraction.exists_param_of_collection hextract m hm arg hmem
  refine ⟨source, hsource, c, hc, d, hd, p, hp, hname, ?_⟩
  intro hlast hswitch x hx parts hparts names denoted hdenoted
  obtain ⟨value, hvalue, hkeeps⟩ := Outline.StringLiteral.denote?_quote_values?_iff hdenoted
  have hvalue : arg.default = some (.str value) := by
    rw [hdefault hlast, Option.mem_def.mp hx, Option.bind_some]
    exact literal?_lowerExpr_of_strings? hparts hvalue
  obtain ⟨line, hline, htext⟩ := exists_line_argumentLine hgenerate hm hcommand harg
  exact ⟨line, hline, quote value, htext.trans (argumentLine_of_str hswitch hvalue), hkeeps⟩

/-- A method with strings for its defaults: one has escapes of several kinds, one is made of two literals. -/
def greeterSource : SourceFile where
  location := "a.py"
  text := "class A:\n    def run(self, x='\\x41', y='a\\n' r\"\\d\"):\n        pass\n"

/-- The collection of this method. -/
def greeterCollection : Collection :=
  ⟨[{ name := "A", location := "a.py",
      commands := [
        { name := "run", help := Docstring.noDocumentation,
          args := [
            { Argument.ofParameter "x" with
              default := some (.str "\\x41"), help := Docstring.noDocumentation },
            { Argument.ofParameter "y" with
              default := some (.str "a\n\\d"), help := Docstring.noDocumentation }] }] }]⟩

/-- The names of no characters are used there. -/
def noNames : CharNames := fun _ => none

/-- The two defaults of a method, of which one keeps its value. -/
theorem default_denotes_iff_greeter :
    (extractSources {} [greeterSource]).run.value = .ok greeterCollection
      ∧ ∃ files, (generate ⟨"/project", "argsmith"⟩ greeterCollection "cli/utils/parser.py").run.value
          = .ok files
        ∧ (∀ m ∈ greeterCollection.modules, ∀ command ∈ m.commands, ∀ arg ∈ command.args ++ m.args,
          ∃ source ∈ [greeterSource], ∃ c ∈ source.classes, ∃ d ∈ c.functions, ∃ p ∈ d.explicit,
            arg.destination = p.name
              ∧ (Source.DefaultsLast d.params → isSwitch arg = false → ∀ x ∈ p.default,
                ∀ parts ∈ x.strings?, ∀ names denoted, denote? names parts = some denoted →
                  ∃ line ∈ files.setupParser.lines, ∃ written,
                    line.text = "parser.add_argument("
                        ++ Text.joinStrings ", " (presenceOptions arg ++ ["default=" ++ written]) ++ ")"
                      ∧ (denote? names [written] = some denoted ↔ ∀ part ∈ parts, keepsValue part = true)))
        ∧ (∀ part ∈ ["'a\\n'", "r\"\\d\""], keepsValue part = true)
        ∧ denote? noNames ["'a\\n'", "r\"\\d\""] = some (points "a\n\\d".toList) := by
  have hextract : (extractSources {} [greeterSource]).run.value = .ok greeterCollection := by decide +kernel
  obtain ⟨files, hgenerate⟩ := exists_generate_eq_ok ⟨"/project", "argsmith"⟩ greeterCollection
    "cli/utils/parser.py" (by decide +kernel)
  exact ⟨hextract, files, hgenerate, default_denotes_iff hextract hgenerate, by decide +kernel,
    by decide +kernel⟩

/-- **A hexadecimal escape is quoted instead of resolved**: the literal denotes one letter, the default in
the setup file four characters. -/
theorem default_not_kept :
    (extractSources {} [greeterSource]).run.value = .ok greeterCollection
      ∧ denote? noNames ["'\\x41'"] = some (points ['A'])
      ∧ ∃ files, (generate ⟨"/project", "argsmith"⟩ greeterCollection "cli/utils/parser.py").run.value
          = .ok files
        ∧ ∃ line ∈ files.setupParser.lines,
          line.text = "parser.add_argument('--x', dest='x', help='--no-documentation-exists--', "
              ++ "default='\\\\x41')"
            ∧ denote? noNames ["'\\\\x41'"] = some (points "\\x41".toList) := by
  obtain ⟨files, hgenerate⟩ := exists_generate_eq_ok ⟨"/project", "argsmith"⟩ greeterCollection
    "cli/utils/parser.py" (by decide +kernel)
  obtain ⟨line, hline, htext⟩ :=
    exists_line_argumentLine hgenerate List.mem_cons_self List.mem_cons_self List.mem_cons_self
  refine ⟨by decide +kernel, by decide +kernel, files, hgenerate, line, hline, ?_, by decide +kernel⟩
  rw [htext]
  decide +kernel

end Synthesis

end ClassCli
