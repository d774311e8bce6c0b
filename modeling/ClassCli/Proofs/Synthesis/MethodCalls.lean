import ClassCli.Proofs.Extraction.CallRules
import ClassCli.Proofs.Extraction.Sources
import ClassCli.Proofs.Extraction.WrittenClasses
import ClassCli.Proofs.Synthesis.EntryReading

/-!
# Calls of methods

An arm of `execute` ends with a call of the method on an object, with one keyword for each argument of the
command. Slashes are forgotten on the way from the signature to the call, and so is what a private name
stands for inside its class. Everything else fits.

* **`armCall?_armSuite`** — the call that an arm ends with.
* **`calls_accepted_iff`** — which methods of a class accept the calls that are written for them.
-/

namespace ClassCli.Synthesis

open Code (Statement Token argumentTokens commas tokens)
open Extraction (FromClass Settings SourceFile commandFrom extractSources moduleFrom modulesOf
  publicMethods)
open Interface (Argument Command Module)
open Marker (Bindings)
open Outline (headOf lowerBlock lowerStmt outlineOf)
open Source (Accepts ClassDefinition Definition TakesKeywords)

/-! ## Reading calls -/

/-- A call of a method on the object, with values out of the parsed arguments. -/
structure MethodCall where
  method : String
  /-- The keywords, each with the key that is looked up for it. -/
  keywords : List (String × String)
  deriving DecidableEq, Repr, Inhabited

/-- Keyword arguments up to the closing bracket. -/
def keywordArguments? : List Token → Option (List (String × String))
  | [.symbol ')'] => some []
  | [.name keyword, .symbol '=', .name "args", .symbol '[', .string key, .symbol ']', .symbol ')'] =>
    some [(keyword, key)]
  | .name keyword :: .symbol '=' :: .name "args" :: .symbol '[' :: .string key :: .symbol ']'
      :: .symbol ',' :: rest =>
    (keywordArguments? rest).map ((keyword, key) :: ·)
  | _ => none

/-- The call that a line is. -/
def methodCall? : List Token → Option MethodCall
  | .name "module" :: .symbol '.' :: .name method :: .symbol '(' :: rest =>
    (keywordArguments? rest).map (⟨method, ·⟩)
  | _ => none

/-- The call that a suite ends with. -/
def armCall? (suite : List Statement) : Option MethodCall :=
  suite.getLast?.bind fun tree => methodCall? (tokens tree.text)

/-- A keyword argument for each argument is read back. -/
theorem keywordArguments?_commas (args : List Argument) :
    keywordArguments? (commas (args.map argumentTokens) ++ [.symbol ')'])
      = some (args.map fun arg => (arg.destination, arg.destination)) := by
  induction args with
  | nil => rfl
  | cons arg rest ih =>
    cases rest with
    | nil => rfl
    | cons next others =>
      show (keywordArguments? (commas ((next :: others).map argumentTokens) ++ [.symbol ')'])).map _ = _
      rw [ih]
      rfl

/-- **The call that an arm ends with** has one keyword for each argument of the command. -/
theorem armCall?_armSuite (m : Module) {command : Command} (hf : usesHydra command = false)
    (h : Text.isIdentifier command.name.toList = true)
    (ha : ∀ arg ∈ command.args, Text.isIdentifier arg.destination.toList = true) :
    armCall? (armSuite m command)
      = some ⟨command.name, command.args.map fun arg => (arg.destination, arg.destination)⟩ := by
  show methodCall? (tokens (invocation command)) = _
  rw [tokens_invocation hf h ha, methodCall?, keywordArguments?_commas]
  rfl

/-! ## Commands without flags -/

/-- A command without flags has an argument for each parameter that a caller passes. -/
theorem map_destination_commandFrom {settings : Settings} {scope : Bindings} {d : Definition}
    (h : (commandFrom settings scope (outlineOf d)).flags = []) :
    (commandFrom settings scope (outlineOf d)).args.map (·.destination) = d.explicit.map (·.name) := by
  have hattached : settings.registry.attached (Extraction.flagsFrom settings scope (outlineOf d)) = [] := by
    rw [show Extraction.flagsFrom settings scope (outlineOf d) = [] from h]
    rfl
  rw [commandFrom, hattached, Extraction.map_destination_arguments
    (Extraction.length_keywordDefaults_outlineOf d).ge, Extraction.explicitParams_outlineOf, List.map_map]
  exact List.filter_eq_self.mpr fun _ _ => rfl

/-- An arm ends with a call of the method that its command stands for in a written class, with one keyword
for each argument, which the method accepts exactly if all of its parameters can be passed by keyword. -/
def CallsMethod (c : ClassDefinition) (command : Command) (arm : String × List Statement) : Prop :=
  ∃ d call, c.method? command.name = some d ∧ armCall? arm.2 = some call ∧ call.method = d.name
    ∧ call.keywords = command.args.map (fun arg => (arg.destination, arg.destination))
    ∧ (Accepts c.name d (call.keywords.map Prod.fst) ↔ TakesKeywords c.name d)

theorem callsMethod_armSuite {settings : Settings} {scope : Bindings} {c : ClassDefinition} {m : Module}
    (hspelled : ∀ d ∈ c.functions, d.Spelled) (hm : FromClass settings scope c m) {command : Command}
    (hcommand : command ∈ m.commands) (hflags : command.flags = []) (pattern : String) :
    CallsMethod c command (pattern, armSuite m command) := by
  obtain ⟨d, hd, hfrom⟩ := hm.command command hcommand
  obtain ⟨hmem, hname⟩ := ClassDefinition.mem_functions_of_method? hd
  have hunmarked : usesHydra command = false := by
    rw [usesHydra, Command.flag?, hflags]
    rfl
  have hdestinations : command.args.map (·.destination) = d.explicit.map (·.name) := by
    rw [hfrom] at hflags ⊢
    exact map_destination_commandFrom hflags
  have hidentifier : ∀ arg ∈ command.args, Text.isIdentifier arg.destination.toList = true := by
    intro arg harg
    have hparam : arg.destination ∈ d.explicit.map (·.name) :=
      hdestinations ▸ List.mem_map_of_mem harg
    obtain ⟨p, hp, hsame⟩ := List.mem_map.mp hparam
    rw [← hsame]
    refine (hspelled d hmem).named p ?_
    rw [d.named_eq_receiver_append]
    exact List.mem_append_right _ hp
  have hcall := armCall?_armSuite m hunmarked (hname ▸ (hspelled d hmem).name) hidentifier
  refine ⟨d, _, hd, hcall, hname.symm, rfl, ?_⟩
  rw [List.map_map]
  show Accepts c.name d (command.args.map (·.destination)) ↔ _
  rw [hdestinations]
  exact Source.accepts_iff

/-- **Which generated calls the methods accept.** Wherever a class stands and whatever other modules there
are, its module has an arm in `execute` for each public method, and without flags the call in the arm is
accepted exactly by the methods that take all their arguments by keyword. -/
theorem calls_accepted_iff {settings : Settings} {location : String} {scope after : Bindings}
    {c : ClassDefinition} {m : Module} (hspelled : ∀ d ∈ c.functions, d.Spelled)
    (hm : (modulesOf settings location scope (lowerStmt c.stmt)).run.value = .ok ([m], after))
    (surroundings : Surroundings) (parserFile : String) (front back : List Module) :
    m.commands.map (·.name) = publicMethods c
      ∧ ∃ arms, (commandSuites
          (entryPoint surroundings parserFile ⟨front ++ m :: back⟩).value.lines)[front.length]? = some arms
        ∧ List.Forall₂ (fun command arm => command.flags = [] → CallsMethod c command arm)
            m.commands arms := by
  have hclass := Extraction.fromClass_of_modulesOf hm
  refine ⟨hclass.commandNames,
    m.commands.map fun command => (commandName command.name, armSuite m command), ?_, ?_⟩
  · rw [commandSuites_entryPoint, List.getElem?_map]
    simp
  · rw [List.forall₂_map_right_iff]
    exact List.forall₂_same.mpr fun command hcommand hflags =>
      callsMethod_armSuite hspelled hclass hcommand hflags _

/-- A method with parameters of most kinds, none of them to the left of a slash but the object. -/
def recording : Definition where
  decorators := []
  name := "record"
  params := [.plain "self" none none, .slash, .plain "title" none none,
    .plain "length" (some "int") (some (.integer "3")), .star (some "rest") none, .plain "mark" none none,
    .doubleStar (some "more") none]
  returns := none
  body := [.other]
  line := 2

/-- A class with one method. -/
def classWith (name : String) (d : Definition) : ClassDefinition := ⟨[], name, [d.stmt], 1⟩

/-- The module of the class. -/
def moduleWith (name : String) (d : Definition) : Module :=
  moduleFrom {} {} "a.py" (headOf (classWith name d)) (lowerBlock (classWith name d).body)

theorem modulesOf_classWith (name : String) (d : Definition) :
    ∃ after, (modulesOf {} "a.py" {} (lowerStmt (classWith name d).stmt)).run.value
      = .ok ([moduleWith name d], after) := by
  have hfound := Extraction.moduleOf_eq_ok_iff.mpr
    ⟨Extraction.documentedClass_of_not_strict rfl (lowerBlock (classWith name d).body),
      (rfl : moduleWith name d = _)⟩
  rw [Outline.lowerStmt_classStmt, modulesOf]
  exact ⟨_, Attempt.value_bind_eq_ok.mpr ⟨_, hfound, rfl⟩⟩

theorem calls_accepted_iff_recorder :
    (∀ d ∈ (classWith "Recorder" recording).functions, d.Spelled)
      ∧ (∃ after, (modulesOf {} "a.py" {} (lowerStmt (classWith "Recorder" recording).stmt)).run.value
        = .ok ([moduleWith "Recorder" recording], after))
      ∧ ∃ arm call, (commandSuites (entryPoint ⟨"/project", "argsmith"⟩ "utils/parser.py"
          ⟨[moduleWith "Recorder" recording]⟩).value.lines)[0]? = some [arm]
        ∧ armCall? arm.2 = some call
        ∧ call.keywords = [("title", "title"), ("length", "length"), ("mark", "mark")]
        ∧ Accepts "Recorder" recording (call.keywords.map Prod.fst) := by
  have hspelled : ∀ d ∈ (classWith "Recorder" recording).functions, d.Spelled := by
    intro d hd
    obtain rfl := List.mem_singleton.mp hd
    exact ⟨by decide +kernel, by decide +kernel⟩
  obtain ⟨after, hm⟩ := modulesOf_classWith "Recorder" recording
  have htakes : TakesKeywords "Recorder" recording :=
    ⟨by decide, fun p hp => hp, by decide +kernel, by decide +kernel⟩
  obtain ⟨-, arms, harms, hcalls⟩ :=
    calls_accepted_iff hspelled hm ⟨"/project", "argsmith"⟩ "utils/parser.py" [] []
  have hcommands : (moduleWith "Recorder" recording).commands
      = [commandFrom {} {} (outlineOf recording)] := rfl
  rw [hcommands] at hcalls
  obtain ⟨arm, rfl, d, call, hd, hcall, -, hkeywords, haccepts⟩ :
      ∃ arm, arms = [arm] ∧ CallsMethod (classWith "Recorder" recording)
        (commandFrom {} {} (outlineOf recording)) arm := by
    cases hcalls with
    | cons hfirst hrest =>
      cases hrest
      exact ⟨_, rfl, hfirst rfl⟩
  cases (show some recording = some d from hd)
  exact ⟨hspelled, ⟨after, hm⟩, arm, call, harms, hcall, hkeywords.trans (by decide +kernel),
    haccepts.mpr htakes⟩

/-- A method whose second parameter is left of a slash. -/
def positionalOnly : Definition where
  decorators := []
  name := "run"
  params := [.plain "self" none none, .plain "x" none none, .slash]
  returns := none
  body := [.other]
  line := 2

/-- The text of a class with this method. -/
def positionalSource : SourceFile where
  location := "a.py"
  text := "class A:\n    def run(self, x, /):\n        pass\n"

/-- **A parameter left of a slash is passed by keyword**, which the method does not accept. -/
theorem calls_not_accepted :
    (extractSources {} [positionalSource]).run.value = .ok ⟨[moduleWith "A" positionalOnly]⟩
      ∧ (classWith "A" positionalOnly).method? "run" = some positionalOnly
      ∧ (commandSuites (entryPoint ⟨"/project", "argsmith"⟩ "utils/parser.py"
          ⟨[moduleWith "A" positionalOnly]⟩).value.lines).map (·.map fun arm => armCall? arm.2)
        = [[some ⟨"run", [("x", "x")]⟩]]
      ∧ ¬ Accepts "A" positionalOnly ["x"] := by
  refine ⟨by decide +kernel, rfl, ?_, ?_⟩
  · rw [commandSuites_entryPoint]
    decide +kernel
  · intro h
    obtain ⟨p, hp, -⟩ := h.keyword "x" List.mem_cons_self
    exact absurd hp (List.not_mem_nil)

end ClassCli.Synthesis
