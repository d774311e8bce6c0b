import ClassCli.Proofs.Extraction.Sources
import ClassCli.Proofs.Extraction.Shadowing
import ClassCli.Proofs.Marker.Settings

/-!
# Methods with markers

Each decorator of a method is looked at for itself: one that refers to a marker gives a flag if the marker
accepts it, and is passed over otherwise. A decorator that is passed over takes nothing from the command of
its method, which has an argument for every parameter that no other flag fills in.

* **`commandFrom_mem_commands`** — a public method becomes a command.
* **`takesFlag_commandFrom`** — what the command of a method takes from one of its decorators.
* **`command_of_marked`** — what a decorator that refers to a marker does to the command of its method.
-/

namespace ClassCli.Extraction

open Interface (Collection Command Flag)
open Marker (Bindings Usable effective flag? markerOf?)
open Outline (ClassPlace Expr Function Place outerClasses)

variable {settings : Settings} {location : String}

/-! ## Public methods -/

/-- **A public method becomes a command**, if no later one has its name. -/
theorem commandFrom_mem_commands {c : ClassPlace} {place : Place} {f : Function}
    (hlast : DefinesLast c.body place f) (hpublic : isPublic f.name = true) :
    commandFrom settings (Bindings.recordAll {} c.before) f ∈ (moduleAt settings location {} c).commands := by
  have hdescribes := describes_moduleAt settings location c
  obtain ⟨earlier, later, hfunctions, -⟩ := bodyFunctions_of_definesLast hlast
  have hname : f.name ∈ (moduleAt settings location {} c).commands.map (·.name) := by
    rw [hdescribes.commandNames, publicNames, List.mem_filter, List.mem_eraseDups, hfunctions]
    exact ⟨List.mem_map_of_mem (List.mem_append_right _ List.mem_cons_self), hpublic⟩
  obtain ⟨command, hcommand, hsame⟩ := List.mem_map.mp hname
  obtain ⟨g, hg, hfrom⟩ := hdescribes.command command hcommand
  rw [hsame, lastFunction?_of_definesLast hlast] at hg
  cases hg
  rw [← hfrom]
  exact hcommand

/-! ## Decorators that refer to markers -/

/-- What the command of a method takes from one of its decorators: its flag, if it gives one, between those of
the decorators around it. Without it no parameter is left out but those that the other flags fill in. -/
structure TakesFlag (settings : Settings) (scope : Bindings) (f : Function) (front : List Expr)
    (decorator : Expr) (back : List Expr) (command : Command) : Prop where
  flags : command.flags = flagsOf settings scope f.name front
    ++ ((flag? scope settings.registry f.name decorator).value.toList ++ flagsOf settings scope f.name back)
  args : (flag? scope settings.registry f.name decorator).value = none →
    command.args.map (·.destination) = (f.explicitParams.map (·.name)).filter fun name =>
      !(settings.registry.attached (flagsOf settings scope f.name (front ++ back))).contains name

theorem takesFlag_commandFrom {scope : Bindings} {f : Function} {front back : List Expr} {decorator : Expr}
    (hplaces : f.parameters.keywordOnly.length ≤ f.parameters.keywordDefaults.length)
    (h : f.decorators = front ++ decorator :: back) :
    TakesFlag settings scope f front decorator back (commandFrom settings scope f) := by
  have hflags : flagsFrom settings scope f = _ := flagsFrom_around h
  refine ⟨hflags, ?_⟩
  intro hnone
  have hothers : flagsFrom settings scope f = flagsOf settings scope f.name (front ++ back) := by
    rw [hflags, hnone, Option.toList_none, List.nil_append, flagsOf, flagsOf, flagsOf, List.filterMap_append]
  rw [commandFrom, hothers]
  exact map_destination_arguments hplaces settings.convention _

/-- **What a marker does to the command of its method.** A decorator that refers to a marker gives a flag
exactly if it is not called or gives literals only, to declared parameters only. The flag then has the
parameters in the order of their declaration with their effective values. In either case the method becomes a
command, which without the flag has an argument for every parameter that the other flags do not fill in. -/
theorem command_of_marked {collection : Collection} {outline : List Outline.Node} {c : ClassPlace}
    {place : Place} {f : Function} {front back : List Expr} {decorator : Expr} {spec : Marker.Spec}
    (hdocumented : ∀ c ∈ outerClasses outline, DocumentedClass settings c.body)
    (hclass : c ∈ outerClasses outline) (hlast : DefinesLast c.body place f)
    (hpublic : isPublic f.name = true)
    (hplaces : f.parameters.keywordOnly.length ≤ f.parameters.keywordDefaults.length)
    (hdecorators : f.decorators = front ++ decorator :: back)
    (hmarker : markerOf? (Bindings.recordAll {} c.before) settings.registry decorator = some spec)
    (hparams : (Entries.keys spec.params).Nodup) :
    (∀ flag, (flag? (Bindings.recordAll {} c.before) settings.registry f.name decorator).value = some flag
        ↔ Usable spec decorator ∧ flag = ⟨spec.name, effective spec decorator⟩)
      ∧ Entries.keys (effective spec decorator) = Entries.keys spec.params
      ∧ ∃ result, (extract settings collection outline location).run.value = .ok result
        ∧ ∃ m ∈ result.modules, Describes settings location c m
          ∧ ∃ command ∈ m.commands, command.name = f.name
            ∧ TakesFlag settings (Bindings.recordAll {} c.before) f front decorator back command := by
  let result : Collection := ⟨collection.modules ++ (outerClasses outline).map (moduleAt settings location {})⟩
  refine ⟨Marker.value_flag?_eq_some_iff hmarker hparams f.name, Marker.keys_effective spec decorator, result,
    extract_eq_ok_iff.mpr ⟨hdocumented, rfl⟩, moduleAt settings location {} c, ?_,
    describes_moduleAt settings location c, _, commandFrom_mem_commands hlast hpublic, rfl,
    takesFlag_commandFrom hplaces hdecorators⟩
  exact List.mem_append_right _ (List.mem_map_of_mem hclass)

/-- A call of the marker that gives one parameter twice, by place and by name. -/
def namedSettings : Expr :=
  .call (.name Marker.hydraName) [.literal (.str "settings")]
    [("config_name", .literal (.str "main")), ("config_var_name", .literal (.str "cfg"))]

/-- A call of the marker with a value that is known only when the program runs. -/
def openSettings : Expr := .call (.name Marker.hydraName) [.name "NAME"] []

/-- A method with both of them. -/
def markedTrain : Function where
  name := "train"
  parameters := { args := [⟨"self", none⟩, ⟨"cfg", none⟩, ⟨"rate", none⟩] }
  decorators := [namedSettings, openSettings]
  returns := none
  docstring := none
  line := 6

/-- The class of the method, behind an import of the marker. -/
def trainerClass : ClassPlace where
  before := [.importFrom Marker.defaultNamespace [⟨Marker.hydraName, none⟩] false]
  head := ⟨"Trainer", [], none, 3⟩
  body := [.functionDef markedTrain []]

/-- The first decorator gives a flag and fills in a parameter, the second one is passed over. -/
theorem command_of_marked_trainer :
    markerOf? (Bindings.recordAll {} trainerClass.before) ({} : Settings).registry openSettings
        = some Marker.hydra
      ∧ ¬Usable Marker.hydra openSettings
      ∧ ∃ result, (extract {} {} (trainerClass.before ++ [.classDef trainerClass.head trainerClass.body])
          "trainer.py").run.value = .ok result
        ∧ ∃ m ∈ result.modules, ∃ command ∈ m.commands, command.name = "train"
          ∧ command.flags = [⟨Marker.hydraName, [("config_var_name", .str "cfg"), ("version_base", .none),
              ("config_path", .none), ("config_name", .str "main")]⟩]
          ∧ command.args.map (·.destination) = ["rate"] := by
  have hlast : DefinesLast trainerClass.body ⟨[], [], .functionDef markedTrain []⟩ markedTrain :=
    ⟨[], [], rfl, rfl, by simp⟩
  have hmarker : markerOf? (Bindings.recordAll {} trainerClass.before) ({} : Settings).registry openSettings
      = some Marker.hydra := by
    rfl
  have hnone : (flag? (Bindings.recordAll {} trainerClass.before) ({} : Settings).registry "train"
      openSettings).value = none := by decide +kernel
  obtain ⟨hflag, -, result, hresult, m, hm, -, command, hcommand, hname, htakes⟩ :=
    @command_of_marked {} "trainer.py" {}
      (trainerClass.before ++ [.classDef trainerClass.head trainerClass.body]) trainerClass _ markedTrain
      [namedSettings] [] openSettings Marker.hydra
      (fun c _ => documentedClass_of_not_strict rfl c.body) (List.mem_singleton_self _) hlast (by decide)
      (Nat.le_refl 0) rfl hmarker (by decide)
  refine ⟨hmarker, ?_, result, hresult, m, hm, command, hcommand, hname, ?_, ?_⟩
  · intro husable
    have hsome := (hflag _).mpr ⟨husable, rfl⟩
    rw [show markedTrain.name = "train" from rfl, hnone] at hsome
    cases hsome
  · rw [htakes.flags]
    decide +kernel
  · rw [htakes.args hnone]
    decide +kernel

end ClassCli.Extraction
