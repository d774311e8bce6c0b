import Mathlib.Data.List.Forall2
import ClassCli.Proofs.Extraction.Methods

/-!
# The modules of an outline

Extraction walks through an outline and threads the names in scope through it. What it finds can be told
from the places of the classes alone: every class that does not stand inside another one gives one
module, in document order, and the names in scope at a class are those that the statements in front of
it bind. Without strict mode nothing can fail.

* **`modulesOfAll_eq_ok_iff`** — what a walk finds, and what is in scope after it.
* **`Describes`** — what the module of a class says; **`Describes.commands`** — its commands, in full.
* **`extract_describes`** — one module for each class, in document order.
-/

namespace ClassCli.Extraction

open Interface (Collection Module)
open Marker (Bindings)
open Outline (ClassPlace Function Node classesIn outerClasses)

variable {settings : Settings} {location : String}

/-! ## Walks -/

/-- The module of a class at its place, if certain names were in scope at the start. -/
def moduleAt (settings : Settings) (location : String) (base : Bindings) (c : ClassPlace) : Module :=
  moduleFrom settings (base.recordAll c.before) location c.head c.body

/-- A walk that started with certain names, and goes on behind certain statements, finds certain
classes. -/
def Finds (settings : Settings) (location : String) (base : Bindings) (before after : List Node)
    (classes : List ClassPlace) (result : List Module × Bindings) : Prop :=
  (∀ c ∈ classes, DocumentedClass settings c.body)
    ∧ result = (classes.map (moduleAt settings location base), base.recordAll (before ++ after))

theorem recordAll_concat (base : Bindings) (before : List Node) (node : Node) :
    base.recordAll (before ++ [node]) = (base.recordAll before).record node := by
  rw [Bindings.recordAll_append]
  rfl

variable {base : Bindings} {around before : List Node}

/-- One statement of a walk: a class gives its module, and anything else what its block gives. -/
theorem modulesOf_eq_ok_iff {node : Node} (h : around.any Node.isClass = false)
    (hblock : ∀ around result, around.any Node.isClass = false →
      ((modulesOfAll settings location (base.recordAll before) node.block).run.value = .ok result
        ↔ Finds settings location base before node.block (classesIn around before node.block) result))
    (result : List Module × Bindings) :
    (modulesOf settings location (base.recordAll before) node).run.value = .ok result
      ↔ Finds settings location base before [node] (classesIn around before [node]) result := by
  unfold Finds
  rw [recordAll_concat]
  cases node with
  | classDef head body =>
    rw [Outline.classesIn_classDef h, modulesOf, Attempt.value_bind_eq_ok]
    simp only [moduleOf_eq_ok_iff]
    constructor
    · rintro ⟨m, ⟨hdocumented, rfl⟩, hresult⟩
      cases hresult
      refine ⟨?_, rfl⟩
      intro c hc
      obtain rfl := List.mem_singleton.mp hc
      exact hdocumented
    · rintro ⟨hdocumented, rfl⟩
      exact ⟨_, ⟨hdocumented _ List.mem_cons_self, rfl⟩, rfl⟩
  | functionDef head body =>
    have hinside := Outline.any_isClass_concat h (show (Node.functionDef head body).isClass = false from rfl)
    rw [Outline.classesIn_cons rfl, modulesOf, Attempt.value_bind_eq_ok]
    show _ ↔ (∀ c ∈ classesIn _ before body ++ [], _) ∧ result = ((classesIn _ before body ++ []).map _, _)
    rw [List.append_nil]
    constructor
    · rintro ⟨inner, hinner, hresult⟩
      obtain ⟨hdocumented, rfl⟩ := (hblock _ _ hinside).mp hinner
      cases hresult
      exact ⟨hdocumented, rfl⟩
    · rintro ⟨hdocumented, rfl⟩
      exact ⟨_, (hblock _ _ hinside).mpr ⟨hdocumented, rfl⟩, rfl⟩
  | compound body =>
    have hinside := Outline.any_isClass_concat h (show (Node.compound body).isClass = false from rfl)
    have hbody := hblock _ result hinside
    rw [Node.block, Finds, Bindings.recordAll_append] at hbody
    rw [Outline.classesIn_cons rfl, modulesOf, hbody]
    show _ ↔ (∀ c ∈ classesIn _ before body ++ [], _) ∧ result = ((classesIn _ before body ++ []).map _, _)
    rw [List.append_nil]
    rfl
  | _ =>
    rw [Outline.classesIn_cons rfl]
    constructor
    · intro hresult
      cases hresult
      exact ⟨List.forall_mem_nil _, rfl⟩
    · rintro ⟨-, rfl⟩
      rfl

/-- **What a walk finds**: it succeeds exactly if strict mode has nothing to say against the classes in it,
gives their modules in document order, and then everything is in scope that its statements bind. -/
theorem modulesOfAll_eq_ok_iff (nodes : List Node) :
    ∀ (around before : List Node) (result : List Module × Bindings),
      around.any Node.isClass = false →
      ((modulesOfAll settings location (base.recordAll before) nodes).run.value = .ok result
        ↔ Finds settings location base before nodes (classesIn around before nodes) result) := by
  induction nodes using Node.block_induction with
  | nil =>
    intro around before result h
    unfold Finds
    rw [List.append_nil]
    constructor
    · intro hresult
      cases hresult
      exact ⟨List.forall_mem_nil _, rfl⟩
    · rintro ⟨-, rfl⟩
      rfl
  | cons node rest hblock hrest =>
    intro around before result h
    have hfirst := modulesOf_eq_ok_iff h fun around result => hblock around before result
    have hothers := fun result => hrest around (before ++ [node]) result h
    have hclasses : classesIn around before (node :: rest)
        = classesIn around before [node] ++ classesIn around (before ++ [node]) rest :=
      Outline.classesIn_append around before [node] rest
    have hall : before ++ node :: rest = before ++ [node] ++ rest := List.append_cons before node rest
    rw [modulesOfAll, Attempt.value_bind_eq_ok, hclasses]
    constructor
    · rintro ⟨first, hone, hmore⟩
      obtain ⟨hdocumented, rfl⟩ := (hfirst first).mp hone
      obtain ⟨others, hmore, hresult⟩ := Attempt.value_bind_eq_ok.mp hmore
      obtain ⟨hdocumentedRest, rfl⟩ := (hothers others).mp hmore
      cases hresult
      refine ⟨List.forall_mem_append.mpr ⟨hdocumented, hdocumentedRest⟩, ?_⟩
      rw [List.map_append, hall]
    · rintro ⟨hdocumented, rfl⟩
      obtain ⟨hone, hmore⟩ := List.forall_mem_append.mp hdocumented
      refine ⟨_, (hfirst _).mpr ⟨hone, rfl⟩, Attempt.value_bind_eq_ok.mpr ?_⟩
      refine ⟨_, (hothers _).mpr ⟨hmore, rfl⟩, ?_⟩
      rw [List.map_append, hall]
      rfl

/-! ## Outlines -/

/-- **What extraction adds**: the modules of the outer classes, in document order. -/
theorem extract_eq_ok_iff {collection result : Collection} {outline : List Node} :
    (extract settings collection outline location).run.value = .ok result
      ↔ (∀ c ∈ outerClasses outline, DocumentedClass settings c.body)
        ∧ result.modules
          = collection.modules ++ (outerClasses outline).map (moduleAt settings location {}) := by
  have hwalk : ∀ found, (modulesOfAll settings location {} outline).run.value = .ok found
      ↔ Finds settings location {} [] outline (outerClasses outline) found :=
    fun found => modulesOfAll_eq_ok_iff outline [] [] found rfl
  rw [extract, Attempt.value_bind_eq_ok]
  constructor
  · rintro ⟨found, hfound, hresult⟩
    obtain ⟨hdocumented, rfl⟩ := (hwalk found).mp hfound
    cases hresult
    exact ⟨hdocumented, rfl⟩
  · rintro ⟨hdocumented, hresult⟩
    refine ⟨_, (hwalk _).mpr ⟨hdocumented, rfl⟩, ?_⟩
    obtain ⟨modules⟩ := result
    cases hresult
    rfl

/-- What the module of a class says. -/
structure Describes (settings : Settings) (location : String) (c : ClassPlace) (m : Module) : Prop where
  name : m.name = c.head.name
  location : m.location = location
  help : m.help = if c.head.docstring.isSome
    then Docstring.summary settings.convention c.head.docstring else ""
  /-- There is a command for each public name, in the order of the first definitions. -/
  commandNames : m.commands.map (·.name) = publicNames c.body
  /-- Each command is built from the last definition of its name, among the names that the statements in
  front of the class bind. -/
  command : ∀ command ∈ m.commands, ∃ f, lastFunction? c.body command.name = some f
    ∧ command = commandFrom settings (Bindings.recordAll {} c.before) f
  /-- The arguments are those of the last constructor. -/
  args : m.args = ((lastFunction? c.body constructorName).map fun f =>
    (arguments settings.convention f []).value).getD []

/-- The commands of a described module are those of the last definitions of the public names, in order. -/
theorem Describes.commands {c : ClassPlace} {m : Module} (h : Describes settings location c m) :
    m.commands = (publicNames c.body).filterMap fun name =>
      (lastFunction? c.body name).map (commandFrom settings (Bindings.recordAll {} c.before)) := by
  have hlast : ∀ command ∈ m.commands,
      ((lastFunction? c.body command.name).map (commandFrom settings (Bindings.recordAll {} c.before)))
        = some command := by
    intro command hcommand
    obtain ⟨f, hf, heq⟩ := h.command command hcommand
    rw [hf, Option.map_some, ← heq]
  rw [← h.commandNames, List.filterMap_map]
  calc m.commands = m.commands.filterMap some := (List.filterMap_some).symm
    _ = _ := List.filterMap_congr fun command hcommand => (hlast command hcommand).symm

theorem describes_moduleAt (settings : Settings) (location : String) (c : ClassPlace) :
    Describes settings location c (moduleAt settings location {} c) := by
  obtain ⟨hname, hhelp, hlocation⟩ := foldl_withMethod_heading settings
    (Bindings.recordAll {} c.before) (methods c.body).values (heading settings location c.head)
  exact ⟨hname, hlocation, hhelp, map_name_commands_moduleFrom _ _ _ _ _,
    command_of_mem_moduleFrom _ _ _ _ _, args_moduleFrom _ _ _ _ _⟩

/-- Without strict mode extraction does not fail. -/
theorem extract_of_not_strict {settings : Settings} (h : settings.strict = false)
    (collection : Collection) (outline : List Node) (location : String) :
    (extract settings collection outline location).run.value
      = .ok ⟨collection.modules ++ (outerClasses outline).map (moduleAt settings location {})⟩ :=
  extract_eq_ok_iff.mpr ⟨fun c _ => documentedClass_of_not_strict h c.body, rfl⟩

/-- **The structure of what is extracted.** Without strict mode extraction never fails, and it adds one
module for each class that does not stand inside another one, in document order. -/
theorem extract_describes {settings : Settings} (h : settings.strict = false) (collection : Collection)
    (outline : List Node) (location : String) :
    ∃ found, (extract settings collection outline location).run.value
        = .ok ⟨collection.modules ++ found⟩
      ∧ List.Forall₂ (Describes settings location) (outerClasses outline) found := by
  refine ⟨_, extract_of_not_strict h collection outline location, ?_⟩
  rw [List.forall₂_map_right_iff]
  exact List.forall₂_same.mpr fun c _ => describes_moduleAt settings location c

/-- A function without parameters. -/
def plainFunction (name : String) : Function where
  name := name
  parameters := {}
  decorators := []
  returns := none
  docstring := none
  line := 1

/-- A function with parameters that have neither types nor defaults. -/
def functionOf (name : String) (parameters : List String) : Function :=
  { plainFunction name with parameters := { args := parameters.map (⟨·, none⟩) } }

/-- A class with a class inside it and methods that are defined again, the constructor among them, and a class inside
a function. -/
def workshop : List Node :=
  [.compound [.classDef ⟨"Outer", [], none, 1⟩
      [.functionDef (functionOf "__init__" ["self", "colour"]) [],
        .functionDef (functionOf "paint" ["self", "wall"]) [],
        .classDef ⟨"Inner", [], none, 2⟩ [.functionDef (plainFunction "hidden") []],
        .compound [.functionDef (functionOf "cut" ["self"]) [.functionDef (plainFunction "helper") []]],
        .functionDef (plainFunction "_glue") [],
        .functionDef { functionOf "__init__" ["self", "tool_box"] with docstring := some "Unpacks." } [],
        .functionDef { functionOf "paint" ["self", "door", "coats"] with docstring := some "Paints." } []]],
    .functionDef (plainFunction "factory")
      [.classDef ⟨"Built", [], none, 9⟩ [.functionDef (plainFunction "run") []]]]

/-- The classes of the workshop with their arguments, and their commands with theirs. -/
theorem extract_describes_workshop :
    ({} : Settings).strict = false
      ∧ ∃ found, (extract {} {} workshop "workshop.py").run.value = .ok ⟨found⟩
        ∧ found.map (fun m => (m.name, m.args.map (·.destination),
            m.commands.map fun command => (command.name, command.args.map (·.destination))))
          = [("Outer", ["tool_box"], [("paint", ["door", "coats"]), ("cut", [])]),
            ("Built", [], [("run", [])])] := by
  have hstrict : ({} : Settings).strict = false := rfl
  obtain ⟨found, hfound, hdescribes⟩ := extract_describes hstrict {} workshop "workshop.py"
  refine ⟨hstrict, found, hfound, ?_⟩
  have hsays := hdescribes.imp fun c m (h : Describes {} "workshop.py" c m) =>
    show (c.head.name, _, _) = (m.name, m.args.map (·.destination),
        m.commands.map fun command => (command.name, command.args.map (·.destination))) by
      rw [h.name, h.args, h.commands]
  have hfields := List.forall₂_map_right_iff.mpr (List.forall₂_map_left_iff.mpr hsays)
  rw [List.forall₂_eq_eq_eq] at hfields
  rw [← hfields]
  decide +kernel

end ClassCli.Extraction
