import ClassCli.Proofs.Attempt
import ClassCli.Proofs.Text.LowerCase
import ClassCli.Synthesis

/-!
# Names that are refused

Function names are made of the names of modules and commands, in lower case and with underscores for the
hyphens of commands. What is checked are the parts as they are written there. Since the conversion to lower
case makes no white space and no hyphen and leaves its own results alone, only the name of a module that is
empty or has white space or a hyphen in it is refused, and that of a command that has white space in it.

* **`namePart`**, **`commandPart`** — what is written of a name, and what is wrong with the name itself.
* **`nameFault?_lowerString`**, **`nameFault?_stem`** — the check sees exactly what is wrong with the names.
* **`generate_refuses_iff`** — which collections are refused, and with which fault.
-/

namespace ClassCli.Synthesis

open Code (Definition)
open Interface (Argument Collection Command Module)
open Text (isBlank lower lowerString)

/-! ## Names -/

/-- Whether a text has white space in it. -/
def HasBlank (name : String) : Prop := ∃ c ∈ name.toList, isBlank c = true

theorem hasBlank_iff {name : String} : HasBlank name ↔ name.toList.any isBlank = true := List.any_eq_true.symm

instance (name : String) : Decidable (HasBlank name) := decidable_of_iff _ hasBlank_iff.symm

/-- A part of the names of functions: how it is written in them, and what is wrong with the name that it
comes from. -/
structure NamePart where
  written : String
  reason : Option NameFault

/-- What is wrong with the name of a module. -/
def moduleNameFault? (name : String) : Option NameFault :=
  if name = "" then some .empty
  else if HasBlank name then some .whitespace
  else if '-' ∈ name.toList then some .hyphen
  else none

/-- The part that stands for a module. -/
def modulePart (m : Module) : NamePart := ⟨lowerString m.name, moduleNameFault? m.name⟩

/-- The part that stands for a command of a module. -/
def commandPart (m : Module) (command : Command) : NamePart :=
  ⟨lowerString m.name ++ "_" ++ variableName command.name,
    if HasBlank command.name then some .whitespace else none⟩

/-- The parts of a module: its own one and then those of its commands. -/
def nameParts (m : Module) : List NamePart := modulePart m :: m.commands.map (commandPart m)

/-- The fault of a part with something wrong. -/
def NamePart.fault? (part : NamePart) : Option Fault := part.reason.map (.identifierFormat part.written)

/-! ## What the check sees -/

theorem hasBlank_lowerString {name : String} : HasBlank (lowerString name) ↔ HasBlank name := by
  rw [hasBlank_iff, hasBlank_iff, lowerString, String.toList_ofList, Text.any_isBlank_lower]

theorem hasBlank_append {front back : String} : HasBlank (front ++ back) ↔ HasBlank front ∨ HasBlank back := by
  simp only [hasBlank_iff, String.toList_append, List.any_append, Bool.or_eq_true]

theorem lowerString_eq_empty_iff {name : String} : lowerString name = "" ↔ name = "" := by
  calc
    lowerString name = "" ↔ (lowerString name).toList = [] := String.toList_eq_nil_iff.symm
    _ ↔ name.toList = [] := by rw [lowerString, String.toList_ofList, Text.lower_eq_nil_iff]
    _ ↔ name = "" := String.toList_eq_nil_iff

theorem hyphen_mem_lowerString {name : String} : '-' ∈ (lowerString name).toList ↔ '-' ∈ name.toList := by
  rw [lowerString, String.toList_ofList]
  exact ⟨Text.mem_of_mem_lower (by decide), Text.mem_lower_of_mem (by decide)⟩

/-- A text of characters that stay as they are is its own lower-case form. -/
theorem lowerString_of_settled {text : String} (h : ∀ c ∈ text.toList, Text.Settled c) : lowerString text = text := by
  rw [lowerString, Text.lower_of_settled h, String.ofList_toList]

theorem settled_lowerString {name : String} : ∀ c ∈ (lowerString name).toList, Text.Settled c := by
  rw [lowerString, String.toList_ofList]
  exact Text.settled_of_mem_lower

theorem nameFault?_of_settled {text : String} (h : ∀ c ∈ text.toList, Text.Settled c) :
    nameFault? text = moduleNameFault? text := by
  have hsame : (text != lowerString text) = false := by rw [lowerString_of_settled h, bne_self_eq_false]
  rw [nameFault?, moduleNameFault?, hsame]
  simp only [String.isEmpty_iff, hasBlank_iff, List.contains_iff_mem, Bool.false_eq_true, if_false]

/-- **The check of a module** sees what is wrong with the name that was lowered. -/
theorem nameFault?_lowerString (name : String) : nameFault? (lowerString name) = moduleNameFault? name := by
  rw [nameFault?_of_settled settled_lowerString, moduleNameFault?, moduleNameFault?]
  simp only [lowerString_eq_empty_iff, hasBlank_lowerString, hyphen_mem_lowerString]

theorem hasBlank_variableName {name : String} : HasBlank (variableName name) ↔ HasBlank name := by
  rw [variableName, hasBlank_lowerString, hasBlank_iff, hasBlank_iff, Text.replaceIn, String.toList_ofList,
    Text.replaceChar, List.any_map]
  refine iff_of_eq (congrArg (· = true) (congrArg (name.toList.any ·) (funext fun c => ?_)))
  rw [Function.comp_apply]
  split
  · subst c
    rfl
  · rfl

theorem hyphen_not_mem_variableName (name : String) : '-' ∉ (variableName name).toList := by
  rw [variableName, hyphen_mem_lowerString, Text.replaceIn, String.toList_ofList, Text.replaceChar, List.mem_map]
  rintro ⟨c, -, hc⟩
  split at hc
  · exact absurd hc (by decide)
  · exact absurd hc ‹_›

/-- **The check of a command** of a module that has passed its own sees white space in the name and nothing
else. -/
theorem nameFault?_stem {m : Module} (hm : moduleNameFault? m.name = none) (command : Command) :
    nameFault? (commandPart m command).written = (commandPart m command).reason := by
  have hsettled : ∀ c ∈ (lowerString m.name ++ "_" ++ variableName command.name).toList, Text.Settled c := by
    intro c hc
    rw [String.toList_append, String.toList_append] at hc
    rcases List.mem_append.mp hc with hc | hc
    · rcases List.mem_append.mp hc with hc | hc
      · exact settled_lowerString c hc
      · rw [List.mem_singleton.mp hc]
        decide
    · exact settled_lowerString c hc
  have hempty : lowerString m.name ++ "_" ++ variableName command.name ≠ "" := by simp
  rw [moduleNameFault?] at hm
  split at hm
  · cases hm
  split at hm
  · cases hm
  split at hm
  · cases hm
  rename_i hblank hhyphen
  have hhyphen : '-' ∉ (lowerString m.name ++ "_" ++ variableName command.name).toList := by
    rw [String.toList_append, String.toList_append, List.mem_append, List.mem_append, hyphen_mem_lowerString]
    rintro ((h | h) | h)
    · exact hhyphen h
    · exact absurd h (by decide)
    · exact hyphen_not_mem_variableName command.name h
  have hsame : HasBlank (lowerString m.name ++ "_" ++ variableName command.name) ↔ HasBlank command.name := by
    rw [hasBlank_append, hasBlank_append, hasBlank_lowerString, hasBlank_variableName]
    have hunderscore : ¬HasBlank "_" := by decide
    simp only [hblank, hunderscore, false_or]
  rw [commandPart, nameFault?_of_settled hsettled, moduleNameFault?, if_neg hempty, if_neg hhyphen]
  simp only [hsame]

/-! ## Where generation stops -/

/-- The fault of the first part with something wrong. -/
def firstFault? (parts : List NamePart) : Option Fault := parts.findSome? NamePart.fault?

theorem firstFault?_cons_of_none {part : NamePart} (h : part.reason = none) (parts : List NamePart) :
    firstFault? (part :: parts) = firstFault? parts := by
  rw [firstFault?, List.findSome?_cons, NamePart.fault?, h]
  rfl

theorem firstFault?_cons_of_some {part : NamePart} {reason : NameFault} (h : part.reason = some reason)
    (parts : List NamePart) : firstFault? (part :: parts) = some (.identifierFormat part.written reason) := by
  rw [firstFault?, List.findSome?_cons, NamePart.fault?, h]
  rfl

theorem checkName_of_none {name : String} (h : nameFault? name = none) : checkName name = .ok () := by
  rw [checkName, h]

theorem checkName_of_some {name : String} {reason : NameFault} (h : nameFault? name = some reason) :
    checkName name = .error (.identifierFormat name reason) := by
  rw [checkName, h]

theorem error_eq_iff {α : Type} {reason fault : Fault} :
    (.error reason : Except Fault α) = .error fault ↔ some reason = some fault := by
  rw [Except.error.injEq, Option.some.injEq]

/-- Registering commands stops at the first one with something wrong. -/
theorem register_eq_error_iff {m : Module} (hm : moduleNameFault? m.name = none) {fault : Fault}
    (commands : List Command) : ∀ (definition : Definition) (position : Nat),
      CommandParser.register (lowerString m.name) definition position
          (commands.map fun c => { c with args := c.args ++ m.args }) = .error fault
        ↔ firstFault? (commands.map (commandPart m)) = some fault := by
  induction commands with
  | nil => exact fun _ _ => iff_of_false (fun h => nomatch h) (fun h => nomatch h)
  | cons command rest ih =>
    intro definition position
    have hcheck : nameFault? (lowerString m.name ++ "_" ++ variableName command.name)
        = (commandPart m command).reason :=
      nameFault?_stem hm command
    rw [List.map_cons, List.map_cons, CommandParser.register, argumentHelper]
    cases hreason : (commandPart m command).reason with
    | none =>
      rw [hreason] at hcheck
      rw [checkName_of_none hcheck, firstFault?_cons_of_none hreason]
      exact ih _ _
    | some reason =>
      rw [hreason] at hcheck
      rw [checkName_of_some hcheck, firstFault?_cons_of_some hreason]
      exact error_eq_iff

/-- The part of a module stops at the first name with something wrong. -/
theorem moduleParser_eq_error_iff {imports : List String} {m : Module} {fault : Fault} :
    moduleParser imports m = .error fault ↔ firstFault? (nameParts m) = some fault := by
  have hcheck : nameFault? (lowerString m.name) = (modulePart m).reason := nameFault?_lowerString m.name
  rw [moduleParser, CommandParser.start, nameParts]
  cases hreason : (modulePart m).reason with
  | none =>
    rw [hreason] at hcheck
    rw [checkName_of_none hcheck, firstFault?_cons_of_none hreason]
    show CommandParser.register _ _ 0 _ >>= _ = _ ↔ _
    -- nothing fails behind the registration
    refine (except_bind_eq_error.trans (or_iff_left ?_)).trans (register_eq_error_iff hreason m.commands _ 0)
    rintro ⟨registered, -, h⟩
    cases h
  | some reason =>
    rw [hreason] at hcheck
    rw [checkName_of_some hcheck, firstFault?_cons_of_some hreason]
    exact error_eq_iff

/-- Registering modules stops at the first name with something wrong. -/
theorem registerModules_eq_error_iff {fault : Fault} (modules : List Module) :
    ∀ (definition : Definition) (position : Nat) (imports : List String),
      registerModules definition position imports modules = .error fault
        ↔ firstFault? (modules.flatMap nameParts) = some fault := by
  induction modules with
  | nil => exact fun _ _ _ => iff_of_false (fun h => nomatch h) (fun h => nomatch h)
  | cons m rest ih =>
    intro definition position imports
    have hm (other : Fault) : moduleParser imports m = .error other ↔ firstFault? (nameParts m) = some other :=
      moduleParser_eq_error_iff
    rw [registerModules, List.flatMap_cons, firstFault?, List.findSome?_append, ← firstFault?, ← firstFault?]
    cases hparser : moduleParser imports m with
    | ok p =>
      have hnone : firstFault? (nameParts m) = none := by
        cases hfirst : firstFault? (nameParts m) with
        | none => rfl
        | some other =>
          have herror := (hm other).mpr hfirst
          rw [hparser] at herror
          cases herror
      rw [hnone, Option.none_or]
      exact ih _ _ _
    | error other =>
      rw [(hm other).mp hparser, Option.some_or]
      exact error_eq_iff

/-- The setup file cannot be made exactly if there is something wrong with a name. -/
theorem setupParser_eq_error_iff {runtime : String} {collection : Collection} {fault : Fault} :
    setupParser runtime collection = .error fault
      ↔ firstFault? (collection.modules.flatMap nameParts) = some fault := by
  obtain ⟨modules⟩ := collection
  match modules with
  | [] => exact iff_of_false (fun h => nomatch h) (fun h => nomatch h)
  | [m] =>
    have hparts : [m].flatMap nameParts = nameParts m := by simp
    refine Iff.trans (except_bind_eq_error.trans (or_iff_left ?_)) (hparts ▸ moduleParser_eq_error_iff)
    rintro ⟨p, -, h⟩
    cases h
  | first :: second :: rest =>
    refine Iff.trans (except_bind_eq_error.trans (or_iff_left ?_)) (registerModules_eq_error_iff _ _ _ _)
    rintro ⟨definition, -, h⟩
    cases h

/-- Nothing but the setup file can fail. -/
theorem generate_eq_error_iff {surroundings : Surroundings} {collection : Collection} {parserFile : String}
    {fault : Fault} : (generate surroundings collection parserFile).run.value = .error fault
      ↔ firstFault? (collection.modules.flatMap nameParts) = some fault := by
  have hsetup : setupParser surroundings.runtime collection = .error fault
      ↔ firstFault? (collection.modules.flatMap nameParts) = some fault := setupParser_eq_error_iff
  rw [← hsetup]
  constructor
  · intro h
    rcases Attempt.value_bind_eq_error.mp h with h | ⟨-, -, h⟩
    · cases h
    rcases Attempt.value_bind_eq_error.mp h with h | ⟨setup, -, h⟩
    · exact h
    rcases Attempt.value_bind_eq_error.mp h with h | ⟨entry, -, h⟩
    · cases h
    · cases h
  · intro h
    exact Attempt.value_bind_eq_error.mpr (Or.inr ⟨(), rfl, Attempt.value_bind_eq_error.mpr (Or.inl h)⟩)

/-! ## Which collections are refused -/

/-- The name of a module that cannot be part of a function name. -/
def RefusedModule (m : Module) : Prop := m.name = "" ∨ HasBlank m.name ∨ '-' ∈ m.name.toList

theorem reason_modulePart {m : Module} : (modulePart m).reason ≠ none ↔ RefusedModule m := by
  rw [modulePart, moduleNameFault?, RefusedModule]
  split
  · simp [*]
  split
  · simp [*]
  split
  · simp [*]
  · simp [*]

theorem reason_commandPart {m : Module} {command : Command} :
    (commandPart m command).reason ≠ none ↔ HasBlank command.name := by
  rw [commandPart]
  split
  · simp [*]
  · simp [*]

/-- Capitals are never the reason, because what is checked is in lower case. -/
theorem reason_ne_uppercase {m : Module} {part : NamePart} (h : part ∈ nameParts m) :
    part.reason ≠ some .uppercase := by
  rcases List.mem_cons.mp h with rfl | h
  · rw [modulePart, moduleNameFault?]
    repeat' split
    all_goals simp
  · obtain ⟨command, -, rfl⟩ := List.mem_map.mp h
    rw [commandPart]
    split
    · simp
    · simp

theorem firstFault?_eq_some_iff {parts : List NamePart} {fault : Fault} :
    firstFault? parts = some fault
      ↔ ∃ front part back reason, parts = front ++ part :: back ∧ (∀ other ∈ front, other.reason = none)
        ∧ part.reason = some reason ∧ fault = .identifierFormat part.written reason := by
  rw [firstFault?, List.findSome?_eq_some_iff]
  simp only [NamePart.fault?, Option.map_eq_some_iff, Option.map_eq_none_iff]
  constructor
  · rintro ⟨front, part, back, hparts, ⟨reason, hreason, rfl⟩, hfront⟩
    exact ⟨front, part, back, reason, hparts, hfront, hreason, rfl⟩
  · rintro ⟨front, part, back, reason, hparts, hfront, hreason, rfl⟩
    exact ⟨front, part, back, hparts, ⟨reason, hreason, rfl⟩, hfront⟩

theorem exists_firstFault?_iff {modules : List Module} :
    (∃ fault, firstFault? (modules.flatMap nameParts) = some fault)
      ↔ ∃ m ∈ modules, RefusedModule m ∨ ∃ command ∈ m.commands, HasBlank command.name := by
  rw [← Option.isSome_iff_exists, firstFault?, List.findSome?_isSome_iff]
  simp only [NamePart.fault?, Option.isSome_map, Option.isSome_iff_ne_none, List.mem_flatMap]
  constructor
  · rintro ⟨part, ⟨m, hm, hpart⟩, hreason⟩
    rcases List.mem_cons.mp hpart with rfl | hpart
    · exact ⟨m, hm, Or.inl (reason_modulePart.mp hreason)⟩
    · obtain ⟨command, hcommand, rfl⟩ := List.mem_map.mp hpart
      exact ⟨m, hm, Or.inr ⟨command, hcommand, reason_commandPart.mp hreason⟩⟩
  · rintro ⟨m, hm, hmodule | ⟨command, hcommand, hblank⟩⟩
    · exact ⟨_, ⟨m, hm, List.mem_cons_self⟩, reason_modulePart.mpr hmodule⟩
    · exact ⟨_, ⟨m, hm, List.mem_cons_of_mem _ (List.mem_map_of_mem hcommand)⟩, reason_commandPart.mpr hblank⟩

/-- **Which collections are refused**: those with a module whose name is empty or has white space or a hyphen
in it, or with a command whose name has white space in it. The fault is that of the first such name, a module
before its own commands, and capitals are never the reason. -/
theorem generate_refuses_iff (surroundings : Surroundings) (collection : Collection) (parserFile : String) :
    ((∃ fault, (generate surroundings collection parserFile).run.value = .error fault)
        ↔ ∃ m ∈ collection.modules, (m.name = "" ∨ HasBlank m.name ∨ '-' ∈ m.name.toList)
          ∨ ∃ command ∈ m.commands, HasBlank command.name)
      ∧ (∀ fault, (generate surroundings collection parserFile).run.value = .error fault
        ↔ ∃ front part back reason, collection.modules.flatMap nameParts = front ++ part :: back
          ∧ (∀ other ∈ front, other.reason = none) ∧ part.reason = some reason
          ∧ fault = .identifierFormat part.written reason)
      ∧ ∀ name, (generate surroundings collection parserFile).run.value
        ≠ .error (.identifierFormat name .uppercase) := by
  simp only [ne_eq, generate_eq_error_iff]
  refine ⟨exists_firstFault?_iff, fun fault => firstFault?_eq_some_iff, ?_⟩
  intro name h
  obtain ⟨front, part, back, reason, hparts, -, hreason, hfault⟩ := firstFault?_eq_some_iff.mp h
  obtain ⟨-, rfl⟩ := Fault.identifierFormat.inj hfault
  have hmem : part ∈ collection.modules.flatMap nameParts := by
    rw [hparts]
    exact List.mem_append_right _ List.mem_cons_self
  obtain ⟨m, -, hpart⟩ := List.mem_flatMap.mp hmem
  exact reason_ne_uppercase hpart hreason

-- a hyphen in the first command is replaced, and the dotted capital becomes two characters
example : (setupParser "argsmith"
    ⟨[{ name := "İo", location := "a.py", commands := [{ name := "run-all" }, { name := "Show It" }] }]⟩)
      = .error (.identifierFormat "i\u0307o_show it" .whitespace) := by
  rfl

end ClassCli.Synthesis
