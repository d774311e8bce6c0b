import ClassCli.Proofs.Extraction.WrittenModules
import ClassCli.Proofs.Marker.Settings

/-!
# Names that come from source texts

Every module of a collection comes from a class that is written in one of the source texts, and each of its
commands from a method that is written in this class. Their names are words of the text, so that they are
identifiers, and the settings of a flag are stored under the names of its marker's parameters.

The value of an argument is passed to a method as a keyword, so that its destination has to be an
identifier. It is the name of a parameter, which is a word of the source text, unless the parameter is a
tuple of names: a tuple with a default is kept, and its text becomes the destination.

* **`WrittenModule`** — what a module takes from the class that it comes from.
* **`written_of_extractSources`** — every module comes from a written class.
* **`WrittenModule.isIdentifier_name`** — the names are identifiers.
* **`key_of_mem_flags`** — the keys of settings are names of parameters of markers.
* **`destination_isIdentifier_iff`** — exactly when the destination of an argument is an identifier.
* **`destination_not_identifier`** — a tuple with a default, whose destination is none.
-/

namespace ClassCli

namespace Marker

open Outline (Expr)

/-! ## Keys of settings -/

/-- Whether a name is that of a parameter of some marker. -/
def Registry.HasParam (registry : Registry) (key : String) : Prop :=
  ∃ entry ∈ registry.specs, key ∈ Entries.keys entry.2.params

/-- A marker that a decorator refers to is a registered one. -/
theorem mem_specs_of_markerOf? {scope : Bindings} {registry : Registry} {decorator : Expr} {spec : Spec}
    (h : markerOf? scope registry decorator = some spec) : ∃ entry ∈ registry.specs, entry.2 = spec := by
  have hget (name : String) (h : registry.get? name = some spec) : ∃ entry ∈ registry.specs, entry.2 = spec :=
    ⟨(name, spec), Entries.mem_of_get?_eq_some h, rfl⟩
  unfold markerOf? at h
  split at h
  · cases h
  split at h
  · unfold Registry.lookup? at h
    split at h
    · cases h
    · exact hget _ h
  · split at h
    · exact hget _ h
    · cases h

/-- **The keys of settings** are names of parameters of the markers. -/
theorem key_of_mem_flags {scope : Bindings} {registry : Registry} {f : Outline.Function}
    {flag : Interface.Flag} (h : flag ∈ (flags scope registry f).value) :
    ∀ entry ∈ flag.values, registry.HasParam entry.1 := by
  obtain ⟨found, hfound, hvalue⟩ := List.mem_filterMap.mp h
  obtain ⟨decorator, -, rfl⟩ := List.mem_map.mp hfound
  unfold flag? at hvalue
  split at hvalue
  · cases hvalue
  rename_i spec hspec
  split at hvalue
  · rename_i values hvalues
    cases hvalue
    obtain ⟨registered, hmem, rfl⟩ := mem_specs_of_markerOf? hspec
    intro entry hentry
    have hkey : entry.1 ∈ Entries.keys values := List.mem_map_of_mem hentry
    rw [keys_settings hvalues] at hkey
    exact ⟨registered, hmem, hkey⟩
  · cases hvalue

end Marker

namespace Extraction

open Interface (Collection Command Module)
open Marker (Bindings)
open Outline (lowerBlock outlineOf)
open Source (ClassDefinition)
open Text (isIdentifier)

/-! ## Modules of written classes -/

/-- A module comes from a class that is written in one of the source texts. -/
def WrittenModule (settings : Settings) (files : List SourceFile) (m : Module) : Prop :=
  ∃ file ∈ files, m.location = file.location ∧ ∃ c ∈ file.classes, m.name = c.name
    ∧ ∀ command ∈ m.commands, ∃ d ∈ c.functions, ∃ scope,
        command = commandFrom settings scope (outlineOf d)

/-- **Every module comes from a written class.** -/
theorem written_of_extractSources {settings : Settings} {files : List SourceFile}
    {collection : Collection} (h : (extractSources settings files).run.value = .ok collection) :
    ∀ m ∈ collection.modules, WrittenModule settings files m := by
  refine each_of_extractSources ?_ h
  intro file hfile outline houtline entry hentry scope m hm
  obtain ⟨-, rfl⟩ := statements_eq houtline
  rw [Outline.classesOfAll_lowerBlock] at hentry
  obtain ⟨c, hc, rfl⟩ := List.mem_map.mp hentry
  obtain ⟨-, rfl⟩ := moduleOf_eq_ok_iff.mp hm
  obtain ⟨hname, -, hlocation⟩ := foldl_withMethod_heading settings scope
    (methods (lowerBlock c.body)).values (heading settings file.location (Outline.headOf c))
  refine ⟨file, hfile, hlocation, c, hc, hname, ?_⟩
  intro command hcommand
  obtain ⟨f, hf, hfrom⟩ := command_of_mem_moduleFrom _ _ _ _ _ command hcommand
  rw [show (Outline.lowerClass c).2 = lowerBlock c.body from rfl, lastFunction?_lowerBlock] at hf
  obtain ⟨d, hd, rfl⟩ := Option.map_eq_some_iff.mp hf
  exact ⟨d, (ClassDefinition.mem_functions_of_method? hd).1, scope, hfrom⟩

namespace WrittenModule

variable {settings : Settings} {files : List SourceFile} {m : Module}

/-- **The name of a module** is an identifier. -/
theorem isIdentifier_name (h : WrittenModule settings files m) : isIdentifier m.name.toList = true := by
  obtain ⟨file, -, -, c, hc, hname, -⟩ := h
  rw [hname]
  exact (List.forall₂_same.1 (classes_like file) c hc).name.2

/-- **The name of a command** is an identifier. -/
theorem isIdentifier_commandName (h : WrittenModule settings files m) :
    ∀ command ∈ m.commands, isIdentifier command.name.toList = true := by
  obtain ⟨file, -, -, c, hc, -, hcommands⟩ := h
  intro command hcommand
  obtain ⟨d, hd, scope, rfl⟩ := hcommands command hcommand
  have hclass := List.forall₂_same.1 (classes_like file) c hc
  exact (List.forall₂_same.1 (Source.functionsOfBlock_like hclass.body) d hd).name.2

theorem key_of_flag (h : WrittenModule settings files m) : ∀ command ∈ m.commands,
    ∀ flag ∈ command.flags, ∀ entry ∈ flag.values, settings.registry.HasParam entry.1 := by
  obtain ⟨file, -, -, c, -, -, hcommands⟩ := h
  intro command hcommand flag hflag
  obtain ⟨d, -, scope, rfl⟩ := hcommands command hcommand
  exact Marker.key_of_mem_flags hflag

end WrittenModule

end Extraction

namespace Source

open Text (isIdentifier)

/-- Whether a parameter is a tuple of names: it is named by a text in round brackets. -/
def NamedParam.isTuple (p : NamedParam) : Bool := p.name.toList.head? == some '('

theorem exists_param_of_mem_explicit {d : Definition} {p : NamedParam} (h : p ∈ d.explicit) :
    ∃ param ∈ d.params, param.named? = some p := by
  rcases List.mem_append.mp h with h | h
  · obtain ⟨param, hparam, hp⟩ := List.mem_filterMap.mp (List.mem_of_mem_drop h)
    exact ⟨param, (List.takeWhile_sublist _).mem hparam, hp⟩
  · obtain ⟨param, hparam, hp⟩ := List.mem_filterMap.mp h
    exact ⟨param, (List.dropWhile_sublist _).mem hparam, hp⟩

theorem head?_of_isIdentifier {name : List Char} (h : isIdentifier name = true) :
    name.head? ≠ some '(' := by
  cases name with
  | nil => simp
  | cons c rest =>
    intro hc
    obtain rfl := Option.some.inj hc
    rw [isIdentifier, Bool.and_eq_true] at h
    exact absurd h.1 (by decide +kernel)

/-- A parameter that was read is named by an identifier, or it is a tuple with a default. -/
theorem isIdentifier_iff_of_like {param : Param} {p : NamedParam} (h : Param.Like .named param param)
    (hp : param.named? = some p) :
    (isIdentifier p.name.toList = true ↔ p.isTuple = false)
      ∧ (p.isTuple = true → p.default.isSome = true) := by
  cases param with
  | plain name typeHint default =>
    cases hp
    cases h with
    | named hname =>
      have hname : isIdentifier name.toList = true := hname
      have htuple : NamedParam.isTuple ⟨name, typeHint, default⟩ = false := by
        simpa [NamedParam.isTuple] using head?_of_isIdentifier hname
      simp [hname, htuple]
    | tupled hround =>
      obtain ⟨tail, rfl⟩ := hround
      have htuple (default : Option Expr) : NamedParam.isTuple ⟨"(" ++ tail, none, default⟩ = true := by
        rw [NamedParam.isTuple, String.toList_append]
        rfl
      have hname : isIdentifier ("(" ++ tail).toList = false := by
        rw [Bool.eq_false_iff]
        intro hname
        apply head?_of_isIdentifier hname
        rw [String.toList_append]
        rfl
      refine ⟨?_, fun _ => rfl⟩
      rw [show isIdentifier _ = false from hname, htuple]
      simp
  | _ => cases hp

end Source

namespace Extraction

open Interface (Argument Collection Module)
open Source (ClassDefinition Definition NamedParam)
open Text (isIdentifier)

/-- The methods of the classes in a source text hold what the reader makes of parameters. -/
theorem param_like_of_mem {file : SourceFile} {c : ClassDefinition} {d : Definition}
    (hc : c ∈ file.classes) (hd : d ∈ c.functions) :
    ∀ param ∈ d.params, Source.Param.Like .named param param := by
  have hclass := List.forall₂_same.1 (classes_like file) c hc
  have hmethod := List.forall₂_same.1 (Source.functionsOfBlock_like hclass.body) d hd
  exact List.forall₂_same.1 hmethod.params

/-- **Exactly when a destination is an identifier**: every argument is named after a parameter that is
written in a method, and its destination is an identifier exactly if that parameter is no tuple of names,
which a tuple without a default never is. -/
theorem destination_isIdentifier_iff {settings : Settings} {files : List SourceFile}
    {collection : Collection} (h : (extractSources settings files).run.value = .ok collection) :
    ∀ m ∈ collection.modules, ∀ arg ∈ m.args ++ m.commands.flatMap (·.args),
      ∃ file ∈ files, ∃ c ∈ file.classes, ∃ d ∈ c.functions, ∃ p ∈ d.explicit,
        arg.destination = p.name ∧ (isIdentifier arg.destination.toList = true ↔ p.isTuple = false)
          ∧ (p.isTuple = true → p.default.isSome = true) := by
  intro m hm arg harg
  obtain ⟨file, hfile, c, hc, d, hd, p, hp, hname, -⟩ := exists_param_of_collection h m hm arg harg
  obtain ⟨param, hparam, hnamed⟩ := Source.exists_param_of_mem_explicit hp
  rw [hname]
  exact ⟨file, hfile, c, hc, d, hd, p, hp, rfl,
    Source.isIdentifier_iff_of_like (param_like_of_mem hc hd param hparam) hnamed⟩

/-- A method with a tuple of names and a name for its parameters. -/
def pairSource : SourceFile where
  location := "a.py"
  text := "class A:\n    def run(self, (a, b)=1, c=2):\n        pass\n"

/-- An argument with a whole number for its default. -/
def numbered (name : String) (value : Int64) : Argument :=
  { Argument.ofParameter name with default := some (.int value), help := Docstring.noDocumentation }

/-- The collection of this method. -/
def pairCollection : Collection :=
  ⟨[{ name := "A", location := "a.py",
      commands := [{ name := "run", help := Docstring.noDocumentation,
                     args := [numbered "(a, b)" 1, numbered "c" 2] }] }]⟩

/-- Of the two parameters one is a tuple and one is not. -/
theorem destination_isIdentifier_iff_pair :
    (extractSources {} [pairSource]).run.value = .ok pairCollection
      ∧ ∀ m ∈ pairCollection.modules, ∀ arg ∈ m.args ++ m.commands.flatMap (·.args),
        ∃ file ∈ [pairSource], ∃ c ∈ file.classes, ∃ d ∈ c.functions, ∃ p ∈ d.explicit,
          arg.destination = p.name ∧ (isIdentifier arg.destination.toList = true ↔ p.isTuple = false)
            ∧ (p.isTuple = true → p.default.isSome = true) := by
  have hextract : (extractSources {} [pairSource]).run.value = .ok pairCollection := by decide +kernel
  exact ⟨hextract, destination_isIdentifier_iff hextract⟩

/-- **A tuple with a default becomes an argument** whose destination is no identifier. -/
theorem destination_not_identifier :
    (extractSources {} [pairSource]).run.value = .ok pairCollection
      ∧ numbered "(a, b)" 1 ∈ (pairCollection.modules.flatMap (·.commands)).flatMap (·.args)
      ∧ isIdentifier (numbered "(a, b)" 1).destination.toList = false := by
  refine ⟨by decide +kernel, ?_, by decide +kernel⟩
  exact List.mem_cons_self

end Extraction

end ClassCli
