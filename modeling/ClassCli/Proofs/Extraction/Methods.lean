import ClassCli.Extraction
import ClassCli.Proofs.Attempt
import ClassCli.Proofs.Entries
import ClassCli.Proofs.Outline.Places

/-!
# What a class becomes

The functions of a class body are gathered by name: a name stands where it was defined first and means
what it was defined as last. The constructor gives the arguments of the module, and every public method
becomes a command. This fails only in strict mode, on a method with parameters and no docstring; apart
from that the module can be told from the class and from the names in scope.

* **`methods_eq`** — the methods of a class are its functions, gathered by name.
* **`moduleFrom`** — the module of a class, without failing.
* **`moduleOf_eq_ok_iff`** — extraction succeeds exactly on documented classes, with this module.
* **`map_name_commands_moduleFrom`**, **`command_of_mem_moduleFrom`**, **`args_moduleFrom`** — its commands
  and its arguments.
-/

namespace ClassCli.Extraction

open Interface (Argument Command Module)
open Marker (Bindings)
open Outline (ClassHead Function Node bodyFunctions functionsIn)

/-! ## Methods by name -/

theorem addAllMethods_eq (nodes : List Node) :
    ∀ (around before : List Node) (found : Entries Function), around.all Node.isCompound = true →
      addAllMethods found nodes
        = (functionsIn around before nodes).foldl (fun entries f => Entries.put f.name f entries)
            found := by
  induction nodes using Node.block_induction with
  | nil =>
    intro around before found _
    rfl
  | cons node rest hblock hrest =>
    intro around before found h
    rw [addAllMethods]
    cases node with
    | compound body =>
      have hinside : (around ++ [Node.compound body]).all Node.isCompound = true := by
        rw [List.all_append, h]
        rfl
      have hbody := hblock _ before found hinside
      rw [addMethods, Outline.functionsIn_compound, List.foldl_append]
      rw [Node.block] at hbody
      rw [← hbody]
      exact hrest _ _ _ h
    | functionDef head body =>
      have hself : Outline.Place.method? ⟨around, before, .functionDef head body⟩ = some head := by
        rw [Outline.Place.method?, h]
        rfl
      rw [addMethods, Outline.functionsIn_cons rfl, hself, Option.toList_some, List.singleton_append,
        List.foldl_cons]
      exact hrest _ _ _ h
    | _ =>
      rw [Outline.functionsIn_cons rfl]
      exact hrest _ _ _ h

/-- **The methods of a class** are the functions of its body, gathered by name. -/
theorem methods_eq (body : List Node) :
    methods body = Entries.collect (·.name) (bodyFunctions body) :=
  addAllMethods_eq body [] [] [] rfl

/-! ## Arguments and commands -/

/-- Strict mode has nothing to say against a function. -/
def Documented (settings : Settings) (f : Function) : Prop :=
  settings.strict = true → lacksDocstring f = false

/-- Whether a function of a class is looked at: the constructor and the public methods are. -/
def Exposed (name : String) : Prop := name = constructorName ∨ isPublic name = true

theorem checkedArguments_eq_ok_iff {settings : Settings} {className : String} {f : Function}
    {attached : List String} {args : List Argument} :
    (checkedArguments settings className f attached).run.value = .ok args
      ↔ Documented settings f ∧ args = (arguments settings.convention f attached).value := by
  unfold checkedArguments Documented
  cases hstrict : settings.strict with
  | false =>
    rw [Bool.false_and, if_neg Bool.false_ne_true]
    constructor
    · intro h
      cases h
      exact ⟨nofun, rfl⟩
    · rintro ⟨-, rfl⟩
      rfl
  | true =>
    cases hlacks : lacksDocstring f with
    | true =>
      constructor
      · intro h
        cases h
      · rintro ⟨h, -⟩
        cases h rfl
    | false =>
      constructor
      · intro h
        cases h
        exact ⟨fun _ => rfl, rfl⟩
      · rintro ⟨-, rfl⟩
        rfl

/-- The flags of a method among the names in scope. -/
def flagsFrom (settings : Settings) (scope : Bindings) (f : Function) : List Interface.Flag :=
  (Marker.flags scope settings.registry f).value

/-- The command of a method. -/
def commandFrom (settings : Settings) (scope : Bindings) (f : Function) : Command where
  name := f.name
  help := Docstring.summary settings.convention f.docstring
  args := (arguments settings.convention f
    (settings.registry.attached (flagsFrom settings scope f))).value
  flags := flagsFrom settings scope f

theorem commandOf_eq_ok_iff {settings : Settings} {scope : Bindings} {className : String} {f : Function}
    {command : Command} :
    (commandOf settings scope className f).run.value = .ok command
      ↔ Documented settings f ∧ command = commandFrom settings scope f := by
  rw [commandOf, Attempt.value_bind_eq_ok]
  constructor
  · rintro ⟨flags, hflags, h⟩
    cases hflags
    obtain ⟨args, hargs, h⟩ := Attempt.value_bind_eq_ok.mp h
    obtain ⟨hdocumented, rfl⟩ := checkedArguments_eq_ok_iff.mp hargs
    cases h
    exact ⟨hdocumented, rfl⟩
  · rintro ⟨hdocumented, rfl⟩
    refine ⟨flagsFrom settings scope f, rfl, Attempt.value_bind_eq_ok.mpr ⟨_, ?_, rfl⟩⟩
    exact checkedArguments_eq_ok_iff.mpr ⟨hdocumented, rfl⟩

/-! ## Modules -/

/-- The module with what a method contributes to it. -/
def withMethod (settings : Settings) (scope : Bindings) (m : Module) (f : Function) : Module :=
  if f.name = constructorName then { m with args := (arguments settings.convention f []).value }
  else if isPublic f.name then { m with commands := m.commands ++ [commandFrom settings scope f] }
  else m

theorem addMethod_eq_ok_iff {settings : Settings} {scope : Bindings} {m next : Module} {f : Function} :
    (addMethod settings scope m f).run.value = .ok next
      ↔ (Exposed f.name → Documented settings f) ∧ next = withMethod settings scope m f := by
  unfold addMethod withMethod Exposed
  by_cases hname : f.name = constructorName
  · rw [if_pos hname, if_pos hname, Attempt.value_bind_eq_ok]
    constructor
    · rintro ⟨args, hargs, h⟩
      obtain ⟨hdocumented, rfl⟩ := checkedArguments_eq_ok_iff.mp hargs
      cases h
      exact ⟨fun _ => hdocumented, rfl⟩
    · rintro ⟨hdocumented, rfl⟩
      exact ⟨_, checkedArguments_eq_ok_iff.mpr ⟨hdocumented (Or.inl hname), rfl⟩, rfl⟩
  · rw [if_neg hname, if_neg hname]
    by_cases hpublic : isPublic f.name = true
    · rw [if_pos hpublic, if_pos hpublic, Attempt.value_bind_eq_ok]
      constructor
      · rintro ⟨command, hcommand, h⟩
        obtain ⟨hdocumented, rfl⟩ := commandOf_eq_ok_iff.mp hcommand
        cases h
        exact ⟨fun _ => hdocumented, rfl⟩
      · rintro ⟨hdocumented, rfl⟩
        exact ⟨_, commandOf_eq_ok_iff.mpr ⟨hdocumented (Or.inr hpublic), rfl⟩, rfl⟩
    · rw [if_neg hpublic, if_neg hpublic]
      constructor
      · intro h
        cases h
        exact ⟨fun hexposed => absurd hexposed (not_or.mpr ⟨hname, hpublic⟩), rfl⟩
      · rintro ⟨-, rfl⟩
        rfl

/-- The module of a class. -/
def moduleFrom (settings : Settings) (scope : Bindings) (location : String) (head : ClassHead)
    (body : List Node) : Module :=
  (methods body).values.foldl (withMethod settings scope) (heading settings location head)

/-- Strict mode has nothing to say against a class. -/
def DocumentedClass (settings : Settings) (body : List Node) : Prop :=
  ∀ f ∈ (methods body).values, Exposed f.name → Documented settings f

theorem foldlM_addMethod_eq_ok_iff {settings : Settings} {scope : Bindings} {next : Module}
    (functions : List Function) :
    ∀ m : Module, (functions.foldlM (addMethod settings scope) m).run.value = .ok next
      ↔ (∀ f ∈ functions, Exposed f.name → Documented settings f)
        ∧ next = functions.foldl (withMethod settings scope) m := by
  induction functions with
  | nil =>
    intro m
    constructor
    · intro h
      cases h
      exact ⟨List.forall_mem_nil _, rfl⟩
    · rintro ⟨-, rfl⟩
      rfl
  | cons f rest ih =>
    intro m
    rw [List.foldlM_cons, Attempt.value_bind_eq_ok, List.foldl_cons, List.forall_mem_cons]
    constructor
    · rintro ⟨between, hfirst, hrest⟩
      obtain ⟨hf, rfl⟩ := addMethod_eq_ok_iff.mp hfirst
      obtain ⟨hothers, rfl⟩ := (ih _).mp hrest
      exact ⟨⟨hf, hothers⟩, rfl⟩
    · rintro ⟨⟨hf, hothers⟩, rfl⟩
      exact ⟨_, addMethod_eq_ok_iff.mpr ⟨hf, rfl⟩, (ih _).mpr ⟨hothers, rfl⟩⟩

/-- **Extraction of a class** succeeds exactly if strict mode has nothing to say against it, whatever is
in scope, and gives the module of the class. -/
theorem moduleOf_eq_ok_iff {settings : Settings} {scope : Bindings} {location : String}
    {head : ClassHead} {body : List Node} {m : Module} :
    (moduleOf settings scope location head body).run.value = .ok m
      ↔ DocumentedClass settings body ∧ m = moduleFrom settings scope location head body :=
  foldlM_addMethod_eq_ok_iff _ _

theorem documentedClass_of_not_strict {settings : Settings} (h : settings.strict = false)
    (body : List Node) : DocumentedClass settings body := by
  intro f _ _ hstrict
  rw [h] at hstrict
  cases hstrict

/-! ## Parts of the module -/

/-- Methods change nothing but the arguments and the commands. -/
theorem foldl_withMethod_heading (settings : Settings) (scope : Bindings) (functions : List Function) :
    ∀ m : Module,
      (functions.foldl (withMethod settings scope) m).name = m.name
        ∧ (functions.foldl (withMethod settings scope) m).help = m.help
        ∧ (functions.foldl (withMethod settings scope) m).location = m.location := by
  induction functions with
  | nil =>
    intro m
    exact ⟨rfl, rfl, rfl⟩
  | cons f rest ih =>
    intro m
    have hstep : (withMethod settings scope m f).name = m.name
        ∧ (withMethod settings scope m f).help = m.help
        ∧ (withMethod settings scope m f).location = m.location := by
      unfold withMethod
      split
      · exact ⟨rfl, rfl, rfl⟩
      · split
        · exact ⟨rfl, rfl, rfl⟩
        · exact ⟨rfl, rfl, rfl⟩
    rw [List.foldl_cons]
    obtain ⟨hname, hhelp, hlocation⟩ := ih (withMethod settings scope m f)
    exact ⟨hname.trans hstep.1, hhelp.trans hstep.2.1, hlocation.trans hstep.2.2⟩

theorem isPublic_constructorName : isPublic constructorName = false := by decide

/-- The commands are those of the public methods in order. -/
theorem foldl_withMethod_commands (settings : Settings) (scope : Bindings) (functions : List Function) :
    ∀ m : Module, (functions.foldl (withMethod settings scope) m).commands
      = m.commands ++ (functions.filter (isPublic ·.name)).map (commandFrom settings scope) := by
  induction functions with
  | nil =>
    intro m
    exact (List.append_nil _).symm
  | cons f rest ih =>
    intro m
    rw [List.foldl_cons, ih, withMethod]
    by_cases hpublic : isPublic f.name = true
    · have hname : f.name ≠ constructorName := by
        intro h
        rw [h, isPublic_constructorName] at hpublic
        cases hpublic
      have hfilter : (f :: rest).filter (isPublic ·.name) = f :: rest.filter (isPublic ·.name) :=
        List.filter_cons_of_pos hpublic
      rw [if_neg hname, if_pos hpublic, hfilter, List.map_cons, List.append_assoc,
        List.singleton_append]
    · have hfilter : (f :: rest).filter (isPublic ·.name) = rest.filter (isPublic ·.name) :=
        List.filter_cons_of_neg hpublic
      rw [hfilter, if_neg hpublic]
      split
      · rfl
      · rfl

/-- The arguments are those of the only constructor. -/
theorem foldl_withMethod_args (settings : Settings) (scope : Bindings) :
    ∀ (entries : Entries Function) (m : Module), (∀ entry ∈ entries, entry.2.name = entry.1) →
      (Entries.keys entries).Nodup →
      (entries.values.foldl (withMethod settings scope) m).args
        = ((Entries.get? constructorName entries).map fun f =>
            (arguments settings.convention f []).value).getD m.args
  | [], _, _, _ => rfl
  | (key, f) :: rest, m, hnamed, hnodup => by
    have hname : f.name = key := hnamed _ List.mem_cons_self
    have hrest := fun entry h => hnamed entry (List.mem_cons_of_mem (key, f) h)
    rw [Entries.keys, List.map_cons, List.nodup_cons] at hnodup
    show ((Entries.values rest).foldl (withMethod settings scope)
      (withMethod settings scope m f)).args = _
    rw [foldl_withMethod_args settings scope rest _ hrest hnodup.2, Entries.get?]
    by_cases hkey : key = constructorName
    · -- no later method is called like the constructor
      have hnone : Entries.get? constructorName rest = none := Entries.get?_eq_none (hkey ▸ hnodup.1)
      rw [hnone, if_pos hkey, withMethod, if_pos (hname.trans hkey)]
      rfl
    · have hsame : (withMethod settings scope m f).args = m.args := by
        rw [withMethod, if_neg fun h => hkey (hname.symm.trans h)]
        split
        · rfl
        · rfl
      rw [if_neg hkey, hsame]

section Parts

variable (settings : Settings) (scope : Bindings) (location : String) (head : ClassHead)
  (body : List Node)

/-- The last function of a class body with a certain name. -/
def lastFunction? (name : String) : Option Function :=
  (bodyFunctions body).findRev? (·.name == name)

/-- The names of the public functions of a class body, in the order in which they come first. -/
def publicNames : List String := ((bodyFunctions body).map (·.name)).eraseDups.filter isPublic

/-- **A class has a command for each public name**, in the order of their first definitions. -/
theorem map_name_commands_moduleFrom :
    (moduleFrom settings scope location head body).commands.map (·.name) = publicNames body := by
  have hvalues := Entries.map_values_collect (fun f : Function => f.name) (bodyFunctions body)
  rw [moduleFrom, foldl_withMethod_commands, methods_eq, publicNames, ← hvalues, List.filter_map]
  show List.map _ ([] ++ _) = _
  rw [List.nil_append, List.map_map]
  rfl

/-- **A command is built from the last definition of its name.** -/
theorem command_of_mem_moduleFrom :
    ∀ command ∈ (moduleFrom settings scope location head body).commands,
      ∃ f, lastFunction? body command.name = some f ∧ command = commandFrom settings scope f := by
  intro command h
  rw [moduleFrom, foldl_withMethod_commands, methods_eq] at h
  obtain ⟨f, hf, rfl⟩ := List.mem_map.mp h
  have hmem := (List.mem_filter.mp hf).1
  exact ⟨f, Entries.findRev?_of_mem_collect (fun f : Function => f.name) hmem, rfl⟩

/-- **The arguments of a module are those of the last constructor.** -/
theorem args_moduleFrom :
    (moduleFrom settings scope location head body).args
      = ((lastFunction? body constructorName).map fun f =>
          (arguments settings.convention f []).value).getD [] := by
  have hnamed := Entries.name_of_mem_collect (fun f : Function => f.name) (bodyFunctions body)
  have hnodup := Entries.nodup_keys_collect (fun f : Function => f.name) (bodyFunctions body)
  rw [moduleFrom, methods_eq, foldl_withMethod_args settings scope _ _ hnamed hnodup,
    Entries.get?_collect]
  rfl

end Parts

/-- **Arguments are those of methods**: what holds of no arguments and of the arguments of every method
holds of those of the module and of its commands. -/
theorem each_arguments_of_moduleOf {settings : Settings} {scope : Bindings} {location : String}
    {head : ClassHead} {body : List Node} {m : Module} {P : List Argument → Prop} (hnil : P [])
    (hmethods : ∀ f ∈ (methods body).values, ∀ attached,
      P (arguments settings.convention f attached).value)
    (h : (moduleOf settings scope location head body).run.value = .ok m) :
    P m.args ∧ ∀ command ∈ m.commands, P command.args := by
  obtain ⟨-, rfl⟩ := moduleOf_eq_ok_iff.mp h
  constructor
  · rw [args_moduleFrom, lastFunction?, ← Entries.get?_collect, ← methods_eq]
    cases hlast : Entries.get? constructorName (methods body) with
    | none => exact hnil
    | some f =>
      have hmem := Entries.mem_of_get?_eq_some hlast
      exact hmethods f (List.mem_map.mpr ⟨_, hmem, rfl⟩) []
  · intro command hcommand
    rw [moduleFrom, foldl_withMethod_commands] at hcommand
    obtain ⟨f, hf, rfl⟩ := List.mem_map.mp hcommand
    exact hmethods f (List.mem_filter.mp hf).1 _

end ClassCli.Extraction
