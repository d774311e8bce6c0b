import Mathlib.Data.List.Forall2
import ClassCli.Proofs.Attempt
import ClassCli.Proofs.Extraction.Methods
import ClassCli.Proofs.Extraction.Signature
import ClassCli.Proofs.Marker.LineEnds
import ClassCli.Proofs.Outline.DocstringLineEnds

/-!
# Functions that extraction does not tell apart

Of a parameter extraction sees the name, the typing and the value of the default, of a decorator what it
gives to markers, and of a docstring the tidied lines. Functions in which these are the same make the same
arguments and commands, and fail alike where the documentation is missing.

* **`SameFunction`** — functions that extraction does not tell apart.
* **`SameFunction.arguments_eq`**, **`SameFunction.commandOf_eq`** — they make the same arguments and commands.
* **`moduleOf_eq_of_same`** — classes of such functions make the same module.
-/

namespace ClassCli.Extraction

open Docstring (Convention)
open Interface (Argument Command Kind Module Multiplicity)
open Marker (Bindings SameDecorator)
open Outline (ClassHead Expr Function Node Param SameDocs)

/-! ## What is seen of a parameter -/

/-- The name and the typing of a parameter. -/
def shown (param : Param) : String × (Option Kind × Option Multiplicity) :=
  (param.name, (param.typeHint.map typing).getD (none, none))

/-- The name and the typing of a parameter, with the value of its default. -/
def shownDefault :
    Param × Option Expr → (String × (Option Kind × Option Multiplicity)) × Option (Option Literal) :=
  Prod.map shown (Option.map Expr.literal?)

/-- The argument of a parameter of which this is seen. -/
def argumentShown (help : Entries String)
    (seen : (String × (Option Kind × Option Multiplicity)) × Option (Option Literal)) : Argument :=
  { Argument.ofParameter seen.1.1 with
    kind := seen.1.2.1, multiplicity := seen.1.2.2, default := seen.2.join
    help := (Entries.get? seen.1.1 help).getD Docstring.noDocumentation }

theorem value_argument (method : String) (help : Entries String) (entry : Param × Option Expr) :
    (argument method help entry.1 entry.2).value = argumentShown help (shownDefault entry) := by
  obtain ⟨param, default⟩ := entry
  have hvalue : (default.map Expr.literal?).join = (defaultOf method param.name default).value := by
    rw [value_defaultOf]
    cases default with
    | none => rfl
    | some x => rfl
  unfold argument argumentShown
  dsimp only [shownDefault, Prod.map, shown]
  rw [hvalue]
  rfl

theorem map_alignRight {α β : Type} (g : α → β) (places : Nat) (values : List α) :
    (alignRight places values).map (Option.map g) = alignRight places (values.map g) := by
  rw [alignRight, List.map_append, List.map_replicate, List.map_take, List.map_map, alignRight, List.length_map,
    List.map_map]
  rfl

theorem map_defaulted (f : Function) :
    (defaulted f).map shownDefault
      = ((f.parameters.args.map shown).zip
          (alignRight f.parameters.args.length (f.parameters.defaults.map Expr.literal?))).drop f.receiverCount
        ++ (f.parameters.keywordOnly.map shown).zip
          (f.parameters.keywordDefaults.map (Option.map Expr.literal?)) := by
  rw [defaulted, List.map_append, List.map_drop, ← map_alignRight, List.zip_map, List.zip_map]
  rfl

/-! ## Functions -/

/-- Functions that extraction does not tell apart. -/
structure SameFunction (f f' : Function) : Prop where
  name : f'.name = f.name
  args : f'.parameters.args.map shown = f.parameters.args.map shown
  defaults : f'.parameters.defaults.map Expr.literal? = f.parameters.defaults.map Expr.literal?
  keywordOnly : f'.parameters.keywordOnly.map shown = f.parameters.keywordOnly.map shown
  keywordDefaults : f'.parameters.keywordDefaults.map (Option.map Expr.literal?)
    = f.parameters.keywordDefaults.map (Option.map Expr.literal?)
  isStatic : f'.isStatic = f.isStatic
  docstring : SameDocs f.docstring f'.docstring
  decorators : List.Forall₂ SameDecorator f.decorators f'.decorators

namespace SameFunction

variable {f f' : Function} (h : SameFunction f f')
include h

theorem length_args : f'.parameters.args.length = f.parameters.args.length := by
  have hlength := congrArg List.length h.args
  rwa [List.length_map, List.length_map] at hlength

theorem receiverCount : f'.receiverCount = f.receiverCount := by
  have hempty : f'.parameters.args.isEmpty = f.parameters.args.isEmpty := by
    rw [← List.isEmpty_map (f := shown), h.args, List.isEmpty_map]
  rw [Function.receiverCount, h.isStatic, hempty, Function.receiverCount]

theorem map_defaulted : (defaulted f').map shownDefault = (defaulted f).map shownDefault := by
  rw [Extraction.map_defaulted, h.args, h.length_args, h.defaults, h.receiverCount, h.keywordOnly,
    h.keywordDefaults, ← Extraction.map_defaulted]

theorem explicitParams : f'.explicitParams.map shown = f.explicitParams.map shown := by
  rw [Function.explicitParams, Function.positional, h.receiverCount, List.map_append, List.map_drop, h.args,
    h.keywordOnly, ← List.map_drop, ← List.map_append]
  rfl

theorem names : f'.explicitParams.map (·.name) = f.explicitParams.map (·.name) := by
  have hnames := congrArg (List.map Prod.fst) h.explicitParams
  rwa [List.map_map, List.map_map] at hnames

theorem summary_eq (convention : Convention) :
    Docstring.summary convention f'.docstring = Docstring.summary convention f.docstring :=
  h.docstring.summary_eq convention

theorem argumentHelp_eq (convention : Convention) :
    Docstring.argumentHelp convention f' = Docstring.argumentHelp convention f := by
  unfold Docstring.argumentHelp
  rw [h.names]
  have hdocs := h.docstring
  generalize f.docstring = doc, f'.docstring = doc' at hdocs
  cases hdocs with
  | none => rfl
  | some hlines =>
    dsimp only
    rw [Convention.documentedArgs_eq hlines]

/-- **The arguments of functions that are not told apart** are the same. -/
theorem arguments_eq (convention : Convention) (attached : List String) :
    (arguments convention f' attached).value = (arguments convention f attached).value := by
  have hshown (f : Function) (help : Entries String) :
      ((defaulted f).filter fun entry => !attached.contains entry.1.name).map
          (fun entry => (argument f.name help entry.1 entry.2).value)
        = (((defaulted f).map shownDefault).filter fun seen => !attached.contains seen.1.1).map
            (argumentShown help) := by
    rw [List.filter_map, List.map_map]
    exact List.map_congr_left fun entry _ => value_argument f.name help entry
  rw [value_arguments, value_arguments, hshown, hshown, h.map_defaulted, h.argumentHelp_eq]

theorem lacksDocstring_eq : lacksDocstring f' = lacksDocstring f := by
  have hnone : f'.docstring.isNone = f.docstring.isNone := by
    have hdocs := h.docstring
    generalize f.docstring = doc, f'.docstring = doc' at hdocs
    cases hdocs with
    | none => rfl
    | some _ => rfl
  rw [lacksDocstring, hnone, ← List.isEmpty_map (f := shown), h.explicitParams, List.isEmpty_map, lacksDocstring]

variable (settings : Settings) (className : String)

theorem checkedArguments_eq (attached : List String) :
    (checkedArguments settings className f' attached).run.value
      = (checkedArguments settings className f attached).run.value := by
  have hvalue : (Attempt.ofNoted (arguments settings.convention f' attached)).run.value
      = (Attempt.ofNoted (arguments settings.convention f attached)).run.value :=
    congrArg Except.ok (h.arguments_eq settings.convention attached)
  unfold checkedArguments
  rw [h.lacksDocstring_eq, h.name]
  split
  · rfl
  · exact hvalue

/-- **The commands of functions that are not told apart** are the same, with carriage returns in the names in
scope and without. -/
theorem commandOf_eq (hregistry : settings.registry.Plain) (scope : Bindings) :
    (commandOf settings scope.returned className f').run.value
      = (commandOf settings scope className f).run.value := by
  have hflags : (Attempt.ofNoted (Marker.flags scope.returned settings.registry f')).run.value
      = (Attempt.ofNoted (Marker.flags scope settings.registry f)).run.value :=
    congrArg Except.ok (Marker.value_flags_returned hregistry h.decorators)
  unfold commandOf
  rw [Attempt.value_bind, Attempt.value_bind, hflags]
  congr 1
  funext flags
  rw [Attempt.value_bind, Attempt.value_bind, h.checkedArguments_eq, h.summary_eq, h.name]

end SameFunction

/-! ## Classes -/

/-- Functions of one name that extraction does not tell apart, if it looks at them at all. -/
structure SameMethod (f f' : Function) : Prop where
  name : f'.name = f.name
  same : Exposed f.name → SameFunction f f'

variable {settings : Settings} (hregistry : settings.registry.Plain) (scope : Bindings)
include hregistry

theorem addMethod_eq_of_same {f f' : Function} (h : SameMethod f f') (m : Module) :
    (addMethod settings scope.returned m f').run.value = (addMethod settings scope m f).run.value := by
  unfold addMethod
  rw [h.name]
  split
  · rename_i hname
    rw [Attempt.value_bind, Attempt.value_bind, (h.same (Or.inl hname)).checkedArguments_eq]
  · split
    · rename_i hpublic
      rw [Attempt.value_bind, Attempt.value_bind, (h.same (Or.inr hpublic)).commandOf_eq _ _ hregistry]
    · rfl

theorem foldlM_addMethod_eq_of_same {functions functions' : List Function}
    (h : List.Forall₂ SameMethod functions functions') (m : Module) :
    (functions'.foldlM (addMethod settings scope.returned) m).run.value
      = (functions.foldlM (addMethod settings scope) m).run.value := by
  induction h generalizing m with
  | nil => rfl
  | cons hf _ ih =>
    rw [List.foldlM_cons, List.foldlM_cons, Attempt.value_bind, Attempt.value_bind,
      addMethod_eq_of_same hregistry scope hf]
    congr 1
    funext next
    exact ih next

/-- **Classes of functions that are not told apart** make the same module, or fail alike. -/
theorem moduleOf_eq_of_same {head head' : ClassHead} {body body' : List Node} (hname : head'.name = head.name)
    (hdocs : SameDocs head.docstring head'.docstring)
    (hmethods : List.Forall₂ SameMethod (methods body).values (methods body').values) (location : String) :
    (moduleOf settings scope.returned location head' body').run.value
      = (moduleOf settings scope location head body).run.value := by
  have hheading : heading settings location head' = heading settings location head := by
    unfold heading
    rw [hname, hdocs.isSome_eq, hdocs.summary_eq]
  rw [moduleOf, moduleOf, hheading]
  exact foldlM_addMethod_eq_of_same hregistry scope hmethods _

end ClassCli.Extraction
