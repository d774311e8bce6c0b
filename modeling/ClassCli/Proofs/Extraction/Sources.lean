import Mathlib.Data.List.Nodup
import ClassCli.Outline.Lowering
import ClassCli.Proofs.Extraction.Structure

/-!
# Collections of source texts

A collection is extracted from source texts, one after the other. Its modules are those of the classes
in them that do not stand inside another class, so that what holds of the module of every such class holds
of every module.

Every argument of a method or a constructor is stored under the name of a parameter, and different
parameters give different arguments. Typed on the command line a name has hyphens for its underscores,
which keeps names apart that have no hyphens of their own.

* **`extractSources`** — the collection of several source texts.
* **`classesOf`** — the classes that extraction visits.
* **`each_of_extractSources`** — from the classes of all texts to the modules of the collection.
* **`each_arguments_of_extractSources`** — from the methods of all texts to the arguments.
* **`ProperParams`** — what is asked of the parameters of a function.
* **`Tidy`**, **`tidy_of_extractSources`** — what follows for the arguments of every extracted module.
-/

namespace ClassCli.Extraction

open Docstring (Convention)
open Interface (Argument Collection Module)
open Marker (Bindings)
open Outline (ClassHead Function Node classesIn)

/-- A source text and where it was read from. -/
structure SourceFile where
  location : String
  text : String
  deriving DecidableEq, Repr, Inhabited

/-- The collection with the modules of one more source text. -/
def extractSource (settings : Settings) (collection : Collection) (file : SourceFile) :
    Attempt Collection :=
  match Outline.outline? file.text with
  | .ok outline => extract settings collection outline file.location
  | .error line => .fail (.malformedSource file.location line)

/-- The collection of several source texts. -/
def extractSources (settings : Settings) (files : List SourceFile) : Attempt Collection :=
  files.foldlM (extractSource settings) {}

/-! ## Classes -/

mutual

/-- The classes that extraction visits in a statement. -/
def classesOf : Node → List (ClassHead × List Node)
  | .classDef head body => [(head, body)]
  | .functionDef _ body => classesOfAll body
  | .compound body => classesOfAll body
  | _ => []

/-- The classes that extraction visits in statements. -/
def classesOfAll : List Node → List (ClassHead × List Node)
  | [] => []
  | node :: rest => classesOf node ++ classesOfAll rest

end

/-- The methods of all classes that extraction visits in a source text. -/
def methodsIn (file : SourceFile) : List Function :=
  match Outline.outline? file.text with
  | .ok outline => (classesOfAll outline).flatMap fun (_, body) => (methods body).values
  | .error _ => []

/-- The classes that extraction visits are those that do not stand inside another class. -/
theorem map_classesIn (nodes : List Node) :
    ∀ around before : List Node, around.any Node.isClass = false →
      (classesIn around before nodes).map (fun c => (c.head, c.body)) = classesOfAll nodes := by
  induction nodes using Node.block_induction with
  | nil =>
    intro around before _
    rfl
  | cons node rest hblock hrest =>
    intro around before h
    have hothers := hrest around (before ++ [node]) h
    rw [classesOfAll, ← hothers]
    cases hnode : node.isClass with
    | true =>
      obtain ⟨head, body, rfl⟩ : ∃ head body, node = .classDef head body := by
        cases node with
        | classDef head body => exact ⟨head, body, rfl⟩
        | _ => cases hnode
      rw [Outline.classesIn_classDef h]
      rfl
    | false =>
      have hblocks : classesOf node = classesOfAll node.block := by
        cases node with
        | classDef => cases hnode
        | _ => rfl
      rw [Outline.classesIn_cons hnode, List.map_append, hblocks,
        hblock _ before (Outline.any_isClass_concat h hnode)]

variable {settings : Settings} {location : String} {P : Module → Prop}

/-- What holds of the module of every class that is visited holds of everything that is found. -/
theorem each_of_modulesOfAll {nodes : List Node} {scope after : Bindings} {found : List Module}
    (hclass : ∀ entry ∈ classesOfAll nodes, ∀ scope m,
      (moduleOf settings scope location entry.1 entry.2).run.value = .ok m → P m)
    (h : (modulesOfAll settings location scope nodes).run.value = .ok (found, after)) :
    ∀ m ∈ found, P m := by
  obtain ⟨hdocumented, hresult⟩ := (modulesOfAll_eq_ok_iff nodes [] [] (found, after) rfl).mp h
  cases hresult
  intro m hm
  obtain ⟨c, hc, rfl⟩ := List.mem_map.mp hm
  have hentry : (c.head, c.body) ∈ classesOfAll nodes := by
    rw [← map_classesIn nodes [] [] rfl]
    exact List.mem_map_of_mem hc
  exact hclass _ hentry _ _ (moduleOf_eq_ok_iff.mpr ⟨hdocumented c hc, rfl⟩)

/-- **From classes to modules**: what holds of the module of every class in the texts holds of every module
of the collection. -/
theorem each_of_extractSources {files : List SourceFile} {collection : Collection}
    (hclass : ∀ file ∈ files, ∀ outline, Outline.outline? file.text = .ok outline →
      ∀ entry ∈ classesOfAll outline, ∀ scope m,
        (moduleOf settings scope file.location entry.1 entry.2).run.value = .ok m → P m)
    (h : (extractSources settings files).run.value = .ok collection) :
    ∀ m ∈ collection.modules, P m := by
  refine Attempt.foldlM_keeps (P := fun c : Collection => ∀ m ∈ c.modules, P m) ?_
    (List.forall_mem_nil _) h
  intro file hfile before after hbefore hstep
  unfold extractSource at hstep
  split at hstep
  · rename_i outline houtline
    obtain ⟨⟨found, scope⟩, hfound, hstep⟩ := Attempt.value_bind_eq_ok.mp hstep
    cases hstep
    intro m hm
    rcases List.mem_append.mp hm with hm | hm
    · exact hbefore m hm
    · exact each_of_modulesOfAll (hclass file hfile outline houtline) hfound m hm
  · cases hstep

/-- **From methods to modules**: what holds of no arguments and of the arguments of every method in the
texts holds of all arguments in the collection. -/
theorem each_arguments_of_extractSources {files : List SourceFile} {collection : Collection}
    {P : List Argument → Prop} (hnil : P [])
    (hmethods : ∀ file ∈ files, ∀ f ∈ methodsIn file, ∀ attached,
      P (arguments settings.convention f attached).value)
    (h : (extractSources settings files).run.value = .ok collection) :
    ∀ m ∈ collection.modules, P m.args ∧ ∀ command ∈ m.commands, P command.args := by
  refine each_of_extractSources ?_ h
  intro file hfile outline houtline entry hentry scope m hm
  refine each_arguments_of_moduleOf hnil ?_ hm
  intro f hf
  apply hmethods file hfile f
  rw [methodsIn, houtline]
  exact List.mem_flatMap.mpr ⟨entry, hentry, hf⟩

/-! ## Arguments are named after parameters -/

/-- The parameters that a caller passes have different names, and no name has a hyphen. -/
structure ProperParams (f : Function) : Prop where
  distinct : (f.explicitParams.map (·.name)).Nodup
  noHyphen : ∀ param ∈ f.explicitParams, '-' ∉ param.name.toList

instance (f : Function) : Decidable (ProperParams f) :=
  decidable_of_iff ((f.explicitParams.map (·.name)).Nodup
      ∧ ∀ param ∈ f.explicitParams, '-' ∉ param.name.toList)
    ⟨fun h => ⟨h.1, h.2⟩, fun h => ⟨h.distinct, h.noHyphen⟩⟩

/-- Arguments with different destinations without hyphens, each typed as its destination with hyphens for
underscores. -/
structure Tidy (args : List Argument) : Prop where
  distinct : (args.map (·.destination)).Nodup
  noHyphen : ∀ arg ∈ args, '-' ∉ arg.destination.toList
  name : ∀ arg ∈ args, arg.name = Text.replaceIn '_' '-' arg.destination

theorem tidy_nil : Tidy [] :=
  ⟨List.nodup_nil, List.forall_mem_nil _, List.forall_mem_nil _⟩

/-! ## Names that are typed -/

theorem replaceChar_inj {old new : Char} {a b : List Char} (ha : new ∉ a) (hb : new ∉ b) :
    Text.replaceChar old new a = Text.replaceChar old new b ↔ a = b := by
  refine ⟨?_, congrArg _⟩
  induction a generalizing b with
  | nil =>
    intro h
    cases b with
    | nil => rfl
    | cons d b => cases h
  | cons c a ih =>
    intro h
    cases b with
    | nil => cases h
    | cons d b =>
      rw [List.mem_cons, not_or] at ha hb
      simp only [Text.replaceChar, List.map_cons, List.cons.injEq] at h
      -- the new character stands only where the old one was, because neither text holds it
      have hfirst : c = d := by
        by_cases hc : c = old
        · by_cases hd : d = old
          · exact hc.trans hd.symm
          · rw [if_pos hc, if_neg hd] at h
            exact absurd h.1 hb.1
        · by_cases hd : d = old
          · rw [if_neg hc, if_pos hd] at h
            exact absurd h.1.symm ha.1
          · rw [if_neg hc, if_neg hd] at h
            exact h.1
      rw [hfirst, ih ha.2 hb.2 h.2]

/-- Names without hyphens stay apart when their underscores become hyphens. -/
theorem typed_inj {a b : String} (ha : '-' ∉ a.toList) (hb : '-' ∉ b.toList) :
    Text.replaceIn '_' '-' a = Text.replaceIn '_' '-' b ↔ a = b := by
  rw [Text.replaceIn, Text.replaceIn, String.ofList_inj, replaceChar_inj ha hb, String.toList_inj]

/-! ## The arguments of a function -/

theorem length_alignRight {α : Type} (places : Nat) (values : List α) :
    (alignRight places values).length = places := by
  rw [alignRight, List.length_append, List.length_replicate, List.length_take, List.length_map]
  omega

theorem map_fst_zip_sublist {α β : Type} :
    ∀ (xs : List α) (ys : List β), ((xs.zip ys).map Prod.fst).Sublist xs
  | [], _ => List.Sublist.refl _
  | _ :: _, [] => List.nil_sublist _
  | x :: xs, _ :: ys => (map_fst_zip_sublist xs ys).cons_cons x

theorem map_fst_zip_alignRight (f : Function) :
    ((f.parameters.args.zip (alignRight f.parameters.args.length f.parameters.defaults)).drop
      f.receiverCount).map Prod.fst = f.positional := by
  rw [List.map_drop, List.map_fst_zip (Nat.le_of_eq (length_alignRight _ _).symm)]
  rfl

/-- The parameters that get an argument are among those that a caller passes. -/
theorem defaulted_sublist (f : Function) :
    ((defaulted f).map Prod.fst).Sublist f.explicitParams := by
  rw [defaulted, List.map_append, map_fst_zip_alignRight, Function.explicitParams]
  exact List.Sublist.append_left (map_fst_zip_sublist _ _) _

/-- They are all of these if each keyword-only parameter has its place among the defaults. -/
theorem map_fst_defaulted {f : Function}
    (h : f.parameters.keywordOnly.length ≤ f.parameters.keywordDefaults.length) :
    (defaulted f).map Prod.fst = f.explicitParams := by
  rw [defaulted, List.map_append, map_fst_zip_alignRight, List.map_fst_zip h, Function.explicitParams]

/-- There is an argument for each parameter that is not filled in otherwise. -/
theorem value_arguments (convention : Convention) (f : Function) (attached : List String) :
    (arguments convention f attached).value
      = ((defaulted f).filter fun entry => !attached.contains entry.1.name).map fun entry =>
          (argument f.name (Docstring.argumentHelp convention f) entry.1 entry.2).value :=
  Noted.value_mapM _ _

/-- **The arguments of a function** are those of its parameters that are not filled in otherwise. -/
theorem map_destination_arguments {f : Function}
    (h : f.parameters.keywordOnly.length ≤ f.parameters.keywordDefaults.length) (convention : Convention)
    (attached : List String) :
    (arguments convention f attached).value.map (·.destination)
      = (f.explicitParams.map (·.name)).filter fun name => !attached.contains name := by
  rw [value_arguments, ← map_fst_defaulted h, List.map_map, List.map_map, List.filter_map]
  rfl

/-- Every argument is stored under the name of a parameter. -/
theorem exists_param_of_mem_arguments {convention : Convention} {f : Function} {attached : List String}
    {arg : Argument} (h : arg ∈ (arguments convention f attached).value) :
    ∃ param ∈ f.explicitParams, arg.destination = param.name := by
  rw [value_arguments] at h
  obtain ⟨entry, hentry, rfl⟩ := List.mem_map.mp h
  have hmem : entry.1 ∈ (defaulted f).map Prod.fst :=
    List.mem_map_of_mem (List.mem_filter.mp hentry).1
  exact ⟨entry.1, (defaulted_sublist f).mem hmem, rfl⟩

/-- **The arguments of a function with proper parameters are tidy.** -/
theorem tidy_arguments {f : Function} (h : ProperParams f) (convention : Convention)
    (attached : List String) : Tidy (arguments convention f attached).value := by
  have hsub : (((defaulted f).filter fun entry => !attached.contains entry.1.name).map Prod.fst).Sublist
      f.explicitParams :=
    (List.filter_sublist.map Prod.fst).trans (defaulted_sublist f)
  rw [value_arguments]
  refine ⟨?_, ?_, ?_⟩
  · have hnames := h.distinct.sublist (hsub.map (·.name))
    rw [List.map_map] at hnames ⊢
    exact hnames
  · intro arg harg
    obtain ⟨entry, hentry, rfl⟩ := List.mem_map.mp harg
    exact h.noHyphen entry.1 (hsub.mem (List.mem_map_of_mem hentry))
  · intro arg harg
    obtain ⟨entry, -, rfl⟩ := List.mem_map.mp harg
    rfl

/-! ## Modules -/

/-- Whether the arguments of a module and of its commands are tidy. -/
structure TidyModule (m : Module) : Prop where
  constructor : Tidy m.args
  command : ∀ command ∈ m.commands, Tidy command.args

/-- **Extracted modules are tidy** if the methods of all classes in the texts have proper parameters. -/
theorem tidy_of_extractSources {settings : Settings} {files : List SourceFile}
    {collection : Interface.Collection}
    (hparams : ∀ file ∈ files, ∀ f ∈ methodsIn file, ProperParams f)
    (h : (extractSources settings files).run.value = .ok collection) :
    ∀ m ∈ collection.modules, TidyModule m := by
  have htidy := each_arguments_of_extractSources tidy_nil
    (fun file hfile f hf => tidy_arguments (hparams file hfile f hf) settings.convention) h
  intro m hm
  obtain ⟨hargs, hcommands⟩ := htidy m hm
  exact ⟨hargs, hcommands⟩

end ClassCli.Extraction
