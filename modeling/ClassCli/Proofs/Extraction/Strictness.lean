import ClassCli.Extraction.Extractor
import ClassCli.Proofs.Extraction.Structure

/-!
# Strict mode and extractors

Strict mode looks at the constructor and the public methods of every class while its module is built, and
stops at the first one that has parameters and no docstring. It only chooses between stopping and going
on: what is found without stopping is what is found without strict mode.

Reading an outline adds its modules to those that are there, or nothing if it fails, and neither the
modules that are there nor the names of earlier outlines have a say in it. So after any sequence of
outlines there is what each of them gives on its own.

* **`exposedFunctions`** — the functions that strict mode looks at.
* **`FirstUndocumented`** — the class and the function at which it stops.
* **`modulesOfAll_error`** — a walk stops at the first class that is not documented.
* **`extract_strict`** — strict mode stops there or changes nothing.
* **`Extractor.reading_eq`** — one reading extends the collection or leaves the extractor as it is.
* **`Extractor.readEach`** — outlines are read one after the other, whatever becomes of each.
* **`Extractor.readings_accumulate`** — what is there after all of them.
-/

namespace ClassCli.Extraction

open Interface (Collection Module)
open Marker (Bindings)
open Outline (ClassHead ClassPlace Function Node bodyFunctions classesIn outerClasses)

variable {settings : Settings} {location : String}

/-! ## What is looked at -/

/-- Whether functions of a certain name are looked at: the constructor and the public methods are. -/
def isExposed (name : String) : Bool := name == constructorName || isPublic name

theorem isExposed_iff {name : String} : isExposed name = true ↔ Exposed name := by
  rw [isExposed, Bool.or_eq_true, beq_iff_eq, Exposed]

/-- The constructor and the public methods of a class, in the order of their first definitions, each as it
was defined last. -/
def exposedFunctions (body : List Node) : List Function :=
  (((bodyFunctions body).map (·.name)).eraseDups.filter isExposed).filterMap (lastFunction? body)

/-- They are the methods that are looked at. -/
theorem exposedFunctions_eq (body : List Node) :
    exposedFunctions body = (methods body).values.filter (isExposed ·.name) := by
  have hlast : ∀ f ∈ (methods body).values, lastFunction? body f.name = some f := by
    rw [methods_eq]
    exact fun f hf => Entries.findRev?_of_mem_collect (fun f : Function => f.name) hf
  have hnames := Entries.map_values_collect (fun f : Function => f.name) (bodyFunctions body)
  rw [exposedFunctions, ← hnames, ← methods_eq, List.filter_map, List.filterMap_map]
  calc ((methods body).values.filter (isExposed ·.name)).filterMap (lastFunction? body ∘ (·.name))
    _ = ((methods body).values.filter (isExposed ·.name)).filterMap some :=
        List.filterMap_congr fun f hf => hlast f (List.mem_filter.mp hf).1
    _ = (methods body).values.filter (isExposed ·.name) := List.filterMap_some

theorem documentedClass_iff (h : settings.strict = true) (body : List Node) :
    DocumentedClass settings body ↔ ∀ f ∈ exposedFunctions body, lacksDocstring f = false := by
  rw [exposedFunctions_eq, DocumentedClass]
  constructor
  · intro hdocumented f hf
    obtain ⟨hmem, hexposed⟩ := List.mem_filter.mp hf
    exact hdocumented f hmem (isExposed_iff.mp hexposed) h
  · intro hdocumented f hmem hexposed _
    exact hdocumented f (List.mem_filter.mpr ⟨hmem, isExposed_iff.mpr hexposed⟩)

/-! ## Where a class stops -/

/-- The fault of a function that has parameters and no docstring. -/
def missingIn (className : String) (f : Function) : Fault := .missingDocumentation className f.name

theorem checkedArguments_error {className : String} {f : Function} {attached : List String}
    {fault : Fault} (h : (checkedArguments settings className f attached).run.value = .error fault) :
    lacksDocstring f = true ∧ fault = missingIn className f := by
  unfold checkedArguments at h
  split at h
  · rename_i hlacks
    rw [Bool.and_eq_true] at hlacks
    cases h
    exact ⟨hlacks.2, rfl⟩
  · cases h

theorem commandOf_error {scope : Bindings} {className : String} {f : Function} {fault : Fault}
    (h : (commandOf settings scope className f).run.value = .error fault) :
    lacksDocstring f = true ∧ fault = missingIn className f := by
  rcases Attempt.value_bind_eq_error.mp h with h | ⟨flags, -, h⟩
  · cases h
  · rcases Attempt.value_bind_eq_error.mp h with h | ⟨args, -, h⟩
    · exact checkedArguments_error h
    · cases h

/-- A method can only fail if it is looked at and has no docstring. -/
theorem addMethod_error {scope : Bindings} {m : Module} {f : Function} {fault : Fault}
    (h : (addMethod settings scope m f).run.value = .error fault) :
    isExposed f.name = true ∧ lacksDocstring f = true ∧ fault = missingIn m.name f := by
  unfold addMethod at h
  split at h
  · rename_i hname
    rcases Attempt.value_bind_eq_error.mp h with h | ⟨args, -, h⟩
    · exact ⟨isExposed_iff.mpr (Or.inl hname), checkedArguments_error h⟩
    · cases h
  · split at h
    · rename_i hpublic
      rcases Attempt.value_bind_eq_error.mp h with h | ⟨command, -, h⟩
      · exact ⟨isExposed_iff.mpr (Or.inr hpublic), commandOf_error h⟩
      · cases h
    · cases h

/-- The methods of a class stop at the first one that is looked at and has no docstring. -/
theorem foldlM_addMethod_error (hstrict : settings.strict = true) {scope : Bindings} {fault : Fault}
    (functions : List Function) :
    ∀ m : Module, (functions.foldlM (addMethod settings scope) m).run.value = .error fault →
      ∃ f, (functions.filter (isExposed ·.name)).find? lacksDocstring = some f
        ∧ fault = missingIn m.name f := by
  induction functions with
  | nil =>
    intro m h
    cases h
  | cons f rest ih =>
    intro m h
    rw [List.foldlM_cons] at h
    rcases Attempt.value_bind_eq_error.mp h with hfirst | ⟨next, hfirst, hrest⟩
    · obtain ⟨hexposed, hlacks, hfault⟩ := addMethod_error hfirst
      have hfilter : (f :: rest).filter (isExposed ·.name) = f :: rest.filter (isExposed ·.name) :=
        List.filter_cons_of_pos hexposed
      refine ⟨f, ?_, hfault⟩
      rw [hfilter, List.find?_cons_of_pos hlacks]
    · -- the method itself passed, so that the search goes on behind it
      obtain ⟨hdocumented, rfl⟩ := addMethod_eq_ok_iff.mp hfirst
      obtain ⟨g, hg, hfault⟩ := ih _ hrest
      have hname : (withMethod settings scope m f).name = m.name :=
        (foldl_withMethod_heading settings scope [f] m).1
      rw [hname] at hfault
      refine ⟨g, ?_, hfault⟩
      by_cases hexposed : isExposed f.name = true
      · have hfilter : (f :: rest).filter (isExposed ·.name) = f :: rest.filter (isExposed ·.name) :=
          List.filter_cons_of_pos hexposed
        have hpasses : ¬lacksDocstring f = true := by
          rw [hdocumented (isExposed_iff.mp hexposed) hstrict]
          exact Bool.false_ne_true
        rw [hfilter, List.find?_cons_of_neg hpasses, hg]
      · have hfilter : (f :: rest).filter (isExposed ·.name) = rest.filter (isExposed ·.name) :=
          List.filter_cons_of_neg hexposed
        rw [hfilter, hg]

/-- The fault of a class in strict mode. -/
def classFault? (c : ClassPlace) : Option Fault :=
  ((exposedFunctions c.body).find? lacksDocstring).map (missingIn c.head.name)

theorem moduleOf_error (hstrict : settings.strict = true) {scope : Bindings} {before body : List Node}
    {head : ClassHead} {fault : Fault}
    (h : (moduleOf settings scope location head body).run.value = .error fault) :
    classFault? ⟨before, head, body⟩ = some fault := by
  obtain ⟨f, hf, rfl⟩ := foldlM_addMethod_error hstrict _ _ h
  rw [classFault?, exposedFunctions_eq, hf]
  rfl

theorem classFault?_eq_none_iff (hstrict : settings.strict = true) {c : ClassPlace} :
    classFault? c = none ↔ DocumentedClass settings c.body := by
  rw [classFault?, Option.map_eq_none_iff, List.find?_eq_none, documentedClass_iff hstrict]
  simp only [Bool.not_eq_true]

/-! ## Where a walk stops -/

/-- The fault of the first class that is not documented. -/
def firstFault? (classes : List ClassPlace) : Option Fault := classes.findSome? classFault?

theorem firstFault?_append (front back : List ClassPlace) :
    firstFault? (front ++ back) = (firstFault? front).or (firstFault? back) :=
  List.findSome?_append

theorem firstFault?_eq_none_iff (hstrict : settings.strict = true) {classes : List ClassPlace} :
    firstFault? classes = none ↔ ∀ c ∈ classes, DocumentedClass settings c.body := by
  rw [firstFault?, List.findSome?_eq_none_iff]
  exact forall₂_congr fun c _ => classFault?_eq_none_iff hstrict

variable {base : Bindings} {around before : List Node}

/-- One statement of a walk stops where its classes do. -/
theorem modulesOf_error (hstrict : settings.strict = true) {node : Node} {fault : Fault}
    (h : around.any Node.isClass = false)
    (hblock : ∀ around, around.any Node.isClass = false →
      (modulesOfAll settings location (base.recordAll before) node.block).run.value = .error fault →
      firstFault? (classesIn around before node.block) = some fault)
    (hnode : (modulesOf settings location (base.recordAll before) node).run.value = .error fault) :
    firstFault? (classesIn around before [node]) = some fault := by
  cases node with
  | classDef head body =>
    rw [Outline.classesIn_classDef h, firstFault?, List.findSome?_cons]
    rcases Attempt.value_bind_eq_error.mp hnode with hclass | ⟨m, -, hclass⟩
    · rw [moduleOf_error hstrict hclass]
    · cases hclass
  | functionDef head body =>
    have hinside := Outline.any_isClass_concat h (show (Node.functionDef head body).isClass = false from rfl)
    rw [Outline.classesIn_cons rfl]
    rcases Attempt.value_bind_eq_error.mp hnode with hbody | ⟨inner, -, hbody⟩
    · show firstFault? (classesIn _ before body ++ []) = _
      rw [List.append_nil]
      exact hblock _ hinside hbody
    · cases hbody
  | compound body =>
    have hinside := Outline.any_isClass_concat h (show (Node.compound body).isClass = false from rfl)
    rw [Outline.classesIn_cons rfl]
    show firstFault? (classesIn _ before body ++ []) = _
    rw [List.append_nil]
    exact hblock _ hinside hnode
  | _ => cases hnode

/-- **A walk stops at the first class that is not documented.** -/
theorem modulesOfAll_error (hstrict : settings.strict = true) {fault : Fault} (nodes : List Node) :
    ∀ around before : List Node, around.any Node.isClass = false →
      (modulesOfAll settings location (base.recordAll before) nodes).run.value = .error fault →
      firstFault? (classesIn around before nodes) = some fault := by
  induction nodes using Node.block_induction with
  | nil =>
    intro around before _ h
    cases h
  | cons node rest hblock hrest =>
    intro around before h hwalk
    have hclasses : classesIn around before (node :: rest)
        = classesIn around before [node] ++ classesIn around (before ++ [node]) rest :=
      Outline.classesIn_append around before [node] rest
    rw [hclasses, firstFault?_append]
    rw [modulesOfAll] at hwalk
    rcases Attempt.value_bind_eq_error.mp hwalk with hone | ⟨first, hone, hmore⟩
    · rw [modulesOf_error hstrict h (fun around => hblock around before) hone]
      rfl
    · obtain ⟨hdocumented, rfl⟩ := (modulesOf_eq_ok_iff h
        (fun around result => modulesOfAll_eq_ok_iff node.block around before result) first).mp hone
      rw [(firstFault?_eq_none_iff hstrict).mpr hdocumented, Option.none_or]
      rcases Attempt.value_bind_eq_error.mp hmore with hothers | ⟨others, -, hothers⟩
      · exact hrest around (before ++ [node]) h hothers
      · cases hothers

/-- Extraction fails in strict mode exactly with the fault of the first class that is not documented. -/
theorem extract_eq_error_iff (hstrict : settings.strict = true) {collection : Collection}
    {outline : List Node} {fault : Fault} :
    (extract settings collection outline location).run.value = .error fault
      ↔ firstFault? (outerClasses outline) = some fault := by
  have hsound : ∀ other, (extract settings collection outline location).run.value = .error other →
      firstFault? (outerClasses outline) = some other := by
    intro other h
    rcases Attempt.value_bind_eq_error.mp h with hwalk | ⟨found, -, hwalk⟩
    · exact modulesOfAll_error hstrict outline [] [] rfl hwalk
    · cases hwalk
  constructor
  · exact hsound fault
  · intro hfault
    cases hresult : (extract settings collection outline location).run.value with
    | error other =>
      have hother := hsound other hresult
      rw [hfault] at hother
      rw [Option.some.inj hother]
    | ok result =>
      have hnone := (firstFault?_eq_none_iff hstrict).mpr (extract_eq_ok_iff.mp hresult).1
      rw [hfault] at hnone
      cases hnone

/-! ## The first undocumented function -/

/-- Whether a caller passes something to a function that says nothing about itself. -/
def Undocumented (f : Function) : Prop := f.docstring = none ∧ f.explicitParams ≠ []

theorem undocumented_iff {f : Function} : Undocumented f ↔ lacksDocstring f = true := by
  rw [Undocumented, lacksDocstring, Bool.and_eq_true, Option.isNone_iff_eq_none, Bool.not_eq_true',
    List.isEmpty_eq_false_iff]

instance (f : Function) : Decidable (Undocumented f) := decidable_of_iff _ undocumented_iff.symm

/-- A class is the first one in document order that has an undocumented function, and a function of it is
the first such one in the order of first definitions. -/
structure FirstUndocumented (outline : List Node) (c : ClassPlace) (f : Function) : Prop where
  classIsFirst : ∃ front back, outerClasses outline = front ++ c :: back
    ∧ ∀ d ∈ front, ∀ g ∈ exposedFunctions d.body, ¬Undocumented g
  functionIsFirst : ∃ front back, exposedFunctions c.body = front ++ f :: back
    ∧ ∀ g ∈ front, ¬Undocumented g
  undocumented : Undocumented f

theorem classFault?_eq_some_iff {c : ClassPlace} {fault : Fault} :
    classFault? c = some fault
      ↔ ∃ f, fault = missingIn c.head.name f ∧ Undocumented f
        ∧ ∃ front back, exposedFunctions c.body = front ++ f :: back ∧ ∀ g ∈ front, ¬Undocumented g := by
  rw [classFault?, Option.map_eq_some_iff]
  simp only [List.find?_eq_some_iff_append, undocumented_iff]
  constructor
  · rintro ⟨f, ⟨hlacks, front, back, hsplit, hfront⟩, rfl⟩
    exact ⟨f, rfl, hlacks, front, back, hsplit, fun g hg => by simpa using hfront g hg⟩
  · rintro ⟨f, rfl, hlacks, front, back, hsplit, hfront⟩
    exact ⟨f, ⟨hlacks, front, back, hsplit, fun g hg => by simpa using hfront g hg⟩, rfl⟩

theorem classFault?_eq_none {c : ClassPlace} :
    classFault? c = none ↔ ∀ f ∈ exposedFunctions c.body, ¬Undocumented f := by
  simp only [classFault?, Option.map_eq_none_iff, List.find?_eq_none, undocumented_iff]

theorem firstFault?_eq_some_iff {outline : List Node} {fault : Fault} :
    firstFault? (outerClasses outline) = some fault
      ↔ ∃ c f, FirstUndocumented outline c f ∧ fault = .missingDocumentation c.head.name f.name := by
  rw [firstFault?, List.findSome?_eq_some_iff]
  simp only [classFault?_eq_some_iff, classFault?_eq_none]
  constructor
  · rintro ⟨front, c, back, hsplit, ⟨f, rfl, hlacks, hfirst⟩, hfront⟩
    exact ⟨c, f, ⟨⟨front, back, hsplit, hfront⟩, hfirst, hlacks⟩, rfl⟩
  · rintro ⟨c, f, ⟨⟨front, back, hsplit, hfront⟩, hfirst, hlacks⟩, rfl⟩
    exact ⟨front, c, back, hsplit, ⟨f, rfl, hlacks, hfirst⟩, hfront⟩

theorem firstFault?_isSome_iff {outline : List Node} :
    (∃ fault, firstFault? (outerClasses outline) = some fault)
      ↔ ∃ c ∈ outerClasses outline, ∃ f ∈ exposedFunctions c.body, Undocumented f := by
  rw [← Option.isSome_iff_exists, firstFault?, List.findSome?_isSome_iff]
  refine exists_congr fun c => and_congr_right fun _ => ?_
  rw [← not_iff_not, Bool.not_eq_true, Option.isSome_eq_false_iff, Option.isNone_iff_eq_none,
    classFault?_eq_none]
  simp only [not_exists, not_and]

/-! ## Strict mode -/

/-- The same settings with or without strict mode. -/
def Settings.withStrict (settings : Settings) (strict : Bool) : Settings := { settings with strict }

/-- **Strict mode only filters.** Without it extraction never fails. With it extraction fails exactly if
some outer class has an undocumented function among its constructor and public methods; the fault names
the first such class and its first such function; and a result in strict mode is the result without. -/
theorem extract_strict (settings : Settings) (collection : Collection) (outline : List Node)
    (location : String) :
    (∃ result, (extract (settings.withStrict false) collection outline location).run.value = .ok result)
      ∧ ((∃ fault, (extract (settings.withStrict true) collection outline location).run.value
            = .error fault)
          ↔ ∃ c ∈ outerClasses outline, ∃ f ∈ exposedFunctions c.body, Undocumented f)
      ∧ (∀ fault, (extract (settings.withStrict true) collection outline location).run.value
            = .error fault
          ↔ ∃ c f, FirstUndocumented outline c f ∧ fault = .missingDocumentation c.head.name f.name)
      ∧ ∀ result, (extract (settings.withStrict true) collection outline location).run.value
            = .ok result →
          (extract (settings.withStrict false) collection outline location).run.value = .ok result := by
  have hstrict : (settings.withStrict true).strict = true := rfl
  have hlax : (settings.withStrict false).strict = false := rfl
  refine ⟨⟨_, extract_of_not_strict hlax collection outline location⟩, ?_, ?_, ?_⟩
  · simp only [extract_eq_error_iff hstrict]
    exact firstFault?_isSome_iff
  · intro fault
    rw [extract_eq_error_iff hstrict]
    exact firstFault?_eq_some_iff
  · intro result h
    obtain ⟨-, hmodules⟩ := extract_eq_ok_iff.mp h
    refine extract_eq_ok_iff.mpr ⟨fun c _ => documentedClass_of_not_strict hlax c.body, ?_⟩
    rw [hmodules]
    -- apart from strict mode the settings are the same, and the modules only depend on these
    rfl

/-- A parameter without annotation. -/
def plainParam (name : String) : Outline.Param := ⟨name, none⟩

/-- A method with keyword-only parameters. -/
def keywordMethod (name : String) (keywords : List String) (docstring : Option String) : Function where
  name := name
  parameters := { args := [plainParam "self"], keywordOnly := keywords.map plainParam }
  decorators := []
  returns := none
  docstring := docstring
  line := 1

/-- A documented class, a class in a function whose constructor is defined again without parameters and
whose methods are not documented, and one more class of that kind. -/
def archive : List Node :=
  [.compound [.classDef ⟨"Shelf", [], none, 1⟩
      [.functionDef (keywordMethod "put" ["book"] none) [],
        .functionDef (keywordMethod "_move" ["to"] none) [],
        .classDef ⟨"Label", [], none, 4⟩ [.functionDef (keywordMethod "write" ["text"] none) []],
        .functionDef (keywordMethod "put" ["book"] (some "Puts.")) [],
        .functionDef (keywordMethod "count" [] none) []]],
    .functionDef (plainFunction "cabinet")
      [.classDef ⟨"Drawer", [], none, 10⟩
        [.functionDef (keywordMethod "__init__" ["size"] none) [],
          .functionDef (keywordMethod "find" ["key"] none) [],
          .functionDef (keywordMethod "close" ["now"] none) [],
          .functionDef (keywordMethod "__init__" [] none) []]],
    .classDef ⟨"Box", [], none, 20⟩ [.functionDef (keywordMethod "open" ["lid"] none) []]]

/-- Strict mode stops at the second class of the archive, and the first one alone passes it. -/
theorem extract_strict_archive :
    (extract (({} : Settings).withStrict true) {} archive "archive.py").run.value
        = .error (.missingDocumentation "Drawer" "find")
      ∧ ∃ result,
        (extract (({} : Settings).withStrict true) {} (archive.take 1) "archive.py").run.value = .ok result
          ∧ (extract (({} : Settings).withStrict false) {} (archive.take 1) "archive.py").run.value
            = .ok result := by
  obtain ⟨-, -, hfault, -⟩ := extract_strict {} {} archive "archive.py"
  obtain ⟨-, -, -, hsame⟩ := extract_strict {} {} (archive.take 1) "archive.py"
  refine ⟨(hfault _).mpr ?_, _, rfl, hsame _ rfl⟩
  refine ⟨_, _, ⟨⟨[_], [_], rfl, ?_⟩, ⟨[_], [_], rfl, ?_⟩, ?_⟩, rfl⟩
  · decide
  · decide
  · decide

/-! ## Runs -/

namespace Extractor

variable {α β : Type}

/-- The outcome of a computation and the extractor after it. -/
def run (x : Extracting α) (e : Extractor) : Except Fault α × Extractor := (StateT.run x.run e).value

theorem run_bind (x : Extracting α) (f : α → Extracting β) (e : Extractor) :
    run (x >>= f) e = match run x e with
      | (.ok value, next) => run (f value) next
      | (.error fault, next) => (.error fault, next) := by
  have hbind : run (x >>= f) e = run (ExceptT.mk (ExceptT.bindCont f (run x e).1)) (run x e).2 := rfl
  rw [hbind]
  obtain ⟨outcome, next⟩ := run x e
  cases outcome with
  | ok value => rfl
  | error fault => rfl

theorem run_lift (x : Attempt α) (e : Extractor) : run (lift x) e = (x.run.value, e) := rfl

theorem run_keep (m : Module) (e : Extractor) :
    run (keep m) e = (.ok (), { e with modules := e.modules ++ ⟨[m]⟩ }) := rfl

/-- Modules are kept one after the other. -/
theorem run_forM_keep (found : List Module) :
    ∀ e : Extractor, run (found.forM keep) e = (.ok (), { e with modules := e.modules ++ ⟨found⟩ }) := by
  induction found with
  | nil =>
    rintro ⟨settings, ⟨modules⟩⟩
    show (Except.ok (), (⟨settings, ⟨modules⟩⟩ : Extractor)) = (.ok (), ⟨settings, ⟨modules ++ []⟩⟩)
    rw [List.append_nil]
  | cons m rest ih =>
    rintro ⟨settings, ⟨modules⟩⟩
    show run (keep m >>= fun _ => rest.forM keep) _ = _
    rw [run_bind, run_keep]
    show run (rest.forM keep) ⟨settings, ⟨modules ++ [m]⟩⟩ = (.ok (), ⟨settings, ⟨modules ++ m :: rest⟩⟩)
    rw [ih, List.append_cons modules m rest]
    rfl

/-! ## One outline -/

/-- The outcome of reading an outline at its location, and the extractor after it. -/
def reading (file : List Node × String) (e : Extractor) : Except Fault Unit × Extractor :=
  run (read file.1 file.2) e

/-- **One reading**: the modules of the outline are added, or nothing is if the walk through it fails. -/
theorem reading_eq (file : List Node × String) (e : Extractor) :
    reading file e = match (modulesOfAll e.settings file.2 {} file.1).run.value with
      | .ok (found, _) => (.ok (), { e with modules := e.modules ++ ⟨found⟩ })
      | .error fault => (.error fault, e) := by
  have hget : run (get : Extracting Extractor) e = (.ok e, e) := rfl
  rw [reading, read, run_bind, hget]
  dsimp only
  rw [run_bind, run_lift]
  cases (modulesOfAll e.settings file.2 {} file.1).run.value with
  | ok found => exact run_forM_keep found.1 e
  | error fault => rfl

/-- **A reading that fails leaves the extractor as it was.** -/
theorem reading_eq_error {file : List Node × String} {e : Extractor} {fault : Fault}
    (h : (reading file e).1 = .error fault) : (reading file e).2 = e := by
  rw [reading_eq] at h ⊢
  split at h
  · cases h
  · rfl

/-- The extractor that has found nothing yet. -/
def fresh (settings : Settings) : Extractor := { settings }

/-- The collection that a fresh extractor has after one outline, if it does not fail. -/
def alone? (settings : Settings) (file : List Node × String) : Option Collection :=
  match reading file (fresh settings) with
  | (.ok (), e) => some e.modules
  | (.error _, _) => none

/-- A reading ends as on a fresh extractor, keeps the settings and adds what a fresh extractor finds. -/
theorem reading_step (file : List Node × String) (e : Extractor) :
    (reading file e).1 = (reading file (fresh e.settings)).1
      ∧ (reading file e).2.settings = e.settings
      ∧ (reading file e).2.modules.modules
        = e.modules.modules ++ (alone? e.settings file).toList.flatMap (·.modules) := by
  have hsettings : (fresh e.settings).settings = e.settings := rfl
  rw [alone?, reading_eq, reading_eq, hsettings]
  cases (modulesOfAll e.settings file.2 {} file.1).run.value with
  | ok found =>
    refine ⟨rfl, rfl, ?_⟩
    show e.modules.modules ++ found.1 = e.modules.modules ++ (found.1 ++ [])
    rw [List.append_nil]
  | error fault => exact ⟨rfl, rfl, (List.append_nil _).symm⟩

/-! ## Several outlines -/

/-- Reads outlines at their locations one after the other, whatever becomes of each. -/
def readEach : List (List Node × String) → StateT Extractor Noted (List (Except Fault Unit))
  | [] => return []
  | (outline, location) :: rest => do
    let outcome ← (read outline location).run
    let others ← readEach rest
    return outcome :: others

/-- The outcomes of reading outlines, and the extractor after all of them. -/
def readings (files : List (List Node × String)) (e : Extractor) :
    List (Except Fault Unit) × Extractor := (StateT.run (readEach files) e).value

theorem readings_cons (file : List Node × String) (rest : List (List Node × String)) (e : Extractor) :
    readings (file :: rest) e
      = ((reading file e).1 :: (readings rest (reading file e).2).1,
          (readings rest (reading file e).2).2) := rfl

-- The induction goes over the outlines, for every extractor at once: what one reading adds stands in front
-- of what the others add.
/-- The outlines end and add as on their own. -/
theorem readings_step (files : List (List Node × String)) :
    ∀ e : Extractor,
      (readings files e).1 = files.map (fun file => (reading file (fresh e.settings)).1)
        ∧ (readings files e).2.settings = e.settings
        ∧ (readings files e).2.modules.modules
          = e.modules.modules ++ (files.filterMap (alone? e.settings)).flatMap (·.modules) := by
  induction files with
  | nil =>
    intro e
    exact ⟨rfl, rfl, (List.append_nil _).symm⟩
  | cons file rest ih =>
    intro e
    obtain ⟨houtcome, hsettings, hmodules⟩ := reading_step file e
    obtain ⟨houtcomes, hkept, hgrown⟩ := ih (reading file e).2
    rw [hsettings] at houtcomes hkept hgrown
    rw [readings_cons, List.map_cons, houtcome, houtcomes, hkept, hgrown, hmodules]
    refine ⟨rfl, rfl, ?_⟩
    have hadded : (file :: rest).filterMap (alone? e.settings)
        = (alone? e.settings file).toList ++ rest.filterMap (alone? e.settings) := by
      rw [List.filterMap_cons]
      cases alone? e.settings file with
      | none => rfl
      | some found => rfl
    rw [hadded, List.flatMap_append, List.append_assoc]

/-- **What is there after several outlines.** Every outline ends as it does on its own; the collection has
grown, in order, by what the outlines that do not fail give on their own; and a reading that fails
leaves the extractor as it was. -/
theorem readings_accumulate (files : List (List Node × String)) (e : Extractor) :
    (readings files e).1 = files.map (fun file => (reading file (fresh e.settings)).1)
      ∧ (readings files e).2.settings = e.settings
      ∧ (readings files e).2.modules.modules
        = e.modules.modules ++ (files.filterMap (alone? e.settings)).flatMap (·.modules)
      ∧ ∀ (file : List Node × String) (between : Extractor) (fault : Fault),
        (reading file between).1 = .error fault → (reading file between).2 = between := by
  obtain ⟨houtcomes, hsettings, hmodules⟩ := readings_step files e
  exact ⟨houtcomes, hsettings, hmodules, fun _ _ _ => reading_eq_error⟩

/-- Three outlines; in strict mode the second one fails after its first class. -/
def threeFiles : List (List Node × String) :=
  [(archive.take 1, "shelf.py"), (archive, "archive.py"), (workshop, "workshop.py")]

/-- The outline that fails adds nothing, and those around it are not affected. -/
theorem readings_accumulate_threeFiles :
    ((readings threeFiles (fresh (Settings.withStrict {} true))).2.modules.modules.map
        fun m => (m.name, m.location))
        = [("Shelf", "shelf.py"), ("Outer", "workshop.py"), ("Built", "workshop.py")]
      ∧ (reading (archive, "archive.py") (fresh (Settings.withStrict {} true))).1
        = .error (.missingDocumentation "Drawer" "find")
      ∧ (reading (archive, "archive.py") (fresh (Settings.withStrict {} true))).2
        = fresh (Settings.withStrict {} true) := by
  obtain ⟨-, -, hmodules, hatomic⟩ :=
    readings_accumulate threeFiles (fresh (Settings.withStrict {} true))
  have hfault : (reading (archive, "archive.py") (fresh (Settings.withStrict {} true))).1
      = .error (.missingDocumentation "Drawer" "find") := rfl
  refine ⟨?_, hfault, hatomic _ _ _ hfault⟩
  rw [hmodules]
  rfl

end Extractor

end ClassCli.Extraction
