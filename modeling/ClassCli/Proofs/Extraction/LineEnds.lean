import ClassCli.Proofs.Extraction.SameFunctions
import ClassCli.Proofs.Extraction.WrittenModules
import ClassCli.Proofs.Outline.TypeLineEnds

/-!
# Interfaces and line ends

A source text and the text with a carriage return in front of every line feed have the same interface if in
the classes that are visited no string that is a value breaks over lines, no escaped line feed stands in a
docstring, and no parameter is named by a text that breaks.

* **`Definition.isUnbroken`**, **`ClassDefinition.isUnbroken`** — what this asks of functions and classes.
* **`sameFunction_outlineOf`** — functions in both texts are not told apart.
* **`modulesOfAll_returned`** — the modules of a block.
* **`extractSource_withReturns`** — the interface of a source text.
-/

namespace ClassCli

namespace Source

/-! ## What breaks over lines -/

/-- Whether neither the name of a parameter nor a string in its default breaks over lines. -/
def Param.isUnbroken : Param → Bool
  | .plain name _ default => !name.toList.contains '\n' && (default.map Expr.isFlat).getD true
  | _ => true

/-- Whether no name, default, decorator or docstring of a function depends on line ends. -/
def Definition.isUnbroken (d : Definition) : Bool :=
  d.decorators.all Expr.isFlatCall && d.params.all Param.isUnbroken && Outline.keepsDocstring d.body

/-- The functions that are the last ones of their names. -/
def ClassDefinition.methods (c : ClassDefinition) : List Definition :=
  Entries.values (Entries.collect Definition.name c.functions)

/-- Whether nothing depends on line ends in a class: in its docstring, its constructor or a public method. -/
def ClassDefinition.isUnbroken (c : ClassDefinition) : Bool :=
  Outline.keepsDocstring c.body
    && c.methods.all fun d =>
      !(d.name == Extraction.constructorName || Extraction.isPublic d.name) || d.isUnbroken

theorem bareName?_returns {x x' : Expr} (h : Expr.Like .returns x x') : x'.bareName? = x.bareName? := by
  cases h with
  | group hx =>
    rw [Expr.bareName?, Expr.bareName?]
    exact bareName?_returns hx
  | keyword _ hx =>
    rw [Expr.bareName?, Expr.bareName?]
    exact bareName?_returns hx
  | _ => rfl

end Source

namespace Extraction

open Interface (Argument Collection Module)
open Marker (Bindings)
open Outline (lowerBlock lowerDefault lowerExpr lowerNamed lowerStmt lowerSuites outlineOf)
open Source (ClassDefinition Definition Likeness NamedParam)
open Text (returned)

/-! ## Parameters -/

/-- Parameters of which extraction sees the same. -/
structure SameParam (p p' : NamedParam) : Prop where
  shown : shown (lowerNamed p') = shown (lowerNamed p)
  default : (lowerDefault p').map Outline.Expr.literal? = (lowerDefault p).map Outline.Expr.literal?

theorem shown_returned {name : String} {typeHint typeHint' : Option String}
    (h : Option.Rel Likeness.returns.Text typeHint typeHint') :
    shown (Outline.namedParam name typeHint') = shown (Outline.namedParam name typeHint) := by
  cases h with
  | none => rfl
  | some htext =>
    exact congrArg (Prod.mk name) (Outline.TypeExpr.typing_parse_withReturns htext)

theorem default_returned {default default' : Option Source.Expr}
    (h : Option.Rel (Source.Expr.Like .returns) default default')
    (hflat : (default.map Source.Expr.isFlat).getD true = true) :
    (default'.map lowerExpr).map Outline.Expr.literal? = (default.map lowerExpr).map Outline.Expr.literal? := by
  cases h with
  | none => rfl
  | some hx => exact congrArg some (Outline.literal?_returns hx hflat)

theorem sameParam_named? {p p' : Source.Param} (h : Source.Param.Like .returns p p')
    (hunbroken : p.isUnbroken = true) : Option.Rel SameParam p.named? p'.named? := by
  cases h with
  | named _ htype hdefault =>
    rw [Source.Param.isUnbroken, Bool.and_eq_true] at hunbroken
    exact .some ⟨shown_returned htype, default_returned hdefault hunbroken.2⟩
  | @tupled a b default default' _ _ htext hdefault =>
    rw [Source.Param.isUnbroken, Bool.and_eq_true, Bool.not_eq_true'] at hunbroken
    have hline : '\n' ∉ a.toList := fun hmem => by
      rw [List.contains_iff_mem.mpr hmem] at hunbroken
      exact Bool.false_ne_true hunbroken.1.symm
    obtain rfl : b = a := (Marker.Bindings.eq_returned htext).trans (Text.returned_of_not_mem hline)
    exact .some ⟨rfl, default_returned (.some hdefault) hunbroken.2⟩
  | _ => exact .none

theorem isStar_like {L : Likeness} {p p' : Source.Param} (h : Source.Param.Like L p p') :
    p'.isStar = p.isStar := by
  cases h <;> rfl

/-- **Alike parameters** are sorted alike, and extraction sees the same of them. -/
theorem sameParams_of_like {params params' : List Source.Param}
    (h : List.Forall₂ (fun p p' => p.isUnbroken = true ∧ Source.Param.Like .returns p p') params params') :
    List.Forall₂ SameParam (Source.positional params) (Source.positional params')
      ∧ List.Forall₂ SameParam (Source.keywordOnly params) (Source.keywordOnly params') := by
  induction h with
  | nil => exact ⟨.nil, .nil⟩
  | @cons p p' params params' hp hparams ih =>
    have hnamed := sameParam_named? hp.2 hp.1
    cases hstar : p.isStar with
    | true =>
      have hstar' : p'.isStar = true := (isStar_like hp.2).trans hstar
      rw [Source.positional_star hstar, Source.positional_star hstar', Source.keywordOnly_star hstar,
        Source.keywordOnly_star hstar']
      exact ⟨.nil, List.rel_filterMap (fun _ _ h => sameParam_named? h.2 h.1) hparams⟩
    | false =>
      have hstar' : p'.isStar = false := (isStar_like hp.2).trans hstar
      rw [Source.positional_cons hstar, Source.positional_cons hstar', Source.keywordOnly_cons hstar,
        Source.keywordOnly_cons hstar']
      refine ⟨List.rel_append ?_ ih.1, ih.2⟩
      generalize p.named? = named, p'.named? = named' at hnamed
      cases hnamed with
      | none => exact .nil
      | some hsame => exact .cons hsame .nil

theorem map_eq_of_forall₂ {α β : Type} {R : α → α → Prop} {f : α → β} (hf : ∀ x x', R x x' → f x' = f x)
    {xs xs' : List α} (h : List.Forall₂ R xs xs') : xs'.map f = xs.map f := by
  induction h with
  | nil => rfl
  | cons hx _ ih => rw [List.map_cons, List.map_cons, hf _ _ hx, ih]

section SameParams

variable {ps ps' : List NamedParam} (h : List.Forall₂ SameParam ps ps')
include h

theorem map_shown_eq : (ps'.map lowerNamed).map shown = (ps.map lowerNamed).map shown := by
  rw [List.map_map, List.map_map]
  exact map_eq_of_forall₂ (f := shown ∘ lowerNamed) (fun _ _ hp => hp.shown) h

theorem map_default_eq : (ps'.map lowerDefault).map (Option.map Outline.Expr.literal?)
    = (ps.map lowerDefault).map (Option.map Outline.Expr.literal?) := by
  rw [List.map_map, List.map_map]
  exact map_eq_of_forall₂ (f := Option.map Outline.Expr.literal? ∘ lowerDefault) (fun _ _ hp => hp.default) h

theorem filterMap_default_eq : (ps'.filterMap lowerDefault).map Outline.Expr.literal?
    = (ps.filterMap lowerDefault).map Outline.Expr.literal? := by
  have hmaps := congrArg (List.filterMap id) (map_default_eq h)
  rw [List.map_map, List.map_map, List.filterMap_map, List.filterMap_map] at hmaps
  rw [List.map_filterMap, List.map_filterMap]
  exact hmaps

end SameParams

/-! ## Functions -/

/-- **Functions in both texts** are not told apart by extraction. -/
theorem sameFunction_outlineOf {d d' : Definition} (h : Definition.Like .returns d d')
    (hunbroken : d.isUnbroken = true) : SameFunction (outlineOf d) (outlineOf d') := by
  rw [Definition.isUnbroken, Bool.and_eq_true, Bool.and_eq_true, List.all_eq_true, List.all_eq_true] at hunbroken
  obtain ⟨⟨hdecorators, hparams⟩, hdocstring⟩ := hunbroken
  have hsorts (d : Definition) : Outline.SortsInto {} (Source.positional d.params) (Source.keywordOnly d.params)
      (outlineOf d).parameters := Outline.lowerParams_sortsInto d.params
  obtain ⟨hpositional, hkeyword⟩ := sameParams_of_like ((List.forall₂_and_left _ _).mpr ⟨hparams, h.params⟩)
  constructor
  case name => exact h.name.1.symm
  case args =>
    rw [(hsorts d').args, (hsorts d).args]
    exact map_shown_eq hpositional
  case defaults =>
    rw [(hsorts d').defaults, (hsorts d).defaults]
    exact filterMap_default_eq hpositional
  case keywordOnly =>
    rw [(hsorts d').keywordOnly, (hsorts d).keywordOnly]
    exact map_shown_eq hkeyword
  case keywordDefaults =>
    rw [(hsorts d').keywordDefaults, (hsorts d).keywordDefaults]
    exact map_default_eq hkeyword
  case isStatic =>
    have hnames := map_eq_of_forall₂ (fun _ _ hx => Source.bareName?_returns hx) h.decorators
    have hstatic (d : Definition) :
        d.isStatic = (d.decorators.map Source.Expr.bareName?).any (· == some "staticmethod") := by
      rw [List.any_map]
      rfl
    rw [Outline.isStatic_outlineOf, Outline.isStatic_outlineOf, hstatic, hnames, ← hstatic]
  case docstring => exact Outline.sameDocs_docstring? h.body hdocstring
  case decorators =>
    show List.Forall₂ Marker.SameDecorator (d.decorators.map lowerExpr) (d'.decorators.map lowerExpr)
    rw [List.forall₂_map_left_iff, List.forall₂_map_right_iff]
    refine List.Forall₂.imp ?_ ((List.forall₂_and_left _ _).mpr ⟨hdecorators, h.decorators⟩)
    exact fun x x' hx => Marker.sameDecorator_of_like hx.2 hx.1

/-! ## Classes -/

theorem values_methods_lowerBlock (c : ClassDefinition) :
    (methods (lowerBlock c.body)).values = c.methods.map outlineOf := by
  rw [methods_eq, Outline.bodyFunctions_lowerBlock]
  exact Entries.values_collect_map (fun _ => rfl) c.functions

theorem sameMethods_of_like {c c' : ClassDefinition} (h : ClassDefinition.Like .returns c c')
    (hunbroken : c.isUnbroken = true) :
    List.Forall₂ SameMethod (methods (lowerBlock c.body)).values (methods (lowerBlock c'.body)).values := by
  rw [ClassDefinition.isUnbroken, Bool.and_eq_true, List.all_eq_true] at hunbroken
  have hlike : List.Forall₂ (Definition.Like .returns) c.methods c'.methods :=
    Entries.forall₂_values_collect (fun h => h.name.1.symm) (Source.functionsOfBlock_like h.body)
  rw [values_methods_lowerBlock, values_methods_lowerBlock, List.forall₂_map_left_iff, List.forall₂_map_right_iff]
  refine List.Forall₂.imp ?_ ((List.forall₂_and_left _ _).mpr ⟨hunbroken.2, hlike⟩)
  rintro d d' ⟨hd, hlike⟩
  refine ⟨hlike.name.1.symm, fun hexposed => sameFunction_outlineOf hlike ?_⟩
  have hlooked : (d.name == constructorName || isPublic d.name) = true := by
    rw [Bool.or_eq_true, beq_iff_eq]
    exact hexposed
  rwa [hlooked, Bool.not_true, Bool.false_or] at hd

/-! ## Modules -/

/-- What is found in one part of a text, and then in another with the names in scope after the first. -/
def followedBy (first : Except Fault (List Module × Bindings))
    (next : Bindings → Except Fault (List Module × Bindings)) : Except Fault (List Module × Bindings) :=
  first >>= fun found => next found.2 >>= fun others => .ok (found.1 ++ others.1, others.2)

/-- What is found, with carriage returns in the names in scope. -/
def returnedScope (found : List Module × Bindings) : List Module × Bindings := (found.1, found.2.returned)

theorem followedBy_assoc (first : Except Fault (List Module × Bindings))
    (next last : Bindings → Except Fault (List Module × Bindings)) :
    followedBy (followedBy first next) last = followedBy first fun scope => followedBy (next scope) last := by
  cases first with
  | error fault => rfl
  | ok found =>
    unfold followedBy
    cases hnext : next found.2 with
    | error fault =>
      simp [hnext, Bind.bind, Except.bind]
    | ok others =>
      simp only [hnext, Bind.bind, Except.bind]
      cases last others.2 with
      | error fault => rfl
      | ok more => simp

theorem followedBy_returned {first first' : Except Fault (List Module × Bindings)}
    {next next' : Bindings → Except Fault (List Module × Bindings)} (hfirst : first' = first.map returnedScope)
    (hnext : ∀ scope : Bindings, next' scope.returned = (next scope).map returnedScope) :
    followedBy first' next' = (followedBy first next).map returnedScope := by
  rw [hfirst]
  cases first with
  | error fault => rfl
  | ok found =>
    show (next' found.2.returned >>= _) = Except.map returnedScope (next found.2 >>= _)
    rw [hnext]
    cases next found.2 with
    | error fault => rfl
    | ok others => rfl

section Modules

variable {settings : Settings} {location : String}

theorem value_modulesOfAll_cons (scope : Bindings) (node : Outline.Node) (rest : List Outline.Node) :
    (modulesOfAll settings location scope (node :: rest)).run.value
      = followedBy (modulesOf settings location scope node).run.value
          fun scope => (modulesOfAll settings location scope rest).run.value := by
  rw [modulesOfAll, Attempt.value_bind, followedBy]
  congr 1
  funext found
  obtain ⟨first, after⟩ := found
  dsimp only
  rw [Attempt.value_bind]
  rfl

theorem value_modulesOfAll_append (front back : List Outline.Node) (scope : Bindings) :
    (modulesOfAll settings location scope (front ++ back)).run.value
      = followedBy (modulesOfAll settings location scope front).run.value
          fun scope => (modulesOfAll settings location scope back).run.value := by
  induction front generalizing scope with
  | nil =>
    show (modulesOfAll settings location scope back).run.value
      = ((modulesOfAll settings location scope back).run.value >>= fun others => .ok others)
    cases (modulesOfAll settings location scope back).run.value with
    | error fault => rfl
    | ok found => rfl
  | cons node rest ih =>
    rw [List.cons_append, value_modulesOfAll_cons, value_modulesOfAll_cons, followedBy_assoc]
    congr 1
    funext scope
    exact ih scope

/-- A compound statement counts as what stands in it. -/
theorem value_modulesOf_compoundOf (scope : Bindings) (body : List Outline.Node) :
    (modulesOf settings location scope (Outline.compoundOf body)).run.value
      = (modulesOfAll settings location scope body).run.value := by
  cases body with
  | nil => rfl
  | cons node rest => rfl

mutual

/-- The names that a target binds are the same in both texts, and on one line each. -/
theorem targetNames_returns {x x' : Source.Expr} (h : Source.Expr.Like .returns x x') :
    List.Forall₂ Likeness.returns.SameWord (Outline.targetNames x) (Outline.targetNames x') := by
  cases h with
  | name hword => exact .cons ⟨rfl, hword⟩ .nil
  | list hxs => exact targetNamesAll_returns hxs
  | tuple hxs => exact targetNamesAll_returns hxs
  | group hx =>
    rw [Outline.targetNames, Outline.targetNames]
    exact targetNames_returns hx
  | _ => exact .nil

theorem targetNamesAll_returns {xs xs' : List Source.Expr} (h : List.Forall₂ (Source.Expr.Like .returns) xs xs') :
    List.Forall₂ Likeness.returns.SameWord (Outline.targetNamesAll xs) (Outline.targetNamesAll xs') := by
  cases h with
  | nil => exact .nil
  | cons hx hxs => exact List.rel_append (targetNames_returns hx) (targetNamesAll_returns hxs)

end

/-- The class is the only one that is visited in its statement. -/
theorem modulesOf_classDef_returned (hregistry : settings.registry.Plain) {c c' : ClassDefinition}
    (h : ClassDefinition.Like .returns c c') (hunbroken : c.isUnbroken = true) (scope : Bindings) :
    (modulesOf settings location scope.returned (lowerStmt c'.stmt)).run.value
      = (modulesOf settings location scope (lowerStmt c.stmt)).run.value.map returnedScope := by
  have hdocs : Outline.SameDocs (Outline.headOf c).docstring (Outline.headOf c').docstring := by
    rw [ClassDefinition.isUnbroken, Bool.and_eq_true] at hunbroken
    exact Outline.sameDocs_docstring? h.body hunbroken.1
  have hmethods := sameMethods_of_like h hunbroken
  have hmodule := moduleOf_eq_of_same hregistry scope h.name.1.symm hdocs hmethods location
  rw [Outline.lowerStmt_classStmt, Outline.lowerStmt_classStmt, modulesOf, modulesOf, Attempt.value_bind,
    Attempt.value_bind, hmodule]
  cases (moduleOf settings scope location (Outline.headOf c) (lowerBlock c.body)).run.value with
  | error fault => rfl
  | ok m =>
    have hbind := scope.bind_none_returned h.name.2
    show Except.ok ([m], scope.returned.bind c'.name none) = Except.ok ([m], (scope.bind c.name none).returned)
    rw [← h.name.1, hbind]

-- The recursion is that of the trees, side by side.
mutual

theorem modulesOf_returned (hregistry : settings.registry.Plain) {s s' : Source.Stmt}
    (h : Source.Stmt.Like .returns s s') (hunbroken : ∀ c ∈ Source.classesOf s, c.isUnbroken = true)
    (scope : Bindings) :
    (modulesOf settings location scope.returned (lowerStmt s')).run.value
      = (modulesOf settings location scope (lowerStmt s)).run.value.map returnedScope := by
  cases h with
  | @classDef decorators decorators' name body body' line hdecorators hword hbody =>
    have hlike : ClassDefinition.Like .returns ⟨decorators, name, body, line⟩ ⟨decorators', name, body', line⟩ :=
      ⟨hdecorators, ⟨rfl, hword⟩, hbody, rfl⟩
    exact modulesOf_classDef_returned hregistry hlike (hunbroken _ List.mem_cons_self) scope
  | @functionDef _ _ name _ _ _ _ body body' _ _ hword _ _ hbody =>
    have hbind (scope : Bindings) := scope.bind_none_returned hword
    rw [lowerStmt, lowerStmt, modulesOf, modulesOf, Attempt.value_bind, Attempt.value_bind,
      modulesOfBlock_returned hregistry hbody hunbroken scope]
    cases (modulesOfAll settings location scope (lowerBlock body)).run.value with
    | error fault => rfl
    | ok found => exact congrArg (fun after => Except.ok (found.1, after)) (hbind scope)
  | importNames hnames =>
    exact congrArg (fun after => Except.ok ([], after)) (scope.record_importNames_returned hnames)
  | importFrom hmodule hnames =>
    exact congrArg (fun after => Except.ok ([], after)) (scope.record_importFrom_returned hnames hmodule _)
  | assign hxs =>
    exact congrArg (fun after => Except.ok ([], after)) (scope.record_assign_returned (targetNamesAll_returns hxs))
  | compound hsuites =>
    rw [lowerStmt, lowerStmt, value_modulesOf_compoundOf, value_modulesOf_compoundOf]
    exact modulesOfSuites_returned hregistry hsuites hunbroken scope
  | expression | other => rfl

/-- **The modules of a block** are the same in both texts, and so are the faults. -/
theorem modulesOfBlock_returned (hregistry : settings.registry.Plain) {stmts stmts' : List Source.Stmt}
    (h : Source.Stmts.Like .returns stmts stmts')
    (hunbroken : ∀ c ∈ Source.classesOfBlock stmts, c.isUnbroken = true) (scope : Bindings) :
    (modulesOfAll settings location scope.returned (lowerBlock stmts')).run.value
      = (modulesOfAll settings location scope (lowerBlock stmts)).run.value.map returnedScope := by
  cases h with
  | nil => rfl
  | cons hs hrest =>
    rw [Source.classesOfBlock, List.forall_mem_append] at hunbroken
    rw [lowerBlock, lowerBlock, value_modulesOfAll_cons, value_modulesOfAll_cons]
    exact followedBy_returned (modulesOf_returned hregistry hs hunbroken.1 scope)
      fun scope => modulesOfBlock_returned hregistry hrest hunbroken.2 scope

theorem modulesOfSuites_returned (hregistry : settings.registry.Plain) {suites suites' : List (List Source.Stmt)}
    (h : List.Forall₂ (Source.Stmts.Like .returns) suites suites')
    (hunbroken : ∀ c ∈ Source.classesOfSuites suites, c.isUnbroken = true) (scope : Bindings) :
    (modulesOfAll settings location scope.returned (lowerSuites suites')).run.value
      = (modulesOfAll settings location scope (lowerSuites suites)).run.value.map returnedScope := by
  cases h with
  | nil => rfl
  | cons hsuite hrest =>
    rw [Source.classesOfSuites, List.forall_mem_append] at hunbroken
    rw [lowerSuites, lowerSuites, value_modulesOfAll_append, value_modulesOfAll_append]
    exact followedBy_returned (modulesOfBlock_returned hregistry hsuite hunbroken.1 scope)
      fun scope => modulesOfSuites_returned hregistry hrest hunbroken.2 scope

end

end Modules

/-! ## Source texts -/

/-- The same file with a carriage return in front of every line feed. -/
def SourceFile.withReturns (file : SourceFile) : SourceFile := { file with text := returned file.text }

/-- **Line ends do not matter** where nothing that is read breaks over lines. With a carriage return in front
of every line feed a source text can be read, and extraction gives the same collection, or fails alike. -/
theorem extractSource_withReturns {settings : Settings} (hregistry : settings.registry.Plain) {file : SourceFile}
    (hreturn : '\r' ∉ file.text.toList) (hread : (Source.readModule file.text).isOk = true)
    (horderly : Source.Tokens.isOrderly [] (Source.Lexer.tokens file.text) = true)
    (hunbroken : ∀ c ∈ file.classes, c.isUnbroken = true) (collection : Collection) :
    (Source.readModule file.withReturns.text).isOk = true
      ∧ (extractSource settings collection file.withReturns).run.value
        = (extractSource settings collection file).run.value := by
  cases hstmts : Source.readModule file.text with
  | error line =>
    rw [hstmts] at hread
    cases hread
  | ok stmts =>
    obtain ⟨stmts', hstmts', hlike⟩ :=
      Source.readModule_returns hreturn horderly (Text.toList_returned file.text) hstmts
    have hclasses : file.classes = Source.classesOfBlock stmts := by
      rw [SourceFile.classes, SourceFile.statements, hstmts]
      rfl
    rw [hclasses] at hunbroken
    have houtline : Outline.outline? file.text = .ok (lowerBlock stmts) := by
      rw [Outline.outline?, hstmts]
      rfl
    have houtline' : Outline.outline? file.withReturns.text = .ok (lowerBlock stmts') := by
      rw [Outline.outline?, SourceFile.withReturns, hstmts']
      rfl
    have hmodules : (modulesOfAll settings file.location (Bindings.returned {}) (lowerBlock stmts')).run.value
        = (modulesOfAll settings file.location {} (lowerBlock stmts)).run.value.map returnedScope :=
      modulesOfBlock_returned hregistry hlike hunbroken {}
    refine ⟨?_, ?_⟩
    · rw [SourceFile.withReturns, hstmts']
      rfl
    · rw [extractSource, extractSource, houtline, houtline']
      dsimp only
      rw [extract, extract, Attempt.value_bind, Attempt.value_bind]
      show (modulesOfAll settings file.location (Bindings.returned {}) (lowerBlock stmts')).run.value >>= _ = _
      rw [hmodules]
      cases (modulesOfAll settings file.location {} (lowerBlock stmts)).run.value with
      | error fault => rfl
      | ok found => rfl

/-- A method with a docstring over several lines, and a marker that is imported over two. -/
def jobSource : SourceFile where
  location := "job.py"
  text := "from argsmith \\\n import add_hydra\nclass A:\n @add_hydra('c')\n def run(self, c, x=(1,\n2)):\n"
    ++ "  '''Runs.\n\n  Args:\n   x: How\n    often.\n  '''\n"

/-- The registry of the markers that every namespace has. -/
theorem plain_builtin : (Marker.Registry.builtin Marker.defaultNamespace).Plain := by
  constructor
  case home => decide
  case names => decide

/-- Docstrings, brackets and imports may break over lines. -/
theorem extractSource_withReturns_job :
    (Marker.Registry.builtin Marker.defaultNamespace).Plain ∧ '\r' ∉ jobSource.text.toList
      ∧ (Source.readModule jobSource.text).isOk = true
      ∧ Source.Tokens.isOrderly [] (Source.Lexer.tokens jobSource.text) = true
      ∧ (∀ c ∈ jobSource.classes, c.isUnbroken = true)
      ∧ (Source.readModule jobSource.withReturns.text).isOk = true
      ∧ (extractSource {} {} jobSource.withReturns).run.value = (extractSource {} {} jobSource).run.value := by
  have hreturn : '\r' ∉ jobSource.text.toList := by decide +kernel
  have hread : (Source.readModule jobSource.text).isOk = true := by decide +kernel
  have horderly : Source.Tokens.isOrderly [] (Source.Lexer.tokens jobSource.text) = true := by decide +kernel
  have hunbroken : ∀ c ∈ jobSource.classes, c.isUnbroken = true := by decide +kernel
  exact ⟨plain_builtin, hreturn, hread, horderly, hunbroken,
    extractSource_withReturns plain_builtin hreturn hread horderly hunbroken {}⟩

/-- A default that breaks over two lines. -/
def quotedSource : SourceFile where
  location := "a.py"
  text := "class A:\n    def run(self, x=\x22\x22\x22a\nb\x22\x22\x22):\n        pass\n"

/-- The collection of this source text, by the value of the default. -/
def quotedCollection (value : String) : Collection :=
  ⟨[{ name := "A", location := "a.py",
      commands := [{ name := "run", help := Docstring.noDocumentation,
                     args := [{ Argument.ofParameter "x" with
                       default := some (.str value), help := Docstring.noDocumentation }] }] }]⟩

/-- **A carriage return stays in a string** that breaks over lines, and so in the value of a default. -/
theorem line_ends_not_ignored :
    '\r' ∉ quotedSource.text.toList ∧ (Source.readModule quotedSource.text).isOk = true
      ∧ Source.Tokens.isOrderly [] (Source.Lexer.tokens quotedSource.text) = true
      ∧ (extractSource {} {} quotedSource).run.value = .ok (quotedCollection "a\nb")
      ∧ (extractSource {} {} quotedSource.withReturns).run.value = .ok (quotedCollection "a\r\nb")
      ∧ quotedCollection "a\r\nb" ≠ quotedCollection "a\nb" := by
  refine ⟨by decide +kernel, by decide +kernel, by decide +kernel, by decide +kernel, by decide +kernel, ?_⟩
  decide +kernel

end Extraction

end ClassCli
