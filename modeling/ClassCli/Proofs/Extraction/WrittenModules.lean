import ClassCli.Proofs.Extraction.WrittenClasses
import ClassCli.Proofs.Source.LikeModules

/-!
# Modules as they are written

Every word that the lexer splits off is an identifier, and a reader makes names of words only. So every
name in the tree of a module is an identifier; the one exception is a tuple of parameters with a
default, which is named by its text. The classes that extraction visits are those that are written outside
other classes, and the arguments that it makes are named after the parameters that are written in their
methods.

* **`Source.readModule_named`** — the names in the tree of a module are identifiers.
* **`classesOfAll_lowerBlock`** — the classes of a lowered module are those that are written in it.
* **`exists_param_of_collection`** — every argument comes from a written parameter.
* **`classesOf_like`**, **`functionsOf_like`** — alike trees have alike classes and methods.
-/

namespace ClassCli.Source

open Text (isIdentifier isIdentifierPart isIdentifierStart)

/-- Whether a lexeme is an identifier if it is a word. -/
def Lexeme.IsNamed : Lexeme → Prop
  | .word text => isIdentifier text.toList = true
  | _ => True

theorem textStep_isNamed (q : Lexer.Quoting) (outer : List Lexer.Nesting) (s : List Char) :
    (Lexer.textStep q outer s).lexeme.IsNamed := by
  unfold Lexer.textStep
  repeat' split
  all_goals trivial

theorem specificationStep_isNamed (outer : List Lexer.Nesting) (s : List Char) :
    (Lexer.specificationStep outer s).lexeme.IsNamed := by
  unfold Lexer.specificationStep
  repeat' split
  all_goals trivial

theorem codeStep_isNamed (nesting : List Lexer.Nesting) (s : List Char) :
    (Lexer.codeStep nesting s).lexeme.IsNamed := by
  have hword (c : Char) (rest : List Char) (hc : isIdentifierStart c = true) :
      isIdentifier (String.ofList (c :: rest.takeWhile isIdentifierPart)).toList = true := by
    rw [String.toList_ofList, isIdentifier, hc, Bool.true_and]
    exact List.all_takeWhile
  unfold Lexer.codeStep
  repeat' split
  all_goals first
    | trivial
    | exact hword _ _ ‹_›

theorem isNamed_of_mem_tokensFrom (fuel : Nat) (nesting : List Lexer.Nesting) (line : Nat)
    (s : List Char) : ∀ t ∈ Lexer.tokensFrom fuel nesting line s, t.lexeme.IsNamed := by
  induction fuel generalizing nesting line s with
  | zero =>
    intro t ht
    obtain rfl := List.mem_singleton.mp ht
    trivial
  | succ fuel ih =>
    unfold Lexer.tokensFrom
    split
    · rintro t (_ | ⟨_, ht⟩)
      · exact textStep_isNamed _ _ _
      · exact ih _ _ _ t ht
    · rintro t (_ | ⟨_, ht⟩)
      · exact specificationStep_isNamed _ _
      · exact ih _ _ _ t ht
    · dsimp only
      have hbreaks {gap : Gap} {t : Token}
          (ht : t ∈ if gap.crosses && nesting.isEmpty then [(⟨.lineBreak gap.indent, "", [], line⟩ : Token)]
            else []) : t.lexeme.IsNamed := by
        split at ht
        · obtain rfl := List.mem_singleton.mp ht
          trivial
        · cases ht
      split
      · intro t ht
        rcases List.mem_append.mp ht with ht | ht
        · exact hbreaks ht
        · obtain rfl := List.mem_singleton.mp ht
          exact codeStep_isNamed _ _
      · intro t ht
        rcases List.mem_append.mp ht with ht | ht | ⟨_, ht⟩
        · exact hbreaks ht
        · exact codeStep_isNamed _ _
        · exact ih _ _ _ t ht

/-- **Words are identifiers.** -/
theorem isNamed_of_mem_tokens {source : String} {t : Token} (h : t ∈ Lexer.tokens source) :
    t.lexeme.IsNamed :=
  isNamed_of_mem_tokensFrom _ _ _ _ t h

/-- A text is like itself only, and words are identifiers. -/
def Likeness.named : Likeness where
  Text a b := a = b
  Word text := isIdentifier text.toList = true
  Within _ := True
  empty := rfl
  append h h' := by rw [h, h']
  tail _ := trivial

theorem like_tokens (source : String) :
    Tokens.Like .named (Lexer.tokens source) (Lexer.tokens source) := by
  refine ⟨List.forall₂_same.2 fun t ht => ⟨?_, rfl, List.forall₂_same.2 fun _ _ => rfl, rfl⟩, trivial⟩
  have hnamed := isNamed_of_mem_tokens ht
  cases hl : t.lexeme with
  | word text =>
    rw [hl] at hnamed
    exact .same _ hnamed rfl
  | string => exact .string rfl
  | formatText => exact .formatText rfl
  | stray => exact .stray rfl
  | _ => exact .same _ trivial rfl

/-- **The names in the tree of a module are identifiers**, tuples of parameters aside. -/
theorem readModule_named {source : String} {stmts : List Stmt} (h : readModule source = .ok stmts) :
    Stmts.Like .named stmts stmts := by
  rcases readModule_like (like_tokens source) with ⟨e, e', hread, -⟩ | ⟨a, b, ha, hb, hlike⟩
  · rw [h] at hread
    cases hread
  · rw [h] at ha hb
    cases ha
    cases hb
    exact hlike

end ClassCli.Source

namespace ClassCli

namespace Source

mutual

/-- The classes in a statement that do not stand inside another class. -/
def classesOf : Stmt → List ClassDefinition
  | .classDef decorators name body line => [⟨decorators, name, body, line⟩]
  | .functionDef _ _ _ _ body _ => classesOfBlock body
  | .compound suites => classesOfSuites suites
  | _ => []

/-- The classes in the statements of a block that do not stand inside another class. -/
def classesOfBlock : List Stmt → List ClassDefinition
  | [] => []
  | stmt :: stmts => classesOf stmt ++ classesOfBlock stmts

/-- The classes in the suites of a compound statement that do not stand inside another class. -/
def classesOfSuites : List (List Stmt) → List ClassDefinition
  | [] => []
  | suite :: suites => classesOfBlock suite ++ classesOfSuites suites

end

/-! ## Alike classes and methods -/

/-- Alike functions. -/
structure Definition.Like (L : Likeness) (d d' : Definition) : Prop where
  decorators : List.Forall₂ (Expr.Like L) d.decorators d'.decorators
  name : L.SameWord d.name d'.name
  params : List.Forall₂ (Param.Like L) d.params d'.params
  returns : Option.Rel L.Text d.returns d'.returns
  body : Stmts.Like L d.body d'.body
  line : d.line = d'.line

/-- Alike classes. -/
structure ClassDefinition.Like (L : Likeness) (c c' : ClassDefinition) : Prop where
  decorators : List.Forall₂ (Expr.Like L) c.decorators c'.decorators
  name : L.SameWord c.name c'.name
  body : Stmts.Like L c.body c'.body
  line : c.line = c'.line

variable {L : Likeness}

mutual

theorem functionsOf_like {s s' : Stmt} (h : Stmt.Like L s s') :
    List.Forall₂ (Definition.Like L) (functionsOf s) (functionsOf s') := by
  cases h with
  | functionDef hdecorators hword hparams hreturns hbody =>
    exact .cons ⟨hdecorators, ⟨rfl, hword⟩, hparams, hreturns, hbody, rfl⟩ .nil
  | compound hsuites => exact functionsOfSuites_like hsuites
  | _ => exact .nil

theorem functionsOfBlock_like {body body' : List Stmt} (h : Stmts.Like L body body') :
    List.Forall₂ (Definition.Like L) (functionsOfBlock body) (functionsOfBlock body') := by
  cases h with
  | nil => exact .nil
  | cons hs h => exact List.rel_append (functionsOf_like hs) (functionsOfBlock_like h)

theorem functionsOfSuites_like {suites suites' : List (List Stmt)}
    (h : List.Forall₂ (Stmts.Like L) suites suites') :
    List.Forall₂ (Definition.Like L) (functionsOfSuites suites) (functionsOfSuites suites') := by
  cases h with
  | nil => exact .nil
  | cons hsuite h => exact List.rel_append (functionsOfBlock_like hsuite) (functionsOfSuites_like h)

end

mutual

theorem classesOf_like {s s' : Stmt} (h : Stmt.Like L s s') :
    List.Forall₂ (ClassDefinition.Like L) (classesOf s) (classesOf s') := by
  cases h with
  | classDef hdecorators hword hbody => exact .cons ⟨hdecorators, ⟨rfl, hword⟩, hbody, rfl⟩ .nil
  | functionDef _ _ _ _ hbody => exact classesOfBlock_like hbody
  | compound hsuites => exact classesOfSuites_like hsuites
  | _ => exact .nil

theorem classesOfBlock_like {body body' : List Stmt} (h : Stmts.Like L body body') :
    List.Forall₂ (ClassDefinition.Like L) (classesOfBlock body) (classesOfBlock body') := by
  cases h with
  | nil => exact .nil
  | cons hs h => exact List.rel_append (classesOf_like hs) (classesOfBlock_like h)

theorem classesOfSuites_like {suites suites' : List (List Stmt)}
    (h : List.Forall₂ (Stmts.Like L) suites suites') :
    List.Forall₂ (ClassDefinition.Like L) (classesOfSuites suites) (classesOfSuites suites') := by
  cases h with
  | nil => exact .nil
  | cons hsuite h => exact List.rel_append (classesOfBlock_like hsuite) (classesOfSuites_like h)

end

end Source

namespace Outline

open Extraction (classesOf classesOfAll)
open Source (ClassDefinition)

/-! ## Classes of a lowered module -/

theorem classesOfAll_append (front back : List Node) :
    classesOfAll (front ++ back) = classesOfAll front ++ classesOfAll back := by
  induction front with
  | nil => rfl
  | cons node rest ih => rw [List.cons_append, classesOfAll, classesOfAll, ih, List.append_assoc]

theorem classesOf_compoundOf (body : List Node) : classesOf (compoundOf body) = classesOfAll body := by
  cases body with
  | nil => rfl
  | cons node rest => rfl

/-- What extraction sees of a written class. -/
def lowerClass (c : ClassDefinition) : ClassHead × List Node := (headOf c, lowerBlock c.body)

mutual

theorem classesOf_lowerStmt :
    ∀ stmt, classesOf (lowerStmt stmt) = (Source.classesOf stmt).map lowerClass
  | .classDef decorators name body line => rfl
  | .functionDef decorators name params returns body line => classesOfAll_lowerBlock body
  | .compound suites => by
    rw [lowerStmt, classesOf_compoundOf, classesOfAll_lowerSuites, Source.classesOf]
  | .importNames _ | .importFrom .. | .expression _ | .assign _ | .other => rfl

/-- **The classes of a lowered module** are those that are written in it, in the same order. -/
theorem classesOfAll_lowerBlock :
    ∀ stmts, classesOfAll (lowerBlock stmts) = (Source.classesOfBlock stmts).map lowerClass
  | [] => rfl
  | stmt :: stmts => by
    rw [lowerBlock, classesOfAll, classesOf_lowerStmt stmt, classesOfAll_lowerBlock stmts,
      Source.classesOfBlock, List.map_append]

theorem classesOfAll_lowerSuites :
    ∀ suites, classesOfAll (lowerSuites suites) = (Source.classesOfSuites suites).map lowerClass
  | [] => rfl
  | suite :: suites => by
    rw [lowerSuites, classesOfAll_append, classesOfAll_lowerBlock suite, classesOfAll_lowerSuites suites,
      Source.classesOfSuites, List.map_append]

end

end Outline

namespace Extraction

open Interface (Argument Collection Module)
open Outline (lowerBlock lowerExpr outlineOf)
open Source (ClassDefinition Definition)

/-! ## Methods and arguments -/

/-- The statements of a source text; none if it cannot be read. -/
def SourceFile.statements (file : SourceFile) : List Source.Stmt :=
  (Source.readModule file.text).toOption.getD []

/-- The classes that are written in a source text outside other classes. -/
def SourceFile.classes (file : SourceFile) : List ClassDefinition := Source.classesOfBlock file.statements

theorem statements_eq {file : SourceFile} {outline : List Outline.Node}
    (h : Outline.outline? file.text = .ok outline) :
    Source.readModule file.text = .ok file.statements ∧ outline = lowerBlock file.statements := by
  unfold Outline.outline? at h
  unfold SourceFile.statements
  cases hread : Source.readModule file.text with
  | error line =>
    rw [hread] at h
    cases h
  | ok stmts =>
    rw [hread] at h
    cases h
    exact ⟨rfl, rfl⟩

/-- What the reader makes of a source text consists of words and of texts. -/
theorem classes_like (file : SourceFile) :
    List.Forall₂ (ClassDefinition.Like .named) file.classes file.classes := by
  unfold SourceFile.classes SourceFile.statements
  cases hread : Source.readModule file.text with
  | error line => exact .nil
  | ok stmts => exact Source.classesOfBlock_like (Source.readModule_named hread)

/-- Every method of the classes in a source text is written in one of them. -/
theorem exists_definition_of_mem_methodsIn {file : SourceFile} {f : Outline.Function}
    (h : f ∈ methodsIn file) : ∃ c ∈ file.classes, ∃ d ∈ c.functions, f = outlineOf d := by
  unfold methodsIn at h
  split at h
  · rename_i outline houtline
    obtain ⟨-, rfl⟩ := statements_eq houtline
    rw [Outline.classesOfAll_lowerBlock] at h
    obtain ⟨entry, hentry, hf⟩ := List.mem_flatMap.mp h
    obtain ⟨c, hc, rfl⟩ := List.mem_map.mp hentry
    have hf : f ∈ (methods (lowerBlock c.body)).values := hf
    rw [methods_eq, Outline.bodyFunctions_lowerBlock] at hf
    have hlast := Entries.findRev?_of_mem_collect _ hf
    rw [List.findRev?_eq_find?_reverse] at hlast
    obtain ⟨d, hd, rfl⟩ := List.mem_map.mp (List.mem_reverse.mp (List.mem_of_find?_eq_some hlast))
    exact ⟨c, hc, d, hd, rfl⟩
  · cases h

/-- An argument of a written method has the name of one of its parameters, and the value that is written
beside it if the defaults come last. -/
theorem exists_param_of_mem_arguments_outlineOf {convention : Docstring.Convention} {d : Definition}
    {attached : List String} {arg : Argument}
    (h : arg ∈ (arguments convention (outlineOf d) attached).value) :
    ∃ p ∈ d.explicit, arg.destination = p.name
      ∧ (Source.DefaultsLast d.params → arg.default = p.default.bind fun x => (lowerExpr x).literal?) := by
  by_cases hlast : Source.DefaultsLast d.params
  · have hmem := List.mem_map_of_mem (f := fun arg : Argument => (arg.destination, arg.default)) h
    rw [map_arguments_outlineOf hlast] at hmem
    obtain ⟨p, hp, hwritten⟩ := List.mem_map.mp hmem
    obtain ⟨hname, hdefault⟩ := Prod.mk.inj hwritten
    exact ⟨p, (List.mem_filter.mp hp).1, hname.symm, fun _ => hdefault.symm⟩
  · obtain ⟨param, hparam, hname⟩ := exists_param_of_mem_arguments h
    rw [explicitParams_outlineOf] at hparam
    obtain ⟨p, hp, rfl⟩ := List.mem_map.mp hparam
    exact ⟨p, hp, hname, fun hcontra => absurd hcontra hlast⟩

/-- **Every argument comes from a written parameter** of a method of a class in one of the texts. -/
theorem exists_param_of_collection {settings : Settings} {files : List SourceFile}
    {collection : Collection} (h : (extractSources settings files).run.value = .ok collection) :
    ∀ m ∈ collection.modules, ∀ arg ∈ m.args ++ m.commands.flatMap (·.args),
      ∃ file ∈ files, ∃ c ∈ file.classes, ∃ d ∈ c.functions, ∃ p ∈ d.explicit,
        arg.destination = p.name
          ∧ (Source.DefaultsLast d.params → arg.default = p.default.bind fun x => (lowerExpr x).literal?) := by
  have hargs := each_arguments_of_extractSources
    (P := fun args => ∀ arg ∈ args, ∃ file ∈ files, ∃ c ∈ file.classes, ∃ d ∈ c.functions,
      ∃ p ∈ d.explicit, arg.destination = p.name
        ∧ (Source.DefaultsLast d.params → arg.default = p.default.bind fun x => (lowerExpr x).literal?))
    (List.forall_mem_nil _) ?_ h
  · intro m hm arg harg
    obtain ⟨hconstructor, hcommands⟩ := hargs m hm
    rcases List.mem_append.mp harg with harg | harg
    · exact hconstructor arg harg
    · obtain ⟨command, hcommand, harg⟩ := List.mem_flatMap.mp harg
      exact hcommands command hcommand arg harg
  · intro file hfile f hf attached arg harg
    obtain ⟨c, hc, d, hd, rfl⟩ := exists_definition_of_mem_methodsIn hf
    exact ⟨file, hfile, c, hc, d, hd, exists_param_of_mem_arguments_outlineOf harg⟩

end Extraction

end ClassCli
