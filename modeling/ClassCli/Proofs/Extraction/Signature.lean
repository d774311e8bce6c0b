import ClassCli.Outline.Lowering
import ClassCli.Proofs.Extraction.Sources

/-!
# Signatures as they are written

Lowering takes a parameter list apart: names here, defaults there, positional ones apart from those behind
a star. Extraction puts the parts together again. If, as Python has it, no positional parameter without a
default comes behind one with a default, every parameter gets back the default that was written beside it.

* **`Definition`** — a function as it is written, with the parameters that a caller passes.
* **`sortParams_sortsInto`** — what lowering makes of a parameter list.
* **`alignRight_filterMap`** — defaults beside the last places are beside their own.
* **`defaulted_outlineOf`** — the parameters with the defaults that were written beside them.
* **`arguments_of_signature`** — the arguments of a command and of a constructor, told from the signature.
-/

namespace ClassCli

namespace Source

/-! ## Parameters -/

/-- A parameter with a name of its own. -/
structure NamedParam where
  name : String
  typeHint : Option String
  /-- The expression that is written beside it. -/
  default : Option Expr
  deriving Repr, Inhabited

/-- A parameter with a name, unless it takes whatever is left. -/
def Param.named? : Param → Option NamedParam
  | .plain name typeHint default => some ⟨name, typeHint, default⟩
  | _ => none

/-- Whether the parameters behind this one are passed by keyword only. -/
def Param.isStar : Param → Bool
  | .star .. | .bareStar => true
  | _ => false

/-- The named parameters in front of the first star. -/
def positional (params : List Param) : List NamedParam :=
  (params.takeWhile (!·.isStar)).filterMap Param.named?

/-- The named parameters behind the first star. -/
def keywordOnly (params : List Param) : List NamedParam :=
  (params.dropWhile (!·.isStar)).filterMap Param.named?

/-- Whether no positional parameter without a default comes behind one with a default. -/
def DefaultsLast (params : List Param) : Prop :=
  (positional params).Pairwise fun earlier later => earlier.default.isSome → later.default.isSome

theorem positional_cons {param : Param} (h : param.isStar = false) (rest : List Param) :
    positional (param :: rest) = param.named?.toList ++ positional rest := by
  rw [positional, List.takeWhile_cons_of_pos (by rw [h]; rfl), List.filterMap_cons]
  cases param.named? with
  | none => rfl
  | some named => rfl

theorem keywordOnly_cons {param : Param} (h : param.isStar = false) (rest : List Param) :
    keywordOnly (param :: rest) = keywordOnly rest := by
  rw [keywordOnly, List.dropWhile_cons_of_pos (by rw [h]; rfl)]
  rfl

theorem positional_star {param : Param} (h : param.isStar = true) (rest : List Param) :
    positional (param :: rest) = [] := by
  rw [positional, List.takeWhile_cons_of_neg (by rw [h]; exact Bool.false_ne_true)]
  rfl

theorem keywordOnly_star {param : Param} (h : param.isStar = true) (rest : List Param) :
    keywordOnly (param :: rest) = rest.filterMap Param.named? := by
  have hnone : param.named? = none := by
    cases param with
    | plain => cases h
    | _ => rfl
  rw [keywordOnly, List.dropWhile_cons_of_neg (by rw [h]; exact Bool.false_ne_true),
    List.filterMap_cons_none hnone]

/-! ## Functions -/

/-- A function as it is written. -/
structure Definition where
  decorators : List Expr
  name : String
  params : List Param
  returns : Option String
  body : List Stmt
  line : Nat
  deriving Repr, Inhabited

/-- The bare name that an expression is, brackets aside. -/
def Expr.bareName? : Expr → Option String
  | .name text => some text
  | .group inner => bareName? inner
  | .keyword _ value => bareName? value
  | _ => .none

namespace Definition

/-- The statement. -/
def stmt (d : Definition) : Stmt := .functionDef d.decorators d.name d.params d.returns d.body d.line

/-- Whether the function is decorated with the bare name of static methods, and takes no receiver. -/
def isStatic (d : Definition) : Bool := d.decorators.any (·.bareName? == some "staticmethod")

/-- The named parameters without the receiver, positional ones first. -/
def explicit (d : Definition) : List NamedParam :=
  (positional d.params).drop (if d.isStatic then 0 else 1) ++ keywordOnly d.params

end Definition

end Source

namespace Outline

open Source (Definition NamedParam)

/-! ## What lowering keeps -/

/-- A named parameter with its annotation read. -/
def lowerNamed (p : NamedParam) : Param := namedParam p.name p.typeHint

/-- The default of a named parameter, read. -/
def lowerDefault (p : NamedParam) : Option Expr := p.default.map lowerExpr

/-- Some parameters are others with further ones, those in front of the star and those behind it. -/
structure SortsInto (ps : Parameters) (front behind : List NamedParam) (result : Parameters) : Prop where
  args : result.args = ps.args ++ front.map lowerNamed
  defaults : result.defaults = ps.defaults ++ front.filterMap lowerDefault
  keywordOnly : result.keywordOnly = ps.keywordOnly ++ behind.map lowerNamed
  keywordDefaults : result.keywordDefaults = ps.keywordDefaults ++ behind.map lowerDefault

theorem SortsInto.refl (ps : Parameters) : SortsInto ps [] [] ps := by
  constructor
  all_goals exact (List.append_nil _).symm

theorem SortsInto.cons_positional {ps result : Parameters} {p : NamedParam} {others keyword : List NamedParam}
    (h : SortsInto (ps.add false (lowerNamed p) (lowerDefault p)) others keyword result) :
    SortsInto ps (p :: others) keyword result where
  args := by
    rw [h.args, Parameters.add, List.map_cons]
    simp
  defaults := by
    rw [h.defaults, Parameters.add, List.filterMap_cons]
    cases lowerDefault p with
    | none => simp
    | some x => simp
  keywordOnly := h.keywordOnly
  keywordDefaults := h.keywordDefaults

theorem SortsInto.cons_keywordOnly {ps result : Parameters} {p : NamedParam} {others : List NamedParam}
    (h : SortsInto (ps.add true (lowerNamed p) (lowerDefault p)) [] others result) :
    SortsInto ps [] (p :: others) result where
  args := h.args
  defaults := h.defaults
  keywordOnly := by
    rw [h.keywordOnly, Parameters.add, List.map_cons]
    simp
  keywordDefaults := by
    rw [h.keywordDefaults, Parameters.add, List.map_cons]
    simp

/-- Behind a star all named parameters are keyword-only. -/
theorem sortParams_behind_star (params : List Source.Param) :
    ∀ ps, SortsInto ps [] (params.filterMap Source.Param.named?) (sortParams true ps params) := by
  induction params with
  | nil => exact SortsInto.refl
  | cons param rest ih =>
    intro ps
    cases param with
    | plain name typeHint default => exact SortsInto.cons_keywordOnly (ih _)
    | star name typeHint =>
      have h := ih { ps with rest := name.map (namedParam · typeHint) }
      exact ⟨h.args, h.defaults, h.keywordOnly, h.keywordDefaults⟩
    | doubleStar name typeHint =>
      have h := ih { ps with keywordRest := name.map (namedParam · typeHint) }
      exact ⟨h.args, h.defaults, h.keywordOnly, h.keywordDefaults⟩
    | _ => exact ih ps

/-- **What lowering makes of a parameter list.** -/
theorem sortParams_sortsInto (params : List Source.Param) :
    ∀ ps, SortsInto ps (Source.positional params) (Source.keywordOnly params) (sortParams false ps params) := by
  induction params with
  | nil => exact SortsInto.refl
  | cons param rest ih =>
    intro ps
    cases param with
    | plain name typeHint default =>
      rw [Source.positional_cons rfl, Source.keywordOnly_cons rfl]
      exact SortsInto.cons_positional (ih _)
    | star name typeHint =>
      rw [Source.positional_star rfl, Source.keywordOnly_star rfl]
      have h := sortParams_behind_star rest { ps with rest := name.map (namedParam · typeHint) }
      exact ⟨h.args, h.defaults, h.keywordOnly, h.keywordDefaults⟩
    | bareStar =>
      rw [Source.positional_star rfl, Source.keywordOnly_star rfl]
      exact sortParams_behind_star rest ps
    | doubleStar name typeHint =>
      rw [Source.positional_cons rfl, Source.keywordOnly_cons rfl]
      have h := ih { ps with keywordRest := name.map (namedParam · typeHint) }
      exact ⟨h.args, h.defaults, h.keywordOnly, h.keywordDefaults⟩
    | _ =>
      rw [Source.positional_cons rfl, Source.keywordOnly_cons rfl]
      exact ih ps

/-! ## Functions -/

/-- What a function shows of itself. -/
def outlineOf (d : Definition) : Function where
  name := d.name
  parameters := lowerParams d.params
  decorators := d.decorators.map lowerExpr
  returns := d.returns.map TypeExpr.parse
  docstring := docstring? d.body
  line := d.line

/-- **A written function** becomes the function of its outline. -/
theorem lowerStmt_stmt (d : Definition) :
    lowerStmt d.stmt = .functionDef (outlineOf d) (lowerBlock d.body) := rfl

theorem lowerParams_sortsInto (params : List Source.Param) :
    SortsInto {} (Source.positional params) (Source.keywordOnly params) (lowerParams params) :=
  sortParams_sortsInto params {}

/-- An expression is read as a bare name exactly if it is one. -/
theorem lowerExpr_eq_name {x : Source.Expr} {text : String} :
    lowerExpr x = .name text ↔ x.bareName? = some text := by
  have hliteral : ∀ {α : Type} (shown : String) (wrap : α → Literal) (value? : Option α),
      literalOr shown wrap value? ≠ .name text := by
    intro α shown wrap value?
    cases value? with
    | none => exact Expr.noConfusion
    | some value => exact Expr.noConfusion
  fun_induction Source.Expr.bareName? x with
  | case1 found => simp [lowerExpr]
  | case2 inner ih =>
    rw [lowerExpr]
    exact ih
  | case3 name value ih =>
    rw [lowerExpr]
    exact ih
  | case4 x hname hgroup hkeyword =>
    cases x with
    | name found => exact absurd rfl (hname found)
    | group inner => exact absurd rfl (hgroup inner)
    | keyword name value => exact absurd rfl (hkeyword name value)
    | _ => simp [lowerExpr, hliteral]

theorem isStatic_outlineOf (d : Definition) : (outlineOf d).isStatic = d.isStatic := by
  rw [Function.isStatic, Function.hasDecorator, outlineOf, Definition.isStatic, List.any_map]
  congr 1
  funext x
  rw [Function.comp_apply, Bool.eq_iff_iff, beq_iff_eq, ← lowerExpr_eq_name]
  split
  · rename_i text htext
    rw [htext, beq_iff_eq, Expr.name.injEq]
  · rename_i hother
    constructor
    · exact fun h => absurd h Bool.false_ne_true
    · exact fun h => absurd h (hother _)

end Outline

namespace Extraction

open Outline (lowerDefault lowerExpr lowerNamed outlineOf)
open Source (Definition NamedParam)

/-! ## Defaults beside their parameters -/

theorem alignRight_cons {α : Type} {places : Nat} {values : List α} (h : values.length ≤ places) :
    alignRight (places + 1) values = none :: alignRight places values := by
  rw [alignRight, alignRight, Nat.succ_sub h, List.replicate_succ, List.cons_append,
    List.take_of_length_le (by rw [List.length_map]; omega),
    List.take_of_length_le (by rw [List.length_map]; omega)]

theorem map_some_filterMap_id {α : Type} {places : List (Option α)} (h : ∀ place ∈ places, place.isSome) :
    (places.filterMap id).map some = places := by
  induction places with
  | nil => rfl
  | cons first rest ih =>
    rw [List.forall_mem_cons] at h
    obtain ⟨value, rfl⟩ := Option.isSome_iff_exists.mp h.1
    rw [List.filterMap_cons_some (rfl : id (some value) = some value), List.map_cons, ih h.2]

/-- **Values beside the last places** are beside their own if no place without a value comes behind one with
a value. -/
theorem alignRight_filterMap {α : Type} {places : List (Option α)}
    (h : places.Pairwise fun earlier later => earlier.isSome → later.isSome) :
    alignRight places.length (places.filterMap id) = places := by
  induction places with
  | nil => rfl
  | cons first rest ih =>
    rw [List.pairwise_cons] at h
    cases first with
    | none =>
      rw [List.length_cons, List.filterMap_cons_none rfl, alignRight_cons (List.length_filterMap_le _ _),
        ih h.2]
    | some value =>
      -- from here on every place has a value
      have hall : ∀ place ∈ some value :: rest, place.isSome :=
        List.forall_mem_cons.mpr ⟨rfl, fun place hplace => h.1 place hplace rfl⟩
      have hvalues := map_some_filterMap_id hall
      have hlength : ((some value :: rest).filterMap id).length = (some value :: rest).length := by
        rw [← List.length_map some, hvalues]
      rw [alignRight, hlength, Nat.sub_self, List.replicate_zero, List.nil_append, hvalues, List.take_length]

/-! ## The parameters that a caller passes -/

theorem args_outlineOf (d : Definition) :
    (outlineOf d).parameters.args = (Source.positional d.params).map lowerNamed :=
  (Outline.lowerParams_sortsInto d.params).args

/-- Without the receiver there is what is behind the first positional parameter, if a function takes one. -/
theorem drop_receiverCount {α : Type} (d : Definition) (f : NamedParam → α) :
    ((Source.positional d.params).map f).drop (outlineOf d).receiverCount
      = ((Source.positional d.params).drop (if d.isStatic then 0 else 1)).map f := by
  rw [Outline.Function.receiverCount, Outline.isStatic_outlineOf, args_outlineOf, List.isEmpty_map,
    List.map_drop]
  cases d.isStatic with
  | true => rfl
  | false =>
    cases Source.positional d.params with
    | nil => rfl
    | cons first rest => rfl

/-- **The parameters that a caller passes**, whatever their defaults. -/
theorem explicitParams_outlineOf (d : Definition) :
    (outlineOf d).explicitParams = d.explicit.map lowerNamed := by
  rw [Outline.Function.explicitParams, Outline.Function.positional, args_outlineOf, drop_receiverCount,
    Definition.explicit, List.map_append]
  exact congrArg _ (Outline.lowerParams_sortsInto d.params).keywordOnly

/-- A lowered function has a place for the default of each keyword-only parameter. -/
theorem length_keywordDefaults_outlineOf (d : Definition) :
    (outlineOf d).parameters.keywordDefaults.length = (outlineOf d).parameters.keywordOnly.length := by
  have hsorts : Outline.SortsInto {} _ _ (outlineOf d).parameters :=
    Outline.lowerParams_sortsInto d.params
  rw [hsorts.keywordOnly, hsorts.keywordDefaults]
  simp

/-- **The parameters of a lowered function**, each with the default that is written beside it. -/
theorem defaulted_outlineOf {d : Definition} (h : Source.DefaultsLast d.params) :
    defaulted (outlineOf d) = d.explicit.map fun p => (lowerNamed p, lowerDefault p) := by
  have hsorts : Outline.SortsInto {} _ _ (outlineOf d).parameters :=
    Outline.lowerParams_sortsInto d.params
  have hdefaults : (outlineOf d).parameters.defaults
      = ((Source.positional d.params).map lowerDefault).filterMap id := by
    rw [hsorts.defaults, List.filterMap_map]
    rfl
  have haligned : alignRight (outlineOf d).parameters.args.length (outlineOf d).parameters.defaults
      = (Source.positional d.params).map lowerDefault := by
    rw [hdefaults, args_outlineOf, List.length_map, ← List.length_map lowerDefault]
    refine alignRight_filterMap (List.pairwise_map.mpr (h.imp fun hpair => ?_))
    rw [lowerDefault, lowerDefault, Option.isSome_map, Option.isSome_map]
    exact hpair
  have hkeyword : (outlineOf d).parameters.keywordOnly.zip (outlineOf d).parameters.keywordDefaults
      = (Source.keywordOnly d.params).map fun p => (lowerNamed p, lowerDefault p) := by
    rw [hsorts.keywordOnly, hsorts.keywordDefaults]
    exact List.zip_map' ..
  rw [defaulted, haligned, args_outlineOf, List.zip_map', drop_receiverCount, hkeyword, Definition.explicit,
    List.map_append]

/-! ## Arguments -/

/-- The parameter that a flag of a method names: the one that gets the configuration. -/
def configuredBy? (flag : Interface.Flag) : Option String :=
  if flag.name = Marker.hydraName then
    match Entries.get? "config_var_name" flag.values with
    | some (.str name) => some name
    | _ => none
  else none

/-- The parameters that the flags of a method name. -/
def configured (flags : List Interface.Flag) : List String := flags.filterMap configuredBy?

theorem attached_builtin (home : String) (flags : List Interface.Flag) :
    (Marker.Registry.builtin home).attached flags = configured flags := by
  refine List.filterMap_congr fun flag _ => ?_
  have hget : (Marker.Registry.builtin home).get? flag.name
      = if Marker.hydraName = flag.name then some Marker.hydra else none := rfl
  rw [Marker.Registry.attachedBy?, hget, configuredBy?]
  by_cases hname : flag.name = Marker.hydraName
  · rw [if_pos hname.symm, if_pos hname]
    rfl
  · rw [if_neg (Ne.symm hname), if_neg hname]
    rfl

/-- What an argument takes from a parameter: the name, and the value of the default if it is a literal. -/
def writtenArgument (p : NamedParam) : String × Option Literal :=
  (p.name, p.default.bind fun x => (lowerExpr x).literal?)

theorem value_defaultOf (method parameter : String) (default : Option Outline.Expr) :
    (defaultOf method parameter default).value = default.bind Outline.Expr.literal? := by
  cases default with
  | none => rfl
  | some x =>
    rw [defaultOf]
    cases hvalue : x.literal? with
    | none => exact hvalue.symm
    | some value => exact hvalue.symm

/-- The arguments of a written function. -/
theorem map_arguments_outlineOf {d : Definition} (h : Source.DefaultsLast d.params)
    (convention : Docstring.Convention) (attached : List String) :
    (arguments convention (outlineOf d) attached).value.map (fun arg => (arg.destination, arg.default))
      = (d.explicit.filter fun p => !attached.contains p.name).map writtenArgument := by
  rw [value_arguments, defaulted_outlineOf h, List.filter_map, List.map_map, List.map_map]
  refine List.map_congr_left fun p _ => ?_
  show (p.name, (defaultOf (outlineOf d).name p.name (lowerDefault p)).value) = writtenArgument p
  rw [value_defaultOf, lowerDefault, Option.bind_map]
  rfl

/-- **The arguments of a method are told from its signature.** With the defaults at the end of the positional
parameters, a command has one argument for each named parameter, in order, without the receiver and without
the parameters that its flags name; a constructor has them all. The default of an argument is the value that
is written beside the parameter, if one is and it is a literal. -/
theorem arguments_of_signature {settings : Settings} {home : String} {d : Definition}
    (hregistry : settings.registry = .builtin home) (hdefaults : Source.DefaultsLast d.params)
    (hdocumented : Documented settings (outlineOf d)) (scope : Marker.Bindings) (className : String) :
    Outline.lowerStmt d.stmt = .functionDef (outlineOf d) (Outline.lowerBlock d.body)
      ∧ (∃ command, (commandOf settings scope className (outlineOf d)).run.value = .ok command
        ∧ command.args.map (fun arg => (arg.destination, arg.default))
          = (d.explicit.filter fun p => !(configured command.flags).contains p.name).map writtenArgument)
      ∧ ∃ args, (checkedArguments settings className (outlineOf d) []).run.value = .ok args
        ∧ args.map (fun arg => (arg.destination, arg.default)) = d.explicit.map writtenArgument := by
  refine ⟨Outline.lowerStmt_stmt d, ?_, ?_⟩
  · refine ⟨_, commandOf_eq_ok_iff.mpr ⟨hdocumented, rfl⟩, ?_⟩
    rw [commandFrom, hregistry, attached_builtin]
    exact map_arguments_outlineOf hdefaults settings.convention _
  · refine ⟨_, checkedArguments_eq_ok_iff.mpr ⟨hdocumented, rfl⟩, ?_⟩
    have hall : (d.explicit.filter fun p => !([] : List String).contains p.name) = d.explicit :=
      List.filter_eq_self.mpr fun p _ => rfl
    rw [map_arguments_outlineOf hdefaults, hall]

/-- A method with parameters of every kind. -/
def everyKind : Definition where
  decorators := []
  name := "fit"
  params := [.plain "self" none none, .plain "rate" none none,
    .plain "steps" (some "int") (some (.integer "10")), .slash, .plain "mode" none (some (.name "FAST")),
    .star (some "rest") none, .plain "seed" none none,
    .plain "note" none (some (.unary "-" (.integer "1") "-1")), .doubleStar (some "more") none]
  returns := none
  body := []
  line := 1

theorem arguments_of_signature_everyKind :
    Source.DefaultsLast everyKind.params
      ∧ ∃ command, (commandOf {} {} "Job" (outlineOf everyKind)).run.value = .ok command
        ∧ command.args.map (fun arg => (arg.destination, arg.default))
          = [("rate", none), ("steps", some (.int 10)), ("mode", none), ("seed", none),
              ("note", some (.int (-1)))] := by
  have hdefaults : Source.DefaultsLast everyKind.params := by
    unfold Source.DefaultsLast
    decide
  have hdocumented : Documented {} (outlineOf everyKind) := fun hstrict => absurd hstrict Bool.false_ne_true
  obtain ⟨-, ⟨command, hcommand, hargs⟩, -⟩ :=
    arguments_of_signature rfl hdefaults hdocumented {} "Job"
  refine ⟨hdefaults, command, hcommand, hargs.trans ?_⟩
  obtain ⟨-, rfl⟩ := commandOf_eq_ok_iff.mp hcommand
  decide +kernel

end Extraction

end ClassCli
