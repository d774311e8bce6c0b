import ClassCli.Outline.Lowering
import ClassCli.Marker.Resolution
import ClassCli.Proofs.Outline.StringLineEnds
import ClassCli.Proofs.Source.LineEnds

/-!
# Expressions and line ends

The value of a default or of an argument of a decorator does not depend on the line ends of the source text
if the strings in it are on one line each. Values are read through lists, tuples and brackets; everything else
is kept as text and has no value.

* **`Expr.isFlat`**, **`Expr.isFlatCall`** — defaults and decorators with strings on one line each.
* **`literal?_returns`** — the value of a default.
* **`settings_returns`** — what a decorator gives to the parameters of a marker.
-/

namespace ClassCli

namespace Source

open Outline.StringLiteral (holdsFeed)

mutual

/-- Whether each string that gives an expression its value is on one line. -/
def Expr.isFlat : Expr → Bool
  | .string parts _ => !holdsFeed parts
  | .list items | .tuple items => Expr.areFlat items
  | .group inner | .keyword _ inner => Expr.isFlat inner
  | _ => true

/-- Whether this is so of all expressions. -/
def Expr.areFlat : List Expr → Bool
  | [] => true
  | x :: xs => Expr.isFlat x && Expr.areFlat xs

end

/-- Whether each string that gives a decorator the value of an argument is on one line. -/
def Expr.isFlatCall : Expr → Bool
  | .call _ args => Expr.areFlat args
  | .group inner | .keyword _ inner => Expr.isFlatCall inner
  | _ => true

end Source

namespace Outline

open Source (Likeness)
open Outline.StringLiteral (Written)

/-! ## Values -/

theorem literal?_literalOr {α : Type} (text : String) (wrap : α → Literal) (value? : Option α) :
    (literalOr text wrap value?).literal? = value?.map wrap := by
  cases value? with
  | none => rfl
  | some value => rfl

/-- The text that is kept without a value does not count. -/
theorem number?_literalOr {α : Type} (text text' : String) (wrap : α → Literal) (value? : Option α) :
    number? (literalOr text wrap value?) = number? (literalOr text' wrap value?) := by
  cases value? with
  | none => rfl
  | some value => rfl

theorem number?_literalOr_str (text : String) (value? : Option String) :
    number? (literalOr text .str value?) = none := by
  cases value? with
  | none => rfl
  | some value => rfl

theorem signed?_congr (operator : String) {operand operand' : Expr} (h : number? operand = number? operand') :
    signed? operator operand = signed? operator operand' := by
  unfold signed?
  rw [h]

/-- Numbers do not depend on line ends. -/
theorem number?_returns {x x' : Source.Expr} (h : Source.Expr.Like .returns x x') :
    number? (lowerExpr x) = number? (lowerExpr x') := by
  cases h with
  | string =>
    rw [lowerExpr, lowerExpr, number?_literalOr_str, number?_literalOr_str]
  | group hx =>
    rw [lowerExpr, lowerExpr]
    exact number?_returns hx
  | keyword _ hx =>
    rw [lowerExpr, lowerExpr]
    exact number?_returns hx
  | unary hx =>
    rw [lowerExpr, lowerExpr, signed?_congr _ (number?_returns hx)]
    exact number?_literalOr ..
  | _ => rfl

mutual

/-- **The value of a default** does not depend on line ends if its strings are on one line each. -/
theorem literal?_returns {x x' : Source.Expr} (h : Source.Expr.Like .returns x x') (hflat : x.isFlat = true) :
    (lowerExpr x').literal? = (lowerExpr x).literal? := by
  cases h with
  | string hparts =>
    rw [Source.Expr.isFlat, Bool.not_eq_true'] at hflat
    rw [lowerExpr, lowerExpr, literal?_literalOr, literal?_literalOr,
      StringLiteral.values?_eq_of_written hparts hflat]
  | list hxs =>
    rw [Source.Expr.isFlat] at hflat
    rw [lowerExpr, lowerExpr, Expr.literal?, Expr.literal?, literals?_returns hxs hflat]
  | tuple hxs =>
    rw [Source.Expr.isFlat] at hflat
    rw [lowerExpr, lowerExpr, Expr.literal?, Expr.literal?, literals?_returns hxs hflat]
  | group hx =>
    rw [Source.Expr.isFlat] at hflat
    rw [lowerExpr, lowerExpr]
    exact literal?_returns hx hflat
  | keyword _ hx =>
    rw [Source.Expr.isFlat] at hflat
    rw [lowerExpr, lowerExpr]
    exact literal?_returns hx hflat
  | unary hx =>
    rw [lowerExpr, lowerExpr, literal?_literalOr, literal?_literalOr, signed?_congr _ (number?_returns hx)]
  | _ => rfl

theorem literals?_returns {xs xs' : List Source.Expr} (h : List.Forall₂ (Source.Expr.Like .returns) xs xs')
    (hflat : Source.Expr.areFlat xs = true) :
    Expr.literals? (lowerExprs xs') = Expr.literals? (lowerExprs xs) := by
  cases h with
  | nil => rfl
  | cons hx hxs =>
    rw [Source.Expr.areFlat, Bool.and_eq_true] at hflat
    rw [lowerExprs, lowerExprs, Expr.literals?, Expr.literals?, literal?_returns hx hflat.1,
      literals?_returns hxs hflat.2]

end

/-! ## Names -/

theorem dotted?_literalOr {α : Type} (text : String) (wrap : α → Literal) (value? : Option α) :
    (literalOr text wrap value?).dotted? = none := by
  cases value? with
  | none => rfl
  | some value => rfl

/-- The dotted name that an expression spells does not depend on line ends. -/
theorem dotted?_returns {x x' : Source.Expr} (h : Source.Expr.Like .returns x x') :
    (lowerExpr x').dotted? = (lowerExpr x).dotted? := by
  cases h with
  | attr hx =>
    rw [lowerExpr, lowerExpr, Expr.dotted?, Expr.dotted?, dotted?_returns hx]
  | group hx =>
    rw [lowerExpr, lowerExpr]
    exact dotted?_returns hx
  | keyword _ hx =>
    rw [lowerExpr, lowerExpr]
    exact dotted?_returns hx
  | string | unary =>
    rw [lowerExpr, lowerExpr, dotted?_literalOr, dotted?_literalOr]
  | _ => rfl

/-- The name before a call does not depend on line ends. -/
theorem callee_returns {x x' : Source.Expr} (h : Source.Expr.Like .returns x x') :
    (Marker.callee (lowerExpr x')).dotted? = (Marker.callee (lowerExpr x)).dotted? := by
  have hplain {α : Type} (text text' : String) (wrap : α → Literal) (value? value?' : Option α) :
      (Marker.callee (literalOr text' wrap value?')).dotted?
        = (Marker.callee (literalOr text wrap value?)).dotted? := by
    cases value? <;> cases value?' <;> rfl
  cases h with
  | call hf =>
    rw [lowerExpr, lowerExpr]
    exact dotted?_returns hf
  | generatorCall hf =>
    rw [lowerExpr, lowerExpr]
    exact dotted?_returns hf
  | attr hx hfield => exact dotted?_returns (.attr hx hfield)
  | group hx =>
    rw [lowerExpr, lowerExpr]
    exact callee_returns hx
  | keyword _ hx =>
    rw [lowerExpr, lowerExpr]
    exact callee_returns hx
  | string | unary =>
    rw [lowerExpr, lowerExpr]
    exact hplain ..
  | _ => rfl

/-! ## Settings of markers -/

/-- An argument of a call with its value: what counts of it. -/
def valued (argument : String × Expr) : String × Option Literal := (argument.1, argument.2.literal?)

/-- What is stored depends on the values of the arguments. -/
theorem assign_toOption_congr (spec : Marker.Spec) :
    ∀ {given given' : List (String × Expr)} (values : Entries Literal), given'.map valued = given.map valued →
      (Marker.assign spec values given').toOption = (Marker.assign spec values given).toOption
  | [], [], _, _ => rfl
  | (name, x) :: given, (name', x') :: given', values, h => by
    rw [List.map_cons, List.map_cons, List.cons.injEq] at h
    obtain ⟨hfirst, hrest⟩ := h
    obtain ⟨rfl, hvalue⟩ := Prod.mk.inj hfirst
    rw [Marker.assign, Marker.assign]
    split
    · rfl
    · rw [hvalue]
      cases x.literal? with
      | none => rfl
      | some value => exact assign_toOption_congr spec _ hrest

theorem lowerArgs_cons {x : Source.Expr} (h : ∀ name value, x ≠ .keyword name value) (xs : List Source.Expr) :
    lowerArgs (x :: xs) = lowerExpr x :: lowerArgs xs ∧ lowerKeywords (x :: xs) = lowerKeywords xs := by
  cases x with
  | keyword name value => exact absurd rfl (h name value)
  | _ => exact ⟨rfl, rfl⟩

/-- The arguments of a call have the same values, in the same places and under the same keywords. -/
theorem arguments_returns {xs xs' : List Source.Expr} (h : List.Forall₂ (Source.Expr.Like .returns) xs xs')
    (hflat : Source.Expr.areFlat xs = true) :
    (lowerArgs xs').map Expr.literal? = (lowerArgs xs).map Expr.literal?
      ∧ (lowerKeywords xs').map valued = (lowerKeywords xs).map valued := by
  induction h with
  | nil => exact ⟨rfl, rfl⟩
  | @cons x x' xs xs' hx _ ih =>
    rw [Source.Expr.areFlat, Bool.and_eq_true] at hflat
    obtain ⟨hargs, hkeywords⟩ := ih hflat.2
    have hvalue := literal?_returns hx hflat.1
    have hother (h : ∀ name value, x ≠ .keyword name value) (h' : ∀ name value, x' ≠ .keyword name value) :
        (lowerArgs (x' :: xs')).map Expr.literal? = (lowerArgs (x :: xs)).map Expr.literal?
          ∧ (lowerKeywords (x' :: xs')).map valued = (lowerKeywords (x :: xs)).map valued := by
      rw [(lowerArgs_cons h xs).1, (lowerArgs_cons h xs).2, (lowerArgs_cons h' xs').1, (lowerArgs_cons h' xs').2,
        List.map_cons, List.map_cons, hvalue, hargs]
      exact ⟨rfl, hkeywords⟩
    cases hx with
    | keyword _ hvalue' =>
      refine ⟨hargs, ?_⟩
      rw [lowerKeywords, lowerKeywords, List.map_cons, List.map_cons, hkeywords, valued, valued]
      rw [lowerExpr, lowerExpr] at hvalue
      rw [hvalue]
    | _ => exact hother nofun nofun

/-- **What a decorator gives to a marker** does not depend on line ends if the strings in it are on one line
each. -/
theorem settings_returns (spec : Marker.Spec) {x x' : Source.Expr} (h : Source.Expr.Like .returns x x')
    (hflat : x.isFlatCall = true) :
    (Marker.settings spec (lowerExpr x')).toOption = (Marker.settings spec (lowerExpr x)).toOption := by
  have hcall {f f' : Expr} {args args' : List Expr} {keywords keywords' : List (String × Expr)}
      (hargs : args'.map Expr.literal? = args.map Expr.literal?)
      (hkeywords : keywords'.map valued = keywords.map valued) :
      (Marker.settings spec (.call f' args' keywords')).toOption
        = (Marker.settings spec (.call f args keywords)).toOption := by
    have hlength := congrArg List.length hargs
    rw [List.length_map, List.length_map] at hlength
    have hzip (args : List Expr) : ((Entries.keys spec.params).zip args).map valued
        = (Entries.keys spec.params).zip (args.map Expr.literal?) := by
      rw [List.zip_map_right]
      rfl
    rw [Marker.settings, Marker.settings, hlength]
    split
    · rfl
    · refine assign_toOption_congr spec _ ?_
      rw [List.map_append, List.map_append, hzip, hzip, hargs, hkeywords]
  have hliteral {α : Type} (text : String) (wrap : α → Literal) (value? : Option α) :
      Marker.settings spec (literalOr text wrap value?) = .ok spec.params := by
    cases value? with
    | none => rfl
    | some value => rfl
  cases h with
  | call hf hxs =>
    rw [Source.Expr.isFlatCall] at hflat
    rw [lowerExpr, lowerExpr]
    obtain ⟨hargs, hkeywords⟩ := arguments_returns hxs hflat
    exact hcall hargs hkeywords
  | generatorCall hf htext =>
    rw [lowerExpr, lowerExpr]
    exact hcall rfl rfl
  | group hx =>
    rw [Source.Expr.isFlatCall] at hflat
    rw [lowerExpr, lowerExpr]
    exact settings_returns spec hx hflat
  | keyword _ hx =>
    rw [Source.Expr.isFlatCall] at hflat
    rw [lowerExpr, lowerExpr]
    exact settings_returns spec hx hflat
  | string | unary =>
    rw [lowerExpr, lowerExpr, hliteral, hliteral]
  | _ => rfl

end Outline

end ClassCli
