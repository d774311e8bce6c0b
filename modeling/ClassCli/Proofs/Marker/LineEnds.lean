import ClassCli.Proofs.Marker.Settings
import ClassCli.Proofs.Outline.LineEnds

/-!
# Names in scope and line ends

The names of modules and of what is imported from them are kept as they are written, with the line ends
inside them. With carriage returns in front of line feeds they are renamed, different ones differently, and
since no decorator is named over more than one line it refers to the same marker.

* **`Bindings.returned`** — the names in scope with carriage returns in front of line feeds.
* **`Registry.Plain`** — a registry of names on one line each.
* **`markerOf?_returned`** — the marker that a decorator refers to.
* **`value_flags_returned`** — the settings of the markers on a method.
-/

namespace ClassCli.Marker

open Outline (lowerExpr)
open Source (ImportedName Likeness)
open Text (NoEnds returned returned_append returned_inj returned_of_not_mem toList_returned withReturns)

/-! ## Names in scope -/

/-- What a name is bound to, with carriage returns in front of line feeds. -/
def returnedEntry (entry : String × Option String) : String × Option String :=
  (returned entry.1, entry.2.map returned)

/-- The names in scope with carriage returns in front of line feeds. -/
def Bindings.returned (scope : Bindings) : Bindings where
  origins := scope.origins.map returnedEntry
  wildcards := scope.wildcards.map Text.returned

namespace Bindings

theorem put_returned (name : String) (origin : Option String) (origins : Entries (Option String)) :
    Entries.put (Text.returned name) (origin.map Text.returned) (origins.map returnedEntry)
      = (Entries.put name origin origins).map returnedEntry :=
  Entries.put_map returned_inj.mp (Option.map Text.returned) name origin origins

theorem get?_returned (name : String) (origins : Entries (Option String)) :
    Entries.get? (Text.returned name) (origins.map returnedEntry)
      = (Entries.get? name origins).map (Option.map Text.returned) :=
  Entries.get?_map returned_inj.mp (Option.map Text.returned) name origins

variable (scope : Bindings)

theorem bind_returned (name : String) (origin : Option String) :
    scope.returned.bind (Text.returned name) (origin.map Text.returned)
      = (scope.bind name origin).returned := by
  rw [bind, bind, returned, returned, put_returned]

/-- A name without line feeds is bound as it is. -/
theorem bind_none_returned {name : String} (h : '\n' ∉ name.toList) :
    scope.returned.bind name none = (scope.bind name none).returned := by
  rw [← bind_returned, returned_of_not_mem h]
  rfl

theorem firstPart_returned (dotted : String) :
    firstPart (Text.returned dotted) = Text.returned (firstPart dotted) := by
  rw [← String.toList_inj, firstPart, String.toList_ofList, toList_returned, toList_returned, firstPart,
    String.toList_ofList]
  exact Text.takeWhile_withReturns (by decide) dotted.toList

theorem foldl_returned {α : Type} {R : α → α → Prop} {f f' : Bindings → α → Bindings}
    (hf : ∀ {x x' : α}, R x x' → ∀ scope, f' (returned scope) x' = (f scope x).returned) {xs xs' : List α}
    (h : List.Forall₂ R xs xs') : xs'.foldl f' scope.returned = (xs.foldl f scope).returned := by
  induction h generalizing scope with
  | nil => rfl
  | cons hx _ ih => rw [List.foldl_cons, List.foldl_cons, hf hx, ih]

/-! ## What imports bind -/

theorem eq_returned {a b : String} (h : Likeness.returns.Text a b) : b = Text.returned a := by
  rw [← String.toList_inj, toList_returned]
  exact h

theorem eq_of_sameWord {a b : String} (h : Likeness.returns.SameWord a b) : b = Text.returned a := by
  obtain ⟨rfl, hword⟩ := h
  exact (returned_of_not_mem hword).symm

theorem bindModule_returned {imported imported' : ImportedName}
    (h : Source.ImportedName.Like .returns imported imported') :
    bindModule scope.returned imported' = (bindModule scope imported).returned := by
  obtain ⟨name, asName⟩ := imported
  obtain ⟨name', asName'⟩ := imported'
  obtain rfl : name' = Text.returned name := eq_returned h.name
  unfold bindModule
  cases h.asName with
  | none =>
    dsimp only
    rw [firstPart_returned, ← bind_returned]
    rfl
  | some hword =>
    dsimp only
    rw [eq_of_sameWord hword, ← bind_returned]
    rfl

theorem bindMember_returned {module module' : String} (hmodule : Likeness.returns.Text module module')
    {imported imported' : ImportedName} (h : Source.ImportedName.Like .returns imported imported') :
    bindMember module' scope.returned imported' = (bindMember module scope imported).returned := by
  obtain ⟨name, asName⟩ := imported
  obtain ⟨name', asName'⟩ := imported'
  obtain rfl : name' = Text.returned name := eq_returned h.name
  obtain rfl : module' = Text.returned module := eq_returned hmodule
  have hbound : asName'.getD (Text.returned name) = Text.returned (asName.getD name) := by
    cases h.asName with
    | none => rfl
    | some hword => exact eq_of_sameWord hword
  have hpoint : Text.returned "." = "." := returned_of_not_mem (by decide)
  unfold bindMember
  dsimp only
  rw [hbound, ← bind_returned, Option.map_some, returned_append, returned_append, hpoint]

variable {names names' : List ImportedName}
  (hnames : List.Forall₂ (Source.ImportedName.Like .returns) names names')

include hnames in
theorem record_importNames_returned :
    scope.returned.record (.importNames names') = (scope.record (.importNames names)).returned := by
  rw [record, record]
  exact foldl_returned (f := bindModule) scope (fun h scope => scope.bindModule_returned h) hnames

include hnames in
theorem record_importFrom_returned {module module' : String} (hmodule : Likeness.returns.Text module module')
    (wildcard : Bool) :
    scope.returned.record (.importFrom module' names' wildcard)
      = (scope.record (.importFrom module names wildcard)).returned := by
  have hmembers (scope : Bindings) :
      names'.foldl (bindMember module') scope.returned = (names.foldl (bindMember module) scope).returned :=
    foldl_returned (f := bindMember module) scope (fun h scope => scope.bindMember_returned hmodule h) hnames
  rw [record, record]
  cases wildcard with
  | false => exact hmembers scope
  | true =>
    rw [if_pos rfl, if_pos rfl, ← hmembers, eq_returned hmodule]
    congr 1
    rw [returned, returned, List.map_append]
    rfl

theorem record_assign_returned {targets targets' : List String}
    (h : List.Forall₂ Likeness.returns.SameWord targets targets') :
    scope.returned.record (.assign targets') = (scope.record (.assign targets)).returned := by
  have hbind {name name' : String} (hname : Likeness.returns.SameWord name name') (scope : Bindings) :
      scope.returned.bind name' none = (scope.bind name none).returned := by
    rw [← hname.1]
    exact scope.bind_none_returned hname.2
  rw [record, record]
  exact foldl_returned (f := fun scope name => scope.bind name none) scope hbind h

/-! ## What a dotted reference refers to -/

variable {scope} {dotted : String} (h : '\n' ∉ dotted.toList)
include h

theorem firstPart_eq_returned : firstPart dotted = Text.returned (firstPart dotted) := by
  rw [← firstPart_returned, returned_of_not_mem h]

theorem qualify?_returned : scope.returned.qualify? dotted = (scope.qualify? dotted).map Text.returned := by
  have hafter : '\n' ∉ dotted.toList.dropWhile (· != '.') := fun hmem => h ((List.dropWhile_suffix _).subset hmem)
  have hget := get?_returned (firstPart dotted) scope.origins
  rw [← firstPart_eq_returned h] at hget
  unfold qualify? returned
  dsimp only
  rw [hget]
  cases Entries.get? (firstPart dotted) scope.origins with
  | none => rfl
  | some origin? =>
    cases origin? with
    | none => rfl
    | some origin =>
      rw [Option.map_some, Option.map_some]
      dsimp only
      rw [Option.map_some, returned_append, returned_of_not_mem (s := String.ofList _)]
      rwa [String.toList_ofList]

theorem isBound_returned : scope.returned.isBound dotted = scope.isBound dotted := by
  have hget := get?_returned dotted scope.origins
  rw [returned_of_not_mem h] at hget
  rw [isBound, Entries.has, returned, hget, Option.isSome_map]
  rfl

end Bindings

/-! ## Markers -/

/-- A registry of names on one line each. -/
structure Registry.Plain (registry : Registry) : Prop where
  home : NoEnds registry.home.toList
  names : ∀ name ∈ Entries.keys registry.specs, '\n' ∉ name.toList

namespace Registry.Plain

variable {registry : Registry} (h : registry.Plain)
include h

/-- No marker has a name over more than one line. -/
theorem get?_returned (name : String) : registry.get? (returned name) = registry.get? name := by
  by_cases hfeed : '\n' ∈ name.toList
  · have hnone {name : String} (hfeed : '\n' ∈ name.toList) : registry.get? name = none :=
      Entries.get?_eq_none fun hmem => h.names name hmem hfeed
    rw [hnone hfeed, hnone (Text.feed_mem_returned.mpr hfeed)]
  · rw [returned_of_not_mem hfeed]

theorem lookup?_returned (qualified : String) :
    registry.lookup? (returned qualified) = registry.lookup? qualified := by
  have hhome : NoEnds (registry.home.toList ++ ['.']) := by
    intro c hc
    rcases List.mem_append.mp hc with hc | hc
    · exact h.home c hc
    · rw [List.mem_singleton.mp hc]
      decide
  have hinner (rest : List Char) : (Text.afterStart "decorator.".toList (withReturns rest)).getD (withReturns rest)
      = withReturns ((Text.afterStart "decorator.".toList rest).getD rest) := by
    rw [Text.afterStart_withReturns (by decide)]
    cases Text.afterStart "decorator.".toList rest with
    | none => rfl
    | some name => rfl
  unfold lookup?
  rw [toList_returned, Text.afterStart_withReturns hhome]
  cases Text.afterStart (registry.home.toList ++ ['.']) qualified.toList with
  | none => rfl
  | some rest =>
    have hname := h.get?_returned (String.ofList ((Text.afterStart "decorator.".toList rest).getD rest))
    rw [returned, String.toList_ofList] at hname
    rw [Option.map_some]
    dsimp only
    rw [hinner, hname]

theorem exports_returned (module : String) : registry.exports (returned module) = registry.exports module := by
  have hsame {name : String} (hname : NoEnds name.toList) : (returned module == name) = (module == name) := by
    have hreturned : returned name = name := returned_of_not_mem fun hmem => (hname '\n' hmem).2 rfl
    rw [Bool.eq_iff_iff, beq_iff_eq, beq_iff_eq]
    conv => lhs; rw [← hreturned]
    exact returned_inj
  have hdecorator : NoEnds registry.decoratorModule.toList := by
    rw [decoratorModule, String.toList_append]
    intro c hc
    rcases List.mem_append.mp hc with hc | hc
    · exact h.home c hc
    · exact (by decide : NoEnds ".decorator".toList) c hc
  rw [exports, hsame h.home, hsame hdecorator, exports]

end Registry.Plain

variable {scope : Bindings} {registry : Registry}

theorem importsAll_returned (h : registry.Plain) :
    importsAll scope.returned registry = importsAll scope registry := by
  rw [importsAll, Bindings.returned, List.any_map, importsAll]
  congr 1
  exact funext h.exports_returned

/-- **The marker that a decorator refers to** is the same if the decorator has the same name, on one line. -/
theorem markerOf?_returned (h : registry.Plain) {x x' : Outline.Expr}
    (hname : (callee x').dotted? = (callee x).dotted?)
    (hline : ∀ dotted, (callee x).dotted? = some dotted → '\n' ∉ dotted.toList) :
    markerOf? scope.returned registry x' = markerOf? scope registry x := by
  unfold markerOf?
  rw [hname]
  cases hdotted : (callee x).dotted? with
  | none => rfl
  | some dotted =>
    have hfeed := hline dotted hdotted
    dsimp only
    rw [Bindings.qualify?_returned hfeed, Bindings.isBound_returned hfeed, importsAll_returned h]
    cases scope.qualify? dotted with
    | none => rfl
    | some qualified => exact h.lookup?_returned qualified

/-! ## Decorators -/

/-- Two decorators with the same name, on one line, that give the same to every marker. -/
structure SameDecorator (x x' : Outline.Expr) : Prop where
  name : (callee x').dotted? = (callee x).dotted?
  line : ∀ dotted, (callee x).dotted? = some dotted → '\n' ∉ dotted.toList
  settings : ∀ spec, (settings spec x').toOption = (settings spec x).toOption

theorem value_flag?_returned (h : registry.Plain) {x x' : Outline.Expr} (hx : SameDecorator x x')
    (method method' : String) :
    (flag? scope.returned registry method' x').value = (flag? scope registry method x).value := by
  rw [value_flag?, value_flag?, markerOf?_returned h hx.name hx.line]
  simp only [hx.settings]

/-- **The settings of the markers on a method** do not depend on carriage returns in the names in scope. -/
theorem value_flags_returned (h : registry.Plain) {f f' : Outline.Function}
    (hdecorators : List.Forall₂ SameDecorator f.decorators f'.decorators) :
    (flags scope.returned registry f').value = (flags scope registry f).value := by
  unfold flags
  dsimp only
  generalize f.decorators = xs, f'.decorators = xs' at hdecorators
  induction hdecorators with
  | nil => rfl
  | cons hx _ ih =>
    rw [List.map_cons, List.map_cons, List.filterMap_cons, List.filterMap_cons, value_flag?_returned h hx, ih]

/-- A name that an expression spells is on one line. -/
theorem line_of_dotted? {x x' : Source.Expr} (h : Source.Expr.Like .returns x x') {dotted : String}
    (hdotted : (lowerExpr x).dotted? = some dotted) : '\n' ∉ dotted.toList := by
  cases h with
  | name hword =>
    cases hdotted
    exact hword
  | attr hx hfield =>
    rw [lowerExpr, Outline.Expr.dotted?, Option.map_eq_some_iff] at hdotted
    obtain ⟨front, hfront, rfl⟩ := hdotted
    have hmem := line_of_dotted? hx hfront
    rw [String.toList_append, String.toList_append, List.mem_append, List.mem_append]
    rintro ((hmem' | hpoint) | hmem')
    · exact hmem hmem'
    · exact absurd hpoint (by decide)
    · exact hfield hmem'
  | group hx =>
    rw [lowerExpr] at hdotted
    exact line_of_dotted? hx hdotted
  | keyword _ hx =>
    rw [lowerExpr] at hdotted
    exact line_of_dotted? hx hdotted
  | string | unary | integer | float =>
    rw [lowerExpr, Outline.dotted?_literalOr] at hdotted
    cases hdotted
  | _ => cases hdotted

/-- The name before a call is on one line. -/
theorem line_of_callee {x x' : Source.Expr} (h : Source.Expr.Like .returns x x') {dotted : String}
    (hdotted : (callee (lowerExpr x)).dotted? = some dotted) : '\n' ∉ dotted.toList := by
  have hplain {α : Type} (text : String) (wrap : α → Literal) (value? : Option α) :
      (callee (Outline.literalOr text wrap value?)).dotted? = none := by
    cases value? with
    | none => rfl
    | some value => rfl
  cases h with
  | name hword => exact line_of_dotted? (.name hword) hdotted
  | attr hx hfield => exact line_of_dotted? (.attr hx hfield) hdotted
  | call hf =>
    rw [lowerExpr] at hdotted
    exact line_of_dotted? hf hdotted
  | generatorCall hf =>
    rw [lowerExpr] at hdotted
    exact line_of_dotted? hf hdotted
  | group hx =>
    rw [lowerExpr] at hdotted
    exact line_of_callee hx hdotted
  | keyword _ hx =>
    rw [lowerExpr] at hdotted
    exact line_of_callee hx hdotted
  | string | unary | integer | float =>
    rw [lowerExpr, hplain] at hdotted
    cases hdotted
  | _ => cases hdotted

/-- **A decorator with strings on one line each** gives the same to every marker. -/
theorem sameDecorator_of_like {x x' : Source.Expr} (h : Source.Expr.Like .returns x x')
    (hflat : x.isFlatCall = true) : SameDecorator (lowerExpr x) (lowerExpr x') where
  name := Outline.callee_returns h
  line _ hdotted := line_of_callee h hdotted
  settings spec := Outline.settings_returns spec h hflat

end ClassCli.Marker
