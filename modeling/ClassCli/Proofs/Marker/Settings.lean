import ClassCli.Marker.Resolution
import ClassCli.Proofs.Entries

/-!
# Settings of markers

A decorator that is not called leaves the parameters of its marker at their defaults. A call gives them other
values by place or by name, and a keyword goes before a positional argument, a later keyword before an
earlier one. The values are stored one after the other over the defaults, which leaves the parameters in the
order of their declaration.

* **`effective`** — the values of the parameters, told from the decorator.
* **`Usable`** — the decorators that a marker accepts.
* **`settings_eq_ok_iff`** — the settings of the decorators that are accepted, and of no others.
* **`value_flag?_eq_some_iff`** — likewise for flags.
-/

namespace ClassCli.Marker

open Interface (Flag)
open Outline (Expr)

/-! ## What a decorator gives -/

/-- The positional arguments of a decorator; without a call there are none. -/
def givenArgs : Expr → List Expr
  | .call _ args _ => args
  | _ => []

/-- The keywords of a decorator; without a call there are none. -/
def givenKeywords : Expr → List (String × Expr)
  | .call _ _ keywords => keywords
  | _ => []

/-- What a decorator gives to the parameter with a certain name at a certain place: the value of the last
keyword with this name, or else the positional argument at this place. -/
def given? (decorator : Expr) (place : Nat) (name : String) : Option Expr :=
  (((givenKeywords decorator).findRev? (·.1 == name)).map Prod.snd).or (givenArgs decorator)[place]?

/-- The parameters of a marker in the order of their declaration, each with the literal that a decorator
gives to it, or else with its default. -/
def effective (spec : Spec) (decorator : Expr) : Entries Literal :=
  spec.params.mapIdx fun place param =>
    (param.1, ((given? decorator place param.1).bind Expr.literal?).getD param.2)

/-- The decorators that a marker accepts: those that are not called, and those that give literals only, to
declared parameters only. -/
inductive Usable (spec : Spec) : Expr → Prop
  | reference {x : Expr} (h : ∀ f args keywords, x ≠ .call f args keywords) : Usable spec x
  | call {f : Expr} {args : List Expr} {keywords : List (String × Expr)}
      (places : args.length ≤ spec.params.length)
      (names : ∀ keyword ∈ keywords, keyword.1 ∈ Entries.keys spec.params)
      (args_literal : ∀ x ∈ args, x.literal?.isSome)
      (keywords_literal : ∀ keyword ∈ keywords, keyword.2.literal?.isSome) :
      Usable spec (.call f args keywords)

/-- A decorator changes neither the names of the parameters nor their order. -/
theorem keys_effective (spec : Spec) (decorator : Expr) :
    Entries.keys (effective spec decorator) = Entries.keys spec.params := by
  apply List.ext_getElem?
  intro place
  simp [Entries.keys, effective, Function.comp_def]

/-- Without a call all parameters keep their defaults. -/
theorem effective_reference (spec : Spec) {x : Expr} (h : ∀ f args keywords, x ≠ .call f args keywords) :
    effective spec x = spec.params := by
  have hgiven (place : Nat) (name : String) : given? x place name = none := by
    cases x with
    | call f args keywords => exact absurd rfl (h f args keywords)
    | _ => rfl
  apply List.ext_getElem?
  intro place
  simp [effective, hgiven]

/-! ## Values one after the other -/

/-- Whether a value is a literal and for a declared parameter. -/
def Accepted (spec : Spec) (pair : String × Expr) : Prop :=
  pair.1 ∈ Entries.keys spec.params ∧ pair.2.literal?.isSome

/-- A name with the literal that is given to it. -/
def literalEntry (pair : String × Expr) : String × Literal := (pair.1, pair.2.literal?.getD .none)

/-- Values are stored one after the other, exactly if all of them are accepted. -/
theorem assign_eq_ok_iff {spec : Spec} {result : Entries Literal} (pairs : List (String × Expr)) :
    ∀ values, assign spec values pairs = .ok result ↔ (∀ pair ∈ pairs, Accepted spec pair)
      ∧ result = (pairs.map literalEntry).foldl (fun entries pair => Entries.put pair.1 pair.2 entries) values := by
  induction pairs with
  | nil =>
    intro values
    simp [assign, eq_comm]
  | cons pair rest ih =>
    intro values
    obtain ⟨name, x⟩ := pair
    rw [assign, List.forall_mem_cons, List.map_cons, List.foldl_cons]
    cases hname : Entries.has name spec.params with
    | false => simp [Accepted, ← Entries.has_iff, hname]
    | true =>
      cases hliteral : x.literal? with
      | none => simp [Accepted, hliteral]
      | some value => simp [Accepted, ← Entries.has_iff, hname, hliteral, ih, literalEntry]

/-- Different names stand beside their own values. -/
theorem findRev?_zip {names : List String} (h : names.Nodup) {name : String} :
    ∀ {place : Nat} (args : List Expr), names[place]? = some name →
      (names.zip args).findRev? (·.1 == name) = args[place]?.map (name, ·) := by
  induction names with
  | nil =>
    intro place args hname
    simp at hname
  | cons first rest ih =>
    intro place args hname
    rw [List.nodup_cons] at h
    cases args with
    | nil => rfl
    | cons x others =>
      rw [List.zip_cons_cons, findRev?_cons]
      cases place with
      | zero =>
        obtain rfl : first = name := by simpa using hname
        have hnone : (rest.zip others).findRev? (·.1 == first) = none := by
          rw [List.findRev?_eq_find?_reverse, List.find?_eq_none]
          intro pair hpair hfirst
          obtain rfl : pair.1 = first := by simpa using hfirst
          exact h.1 (List.of_mem_zip (List.mem_reverse.mp hpair)).1
        rw [hnone]
        simp
      | succ place =>
        have hmem : name ∈ rest := List.mem_of_getElem? hname
        have hne : first ≠ name := by
          intro heq
          exact h.1 (heq ▸ hmem)
        rw [ih h.2 others hname]
        simp [hne]

/-! ## Calls -/

section Call

variable {spec : Spec} {f : Expr} {args : List Expr} {keywords : List (String × Expr)}

/-- What a call gives, by the names of the parameters: first the positional arguments, then the keywords. -/
def givenPairs (spec : Spec) (args : List Expr) (keywords : List (String × Expr)) : List (String × Expr) :=
  (Entries.keys spec.params).zip args ++ keywords

/-- A call is accepted exactly if it has no more positional arguments than the marker has parameters, and all
that it gives is accepted. -/
theorem usable_call_iff :
    Usable spec (.call f args keywords)
      ↔ args.length ≤ spec.params.length ∧ ∀ pair ∈ givenPairs spec args keywords, Accepted spec pair := by
  constructor
  · intro h
    cases h with
    | reference h => exact absurd rfl (h f args keywords)
    | call places names args_literal keywords_literal =>
      refine ⟨places, ?_⟩
      intro pair hpair
      rcases List.mem_append.mp hpair with hpair | hpair
      · obtain ⟨hname, hvalue⟩ := List.of_mem_zip hpair
        exact ⟨hname, args_literal _ hvalue⟩
      · exact ⟨names pair hpair, keywords_literal pair hpair⟩
  · intro h
    obtain ⟨hplaces, haccepted⟩ := h
    obtain ⟨hzip, hkeywords⟩ := List.forall_mem_append.mp haccepted
    apply Usable.call hplaces
    · intro keyword hkeyword
      exact (hkeywords keyword hkeyword).1
    · intro x hx
      -- every positional argument stands beside a parameter
      have hlength : args.length ≤ (Entries.keys spec.params).length := by simpa [Entries.keys] using hplaces
      rw [← List.map_snd_zip hlength] at hx
      obtain ⟨pair, hpair, rfl⟩ := List.mem_map.mp hx
      exact (hzip pair hpair).2
    · intro keyword hkeyword
      exact (hkeywords keyword hkeyword).2

/-- The settings of a call: the defaults with what it gives stored over them. -/
theorem settings_call_eq_ok_iff {values : Entries Literal} :
    settings spec (.call f args keywords) = .ok values ↔ Usable spec (.call f args keywords)
      ∧ values = ((givenPairs spec args keywords).map literalEntry).foldl
          (fun entries pair => Entries.put pair.1 pair.2 entries) spec.params := by
  rw [settings, usable_call_iff, and_assoc]
  by_cases hplaces : args.length ≤ spec.params.length
  · rw [if_neg (Nat.not_lt.mpr hplaces), assign_eq_ok_iff, givenPairs, and_iff_right hplaces]
  · rw [if_pos (Nat.lt_of_not_le hplaces)]
    simp [hplaces]

/-- What a call gives to a parameter is what it gives to it last. -/
theorem given?_call (h : (Entries.keys spec.params).Nodup) {place : Nat} {name : String}
    (hname : (Entries.keys spec.params)[place]? = some name) :
    given? (.call f args keywords) place name
      = ((givenPairs spec args keywords).findRev? (·.1 == name)).map Prod.snd := by
  rw [givenPairs, findRev?_append, findRev?_zip h args hname, given?, givenKeywords, givenArgs]
  cases keywords.findRev? (·.1 == name) with
  | some keyword => rfl
  | none =>
    cases args[place]? with
    | none => rfl
    | some x => rfl

variable (haccepted : ∀ pair ∈ givenPairs spec args keywords, Accepted spec pair)
include haccepted

theorem keys_foldl_givenPairs :
    Entries.keys (((givenPairs spec args keywords).map literalEntry).foldl
      (fun entries pair => Entries.put pair.1 pair.2 entries) spec.params) = Entries.keys spec.params := by
  apply Entries.keys_foldl_put
  intro entry hentry
  obtain ⟨pair, hpair, rfl⟩ := List.mem_map.mp hentry
  exact (haccepted pair hpair).1

/-- **What is stored last is effective.** -/
theorem foldl_givenPairs (h : (Entries.keys spec.params).Nodup) :
    ((givenPairs spec args keywords).map literalEntry).foldl
        (fun entries pair => Entries.put pair.1 pair.2 entries) spec.params
      = effective spec (.call f args keywords) := by
  have hkeys := keys_foldl_givenPairs haccepted
  apply List.ext_getElem?
  intro place
  rw [Entries.getElem?_eq (by rw [hkeys]; exact h), hkeys, effective, List.getElem?_mapIdx]
  cases hparam : spec.params[place]? with
  | none => simp [Entries.keys, hparam]
  | some param =>
    have hname : (Entries.keys spec.params)[place]? = some param.1 := by simp [Entries.keys, hparam]
    have hdefault : Entries.get? param.1 spec.params = some param.2 :=
      Entries.get?_of_mem h (List.mem_of_getElem? hparam)
    have hlast : ((givenPairs spec args keywords).map literalEntry).findRev? (·.1 == param.1)
        = ((givenPairs spec args keywords).findRev? (·.1 == param.1)).map literalEntry := findRev?_map ..
    rw [hname, Option.bind_some, Entries.get?_foldl_put, hlast, hdefault, Option.map_some, given?_call h hname]
    cases hfound : (givenPairs spec args keywords).findRev? (·.1 == param.1) with
    | none => rfl
    | some pair =>
      rw [List.findRev?_eq_find?_reverse] at hfound
      have hpair := haccepted pair (List.mem_reverse.mp (List.mem_of_find?_eq_some hfound))
      obtain ⟨value, hvalue⟩ := Option.isSome_iff_exists.mp hpair.2
      simp [literalEntry, hvalue]

end Call

/-! ## Settings -/

variable {spec : Spec} {decorator : Expr} {values : Entries Literal}

theorem settings_reference (h : ∀ f args keywords, decorator ≠ .call f args keywords) :
    settings spec decorator = .ok spec.params := by
  cases decorator with
  | call f args keywords => exact absurd rfl (h f args keywords)
  | _ => rfl

theorem eq_call_or (x : Expr) :
    (∃ f args keywords, x = .call f args keywords) ∨ ∀ f args keywords, x ≠ .call f args keywords := by
  cases x with
  | call f args keywords => exact Or.inl ⟨f, args, keywords, rfl⟩
  | _ => exact Or.inr (by simp)

/-- Settings have the names of the parameters. -/
theorem keys_settings (h : settings spec decorator = .ok values) :
    Entries.keys values = Entries.keys spec.params := by
  rcases eq_call_or decorator with ⟨f, args, keywords, rfl⟩ | hreference
  · obtain ⟨husable, rfl⟩ := settings_call_eq_ok_iff.mp h
    exact keys_foldl_givenPairs (usable_call_iff.mp husable).2
  · rw [settings_reference hreference] at h
    cases h
    rfl

/-- **The settings of a decorator** are the effective values, exactly if the marker accepts it. -/
theorem settings_eq_ok_iff (h : (Entries.keys spec.params).Nodup) :
    settings spec decorator = .ok values ↔ Usable spec decorator ∧ values = effective spec decorator := by
  rcases eq_call_or decorator with ⟨f, args, keywords, rfl⟩ | hreference
  · rw [settings_call_eq_ok_iff]
    refine and_congr_right fun husable => ?_
    rw [foldl_givenPairs (usable_call_iff.mp husable).2 h]
  · rw [settings_reference hreference, effective_reference spec hreference, Except.ok.injEq, eq_comm]
    exact (and_iff_right (Usable.reference hreference)).symm

/-! ## Flags -/

theorem value_flag? (scope : Bindings) (registry : Registry) (method : String) (x : Expr) :
    (flag? scope registry method x).value
      = (markerOf? scope registry x).bind fun spec => (settings spec x).toOption.map (⟨spec.name, ·⟩) := by
  unfold flag?
  cases markerOf? scope registry x with
  | none => rfl
  | some spec =>
    dsimp only [Option.bind_some]
    cases settings spec x with
    | ok values => rfl
    | error reason => rfl

/-- **A decorator gives a flag** exactly if its marker accepts it, and then one with the effective values. -/
theorem value_flag?_eq_some_iff {scope : Bindings} {registry : Registry}
    (hmarker : markerOf? scope registry decorator = some spec) (h : (Entries.keys spec.params).Nodup)
    (method : String) (flag : Flag) :
    (flag? scope registry method decorator).value = some flag
      ↔ Usable spec decorator ∧ flag = ⟨spec.name, effective spec decorator⟩ := by
  rw [value_flag?, hmarker, Option.bind_some]
  cases hsettings : settings spec decorator with
  | ok values =>
    obtain ⟨husable, rfl⟩ := (settings_eq_ok_iff h).mp hsettings
    simp [Except.toOption, husable, eq_comm]
  | error reason =>
    have hunusable : ¬Usable spec decorator := by
      intro husable
      have hok := (settings_eq_ok_iff h).mpr ⟨husable, rfl⟩
      rw [hsettings] at hok
      cases hok
    simp [Except.toOption, hunusable]

end ClassCli.Marker
