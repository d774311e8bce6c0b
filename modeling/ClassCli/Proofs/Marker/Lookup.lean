import Mathlib.Data.List.TakeWhile
import ClassCli.Marker.Resolution
import ClassCli.Proofs.Marker.LastBinding
import ClassCli.Proofs.Text.Splitting
import ClassCli.Text.Identifier

/-!
# Looking up markers

A decorator refers to a marker if the first part of its dotted name was bound last by an import, and what it
was imported from leads with the rest of the name to the namespace. Only a bare name that was not bound at
all can refer to a marker without such an import, namely when everything was imported from the namespace.

* **`Registry.lookup?_eq_some_iff`** — the qualified names of markers.
* **`markerOf?_of_refersBy`** — what a decorator refers to, by what its first part is bound to.
* **`explicit_marker_iff`** — the decorators that refer to markers if nothing imports everything.
* **`rebound_marker_iff`** — what an import of everything does to a name that was bound before.
-/

namespace ClassCli.Marker

open Outline (Expr Node)

/-! ## Qualified names of markers -/

namespace Registry

/-- The namespace is a dotted name, and markers are registered under their own names, which have no points. -/
structure Proper (registry : Registry) : Prop where
  home : ∀ part ∈ Text.splitAt '.' registry.home.toList, Text.isIdentifier part = true
  names : ∀ entry ∈ registry.specs, entry.2.name = entry.1 ∧ '.' ∉ entry.1.toList

theorem proper_builtin {home : String}
    (h : ∀ part ∈ Text.splitAt '.' home.toList, Text.isIdentifier part = true) : (builtin home).Proper := by
  refine ⟨h, ?_⟩
  intro entry hentry
  obtain rfl := List.mem_singleton.mp hentry
  exact ⟨rfl, by decide⟩

/-- The qualified names of a marker: its name behind the namespace, or behind its module `decorator`. -/
def Qualifies (registry : Registry) (name qualified : String) : Prop :=
  qualified = registry.home ++ "." ++ name ∨ qualified = registry.home ++ ".decorator." ++ name

variable {registry : Registry}

theorem Proper.of_get? (h : registry.Proper) {name : String} {spec : Spec}
    (hspec : registry.get? name = some spec) : spec.name = name ∧ '.' ∉ name.toList :=
  h.names _ (Entries.mem_of_get?_eq_some hspec)

/-- The name behind the module `decorator`, or the whole text if it does not start with this module. -/
def behindModule (rest : String) : String :=
  String.ofList ((Text.afterStart "decorator.".toList rest.toList).getD rest.toList)

theorem behindModule_decorator (name : String) : behindModule ("decorator." ++ name) = name := by
  rw [behindModule, String.toList_append, Text.afterStart_append, Option.getD_some, String.ofList_toList]

theorem eq_or_eq_behindModule (rest : String) :
    rest = behindModule rest ∨ rest = "decorator." ++ behindModule rest := by
  rw [behindModule]
  cases hname : Text.afterStart "decorator.".toList rest.toList with
  | none => simp
  | some name =>
    right
    rw [← String.toList_inj, Text.eq_append_of_afterStart hname]
    simp

theorem behindModule_of_no_point {name : String} (h : '.' ∉ name.toList) : behindModule name = name := by
  rcases eq_or_eq_behindModule name with heq | heq
  · exact heq.symm
  · have hpoint : '.' ∈ name.toList := by
      rw [heq]
      simp
    exact absurd hpoint h

theorem lookup?_eq_some_iff_exists {qualified : String} {spec : Spec} :
    registry.lookup? qualified = some spec
      ↔ ∃ rest, qualified = registry.home ++ "." ++ rest ∧ registry.get? (behindModule rest) = some spec := by
  rw [lookup?]
  constructor
  · intro h
    cases hrest : Text.afterStart (registry.home.toList ++ ['.']) qualified.toList with
    | none =>
      rw [hrest] at h
      cases h
    | some rest =>
      rw [hrest] at h
      refine ⟨String.ofList rest, ?_, by simpa [behindModule] using h⟩
      rw [← String.toList_inj, Text.eq_append_of_afterStart hrest]
      simp
  · intro h
    obtain ⟨rest, rfl, hspec⟩ := h
    have hrest : Text.afterStart (registry.home.toList ++ ['.']) (registry.home ++ "." ++ rest).toList
        = some rest.toList := by
      rw [String.toList_append, String.toList_append]
      exact Text.afterStart_append _ _
    rw [hrest]
    exact hspec

/-- **The markers are found by their qualified names**, and by no other ones. -/
theorem lookup?_eq_some_iff (h : registry.Proper) {qualified : String} {spec : Spec} :
    registry.lookup? qualified = some spec
      ↔ registry.get? spec.name = some spec ∧ registry.Qualifies spec.name qualified := by
  have hjoin (name : String) : registry.home ++ ".decorator." ++ name
      = registry.home ++ "." ++ ("decorator." ++ name) := by
    rw [← String.toList_inj]
    simp
  rw [lookup?_eq_some_iff_exists]
  constructor
  · intro hfound
    obtain ⟨rest, rfl, hspec⟩ := hfound
    have hname := (h.of_get? hspec).1
    rw [hname]
    refine ⟨hspec, ?_⟩
    rcases eq_or_eq_behindModule rest with hrest | hrest
    · left
      rw [← hrest]
    · right
      rw [hjoin, ← hrest]
  · intro hmarker
    obtain ⟨hspec, hqualified⟩ := hmarker
    rcases hqualified with rfl | rfl
    · refine ⟨spec.name, rfl, ?_⟩
      rw [behindModule_of_no_point (h.of_get? hspec).2, hspec]
    · refine ⟨"decorator." ++ spec.name, hjoin spec.name, ?_⟩
      rw [behindModule_decorator, hspec]

/-- A qualified name of a marker starts with the parts of the namespace. -/
theorem Qualifies.prefix_home {name qualified : String} (h : registry.Qualifies name qualified) :
    Text.splitAt '.' registry.home.toList <+: Text.splitAt '.' qualified.toList := by
  rcases h with rfl | rfl
  · rw [String.toList_append, String.toList_append, List.append_assoc]
    exact ⟨_, (Text.splitAt_append registry.home.toList name.toList).symm⟩
  · rw [String.toList_append, String.toList_append, List.append_assoc]
    exact ⟨_, (Text.splitAt_append registry.home.toList ("decorator.".toList ++ name.toList)).symm⟩

end Registry

/-! ## Dotted names -/

/-- A decorator refers to something by a dotted name with a certain first part and a certain rest. -/
structure RefersBy (decorator : Expr) (first rest : String) : Prop where
  dotted : (callee decorator).dotted? = some (first ++ rest)
  first : '.' ∉ first.toList
  rest : rest = "" ∨ rest.toList.head? = some '.'

variable {registry : Registry} {decorator : Expr} {first rest : String}

theorem ne_point {name : List Char} (h : '.' ∉ name) : ∀ c ∈ name, (c != '.') = true := by
  intro c hc
  rw [bne_iff_ne]
  rintro rfl
  exact h hc

/-- Every dotted name has a first part. -/
theorem exists_refersBy {dotted : String} (h : (callee decorator).dotted? = some dotted) :
    ∃ first rest, RefersBy decorator first rest := by
  refine ⟨Bindings.firstPart dotted, String.ofList (dotted.toList.dropWhile (· != '.')), ?_, ?_, ?_⟩
  · rw [h, Bindings.firstPart, ← String.ofList_append, List.takeWhile_append_dropWhile, String.ofList_toList]
  · rw [Bindings.firstPart, String.toList_ofList]
    intro hpoint
    have htest := List.mem_takeWhile_imp hpoint
    cases htest
  · rw [String.toList_ofList]
    cases hrest : dotted.toList.dropWhile (· != '.') with
    | nil => exact Or.inl rfl
    | cons c others =>
      have hc := List.head_dropWhile_not (· != '.') (l := dotted.toList) (by simp [hrest])
      simp only [hrest, List.head_cons] at hc
      right
      simpa using hc

theorem RefersBy.takeWhile (h : RefersBy decorator first rest) :
    (first ++ rest).toList.takeWhile (· != '.') = first.toList := by
  rw [String.toList_append, List.takeWhile_append_of_pos (ne_point h.first)]
  rcases h.rest with rfl | hrest
  · simp
  · cases hlist : rest.toList with
    | nil => simp
    | cons c others =>
      obtain rfl : c = '.' := by simpa [hlist] using hrest
      simp

theorem RefersBy.dropWhile (h : RefersBy decorator first rest) :
    (first ++ rest).toList.dropWhile (· != '.') = rest.toList := by
  have hsplit := List.takeWhile_append_dropWhile (p := (· != '.')) (l := (first ++ rest).toList)
  rw [h.takeWhile, String.toList_append, List.append_cancel_left_eq] at hsplit
  rw [String.toList_append, hsplit]

/-- **What a decorator refers to** depends on what the first part of its name is bound to. -/
theorem markerOf?_of_refersBy (h : RefersBy decorator first rest) (scope : Bindings) (registry : Registry) :
    markerOf? scope registry decorator
      = match Entries.get? first scope.origins with
        | some (some origin) => registry.lookup? (origin ++ rest)
        | some none => none
        | none => if rest = "" ∧ importsAll scope registry = true then registry.get? first else none := by
  have hfirst : Bindings.firstPart (first ++ rest) = first := by
    rw [Bindings.firstPart, h.takeWhile, String.ofList_toList]
  rw [markerOf?, h.dotted]
  dsimp only
  rw [Bindings.qualify?, hfirst, h.dropWhile, String.ofList_toList]
  cases horigin : Entries.get? first scope.origins with
  | some origin =>
    cases origin with
    | some origin => rfl
    | none =>
      rcases h.rest with rfl | hrest
      · simp [Bindings.isBound, Entries.has, horigin]
      · have hpoint : '.' ∈ rest.toList := List.mem_of_mem_head? hrest
        simp [hpoint]
  | none =>
    rcases h.rest with rfl | hrest
    · simp [Bindings.isBound, Entries.has, horigin, h.first]
    · have hpoint : '.' ∈ rest.toList := List.mem_of_mem_head? hrest
      have hne : rest ≠ "" := by
        rintro rfl
        cases hpoint
      simp [hpoint, hne]

/-! ## Lookup through imports -/

variable {nodes : List Node}

theorem importsAll_iff :
    importsAll (Bindings.recordAll {} nodes) registry = true
      ↔ ∃ module, .everything module ∈ bindingsOfAll nodes ∧ registry.exports module = true := by
  simp only [importsAll, List.any_eq_true, mem_wildcards_iff]

/-- A decorator refers to a marker through the import that bound the first part of its name last. -/
theorem markerOf?_explicit_iff (hexplicit : ∀ module, .everything module ∉ bindingsOfAll nodes)
    (h : RefersBy decorator first rest) {spec : Spec} :
    markerOf? (Bindings.recordAll {} nodes) registry decorator = some spec
      ↔ ∃ origin, LastBinding (·.binds first) nodes (.named first (some origin))
        ∧ registry.lookup? (origin ++ rest) = some spec := by
  have hall : importsAll (Bindings.recordAll {} nodes) registry = false := by
    rw [Bool.eq_false_iff, Ne, importsAll_iff]
    simp [hexplicit]
  rw [markerOf?_of_refersBy h, hall]
  simp only [← get?_origins_eq_some_iff]
  cases Entries.get? first (Bindings.recordAll {} nodes).origins with
  | none => simp
  | some origin =>
    cases origin with
    | none => simp
    | some origin => simp

/-- What the first part of a dotted name is bound to when it has nothing to do with the markers: something
defined in the file, something imported from beside it, or something of another package. -/
inductive Foreign (registry : Registry) (rest : String) : Option String → Prop
  | defined : Foreign registry rest none
  | relative {origin : String} (h : origin.toList.head? = some '.') : Foreign registry rest (some origin)
  | package {origin : String}
      (h : ¬Text.splitAt '.' registry.home.toList <+: Text.splitAt '.' (origin ++ rest).toList) :
      Foreign registry rest (some origin)

/-- What is imported from beside the file does not lead to the namespace. -/
theorem not_qualifies_of_relative (h : registry.Proper) {origin name : String}
    (hrelative : origin.toList.head? = some '.') : ¬registry.Qualifies name (origin ++ rest) := by
  intro hqualifies
  cases horigin : origin.toList with
  | nil => simp [horigin] at hrelative
  | cons c others =>
    obtain rfl : c = '.' := by simpa [horigin] using hrelative
    obtain ⟨first, parts, hparts⟩ := Text.exists_splitAt '.' registry.home.toList
    have hstart := hqualifies.prefix_home
    rw [hparts, String.toList_append, horigin, List.cons_append, Text.splitAt_mark,
      List.cons_prefix_cons] at hstart
    have hfirst := h.home first (by simp [hparts])
    rw [hstart.1] at hfirst
    cases hfirst

theorem not_qualifies_of_foreign (h : registry.Proper) {origin name : String}
    (hforeign : Foreign registry rest (some origin)) : ¬registry.Qualifies name (origin ++ rest) := by
  cases hforeign with
  | relative hrelative => exact not_qualifies_of_relative h hrelative
  | package hpackage => exact fun hqualifies => hpackage hqualifies.prefix_home

/-- **Lookup through imports is exact.** Where nothing imports everything, a decorator refers to a marker
exactly if the first part of its dotted name was bound last by an import, and what it was imported from gives
with the rest a qualified name of the marker. What is defined in the file, imported from beside it or from
another package never counts, however it is called. -/
theorem explicit_marker_iff (hproper : registry.Proper)
    (hexplicit : ∀ module, .everything module ∉ bindingsOfAll nodes) (decorator : Expr) :
    (∀ name, (∃ spec, markerOf? (Bindings.recordAll {} nodes) registry decorator = some spec
          ∧ spec.name = name)
        ↔ name ∈ Entries.keys registry.specs
          ∧ ∃ first rest origin, RefersBy decorator first rest
            ∧ LastBinding (·.binds first) nodes (.named first (some origin))
            ∧ registry.Qualifies name (origin ++ rest))
      ∧ ∀ first rest origin, RefersBy decorator first rest →
          LastBinding (·.binds first) nodes (.named first origin) → Foreign registry rest origin →
          markerOf? (Bindings.recordAll {} nodes) registry decorator = none := by
  constructor
  · intro name
    constructor
    · intro h
      obtain ⟨spec, hmarker, rfl⟩ := h
      cases hdotted : (callee decorator).dotted? with
      | none => simp [markerOf?, hdotted] at hmarker
      | some dotted =>
        obtain ⟨first, rest, hrefers⟩ := exists_refersBy hdotted
        obtain ⟨origin, hlast, hlookup⟩ := (markerOf?_explicit_iff hexplicit hrefers).mp hmarker
        obtain ⟨hspec, hqualifies⟩ := (Registry.lookup?_eq_some_iff hproper).mp hlookup
        refine ⟨?_, first, rest, origin, hrefers, hlast, hqualifies⟩
        exact List.mem_map_of_mem (Entries.mem_of_get?_eq_some hspec)
    · intro h
      obtain ⟨hname, first, rest, origin, hrefers, hlast, hqualifies⟩ := h
      obtain ⟨spec, hspec⟩ := Option.isSome_iff_exists.mp (Entries.has_iff.mpr hname)
      have hsame := (hproper.of_get? hspec).1
      rw [← hsame] at hspec hqualifies
      have hlookup := (Registry.lookup?_eq_some_iff hproper).mpr ⟨hspec, hqualifies⟩
      exact ⟨spec, (markerOf?_explicit_iff hexplicit hrefers).mpr ⟨origin, hlast, hlookup⟩, hsame⟩
  · intro first rest origin hrefers hlast hforeign
    rw [Option.eq_none_iff_forall_ne_some]
    intro spec hmarker
    obtain ⟨imported, himported, hlookup⟩ := (markerOf?_explicit_iff hexplicit hrefers).mp hmarker
    cases hlast.unique himported
    exact not_qualifies_of_foreign hproper hforeign ((Registry.lookup?_eq_some_iff hproper).mp hlookup).2

/-- Imports of a package under its own name, of its marker under another name, and of a marker from a package
whose name only starts like that of the first one. -/
def toolImports : List Node :=
  [.importNames [⟨"tools.cli", none⟩], .compound [.importFrom "tools.cli" [⟨hydraName, some "mark"⟩] false],
    .importFrom "tools.clix" [⟨hydraName, none⟩] false]

/-- The names of the first package refer to the marker, that of the other one does not. -/
theorem explicit_marker_iff_tools :
    (∃ spec, markerOf? (Bindings.recordAll {} toolImports) (Registry.builtin "tools.cli")
        (.call (.name "mark") [] []) = some spec ∧ spec.name = hydraName)
      ∧ (∃ spec, markerOf? (Bindings.recordAll {} toolImports) (Registry.builtin "tools.cli")
        (.attribute (.attribute (.name "tools") "cli") hydraName) = some spec ∧ spec.name = hydraName)
      ∧ markerOf? (Bindings.recordAll {} toolImports) (Registry.builtin "tools.cli") (.name hydraName)
        = none := by
  have hproper : (Registry.builtin "tools.cli").Proper := Registry.proper_builtin (by decide +kernel)
  have hexplicit : ∀ module, .everything module ∉ bindingsOfAll toolImports := by
    simp [toolImports, bindingsOfAll, bindingsOf, Binding.ofModule, Binding.ofMember]
  have hiff := fun decorator => (explicit_marker_iff hproper hexplicit decorator).1 hydraName
  refine ⟨(hiff _).mpr ⟨by decide, "mark", "", "tools.cli.add_hydra", ⟨rfl, by decide, Or.inl rfl⟩, ?_, ?_⟩,
    (hiff _).mpr ⟨by decide, "tools", ".cli.add_hydra", "tools", ⟨rfl, by decide, Or.inr rfl⟩, ?_, ?_⟩, ?_⟩
  · exact lastBinding_iff.mpr rfl
  · exact Or.inl rfl
  · exact lastBinding_iff.mpr rfl
  · exact Or.inl rfl
  · apply (explicit_marker_iff hproper hexplicit _).2 hydraName "" (some "tools.clix.add_hydra")
      ⟨rfl, by decide, Or.inl rfl⟩ (lastBinding_iff.mpr rfl)
    exact Foreign.package (by decide)

/-! ## Names bound before everything is imported -/

/-- Whether the name of a marker is bound, by name or by an import of everything from the namespace. -/
def Binding.bindsMarker (registry : Registry) (name : String) : Binding → Bool
  | .named other _ => other == name
  | .everything module => registry.exports module

/-- A name is bound to the marker of this name: it was imported under a qualified name of the marker. -/
def IsMarker (registry : Registry) (name : String) (origin : Option String) : Prop :=
  ∃ qualified, origin = some qualified ∧ registry.Qualifies name qualified

/-- What binds the name of a marker last also binds it last among what binds it by name. -/
theorem LastBinding.of_bindsMarker {name : String} {origin : Option String}
    (h : LastBinding (·.bindsMarker registry name) nodes (.named name origin)) :
    LastBinding (·.binds name) nodes (.named name origin) := by
  obtain ⟨earlier, later, heq, htest, hlater⟩ := h
  refine ⟨earlier, later, heq, htest, ?_⟩
  intro other hother
  have htest := hlater other hother
  cases other with
  | named other bound => exact htest
  | everything module => rfl

/-- **What an import of everything does to a name that was bound before**: it gives the name to the marker
exactly if the name was unbound so far, or if it was bound last to the marker already. A later binding by name
takes the name from the marker unless it is an import of the marker. -/
theorem rebound_marker_iff (hproper : registry.Proper) {name : String} {spec : Spec}
    (hspec : registry.get? name = some spec) (hcallee : callee decorator = .name name) :
    (∀ module, LastBinding (·.bindsMarker registry name) nodes (.everything module) →
        (markerOf? (Bindings.recordAll {} nodes) registry decorator = some spec
          ↔ ∀ origin, LastBinding (·.binds name) nodes (.named name origin) → IsMarker registry name origin))
      ∧ ∀ origin, LastBinding (·.bindsMarker registry name) nodes (.named name origin) →
        (markerOf? (Bindings.recordAll {} nodes) registry decorator = some spec
          ↔ IsMarker registry name origin) := by
  obtain ⟨hname, hpoint⟩ := hproper.of_get? hspec
  have hrefers : RefersBy decorator name "" := ⟨by simp [hcallee, Expr.dotted?], hpoint, Or.inl rfl⟩
  -- what a binding by name does, whatever else is imported
  have hbound {origin : Option String} (hlast : LastBinding (·.binds name) nodes (.named name origin)) :
      markerOf? (Bindings.recordAll {} nodes) registry decorator = some spec
        ↔ IsMarker registry name origin := by
    rw [markerOf?_of_refersBy hrefers, get?_origins_eq_some_iff.mpr hlast]
    cases origin with
    | none => simp [IsMarker]
    | some qualified =>
      simp [IsMarker, Registry.lookup?_eq_some_iff hproper, hname, hspec]
  constructor
  · intro module hlast
    cases horigin : Entries.get? name (Bindings.recordAll {} nodes).origins with
    | some origin =>
      have hlast := get?_origins_eq_some_iff.mp horigin
      rw [hbound hlast]
      constructor
      · intro hmarker other hother
        cases hlast.unique hother
        exact hmarker
      · intro hmarker
        exact hmarker origin hlast
    | none =>
      have hall : importsAll (Bindings.recordAll {} nodes) registry = true := by
        obtain ⟨earlier, later, heq, htest, -⟩ := hlast
        exact importsAll_iff.mpr ⟨module, by simp [heq], htest⟩
      rw [markerOf?_of_refersBy hrefers, horigin, hall]
      simp [← get?_origins_eq_some_iff, horigin, hspec]
  · intro origin hlast
    exact hbound hlast.of_bindsMarker

/-- A function that is called like a marker. -/
def homemade : Outline.Function where
  name := hydraName
  parameters := { args := [⟨"method", none⟩] }
  decorators := []
  returns := none
  docstring := none
  line := 1

/-- The function behind an import of everything. -/
def homemadeLast : List Node := [.importFrom defaultNamespace [] true, .functionDef homemade []]

/-- The function in front of an import of everything. -/
def homemadeFirst : List Node := [.functionDef homemade [], .importFrom defaultNamespace [] true]

/-- An import of everything gives the name to the marker, and the function behind it takes the name again. -/
theorem rebound_marker_iff_homemade :
    markerOf? (Bindings.recordAll {} [.importFrom defaultNamespace [] true])
        (Registry.builtin defaultNamespace) (.call (.name hydraName) [] []) = some hydra
      ∧ markerOf? (Bindings.recordAll {} homemadeLast) (Registry.builtin defaultNamespace) (.name hydraName)
        ≠ some hydra := by
  have hproper : (Registry.builtin defaultNamespace).Proper := Registry.proper_builtin (by decide +kernel)
  constructor
  · rw [(rebound_marker_iff hproper rfl rfl).1 defaultNamespace (lastBinding_iff.mpr rfl)]
    intro origin hlast
    cases lastBinding_iff.mp hlast
  · rw [Ne, (rebound_marker_iff hproper rfl rfl).2 none (lastBinding_iff.mpr rfl)]
    simp [IsMarker]

/-- An import of everything behind the function does not give the name back to the marker. -/
theorem rebound_marker_missed :
    LastBinding (·.bindsMarker (Registry.builtin defaultNamespace) hydraName) homemadeFirst
        (.everything defaultNamespace)
      ∧ markerOf? (Bindings.recordAll {} homemadeFirst) (Registry.builtin defaultNamespace)
        (.name hydraName) = none :=
  ⟨lastBinding_iff.mpr rfl, rfl⟩

end ClassCli.Marker
