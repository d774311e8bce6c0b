import ClassCli.Marker.Bindings
import ClassCli.Proofs.Entries
import ClassCli.Proofs.Outline.Places

/-!
# The last binding of a name

Statements bind names one after the other. A statement can bind several names, and the statements inside a
compound one bind in the same scope. An import of everything binds names that the file does not tell.

* **`bindingsOfAll`** — what statements bind, in order.
* **`LastBinding`** — the last of the bindings that pass a test.
* **`recordAll_eq_foldl_apply`** — the names in scope are those of the bindings.
* **`get?_recordAll`** — an inner binding goes before an outer one.
* **`get?_origins_eq_some_iff`** — a name means what it was bound to last.
-/

namespace ClassCli.Marker

open Outline (Node)
open Source (ImportedName)

/-! ## Bindings in order -/

/-- What a statement does to the names in scope. -/
inductive Binding where
  /-- A name refers to something imported, with its qualified name, or to something defined there. -/
  | named (name : String) (origin : Option String)
  /-- Everything is imported from a module. -/
  | everything (module : String)

namespace Binding

/-- The binding of what a whole module is imported as. -/
def ofModule (imported : ImportedName) : Binding :=
  match imported.asName with
  | some name => .named name (some imported.name)
  | none => .named (Bindings.firstPart imported.name) (some (Bindings.firstPart imported.name))

/-- The binding of a name imported from a module. -/
def ofMember (module : String) (imported : ImportedName) : Binding :=
  .named (imported.asName.getD imported.name) (some (module ++ "." ++ imported.name))

/-- Whether a certain name is bound by name. -/
def binds (name : String) : Binding → Bool
  | .named other _ => other == name
  | .everything _ => false

/-- What the name is bound to. -/
def origin? : Binding → Option (Option String)
  | .named _ origin => some origin
  | .everything _ => none

end Binding

mutual

/-- The bindings of a statement. -/
def bindingsOf : Node → List Binding
  | .importNames names => names.map Binding.ofModule
  | .importFrom module names wildcard =>
    (if wildcard then [.everything module] else []) ++ names.map (Binding.ofMember module)
  | .classDef head _ => [.named head.name none]
  | .functionDef head _ => [.named head.name none]
  | .assign targets => targets.map (.named · none)
  | .compound body => bindingsOfAll body
  | .other => []

/-- The bindings of statements, one after the other. -/
def bindingsOfAll : List Node → List Binding
  | [] => []
  | node :: rest => bindingsOf node ++ bindingsOfAll rest

end

/-- A binding is the last one of certain statements that passes a test. -/
def LastBinding (test : Binding → Bool) (nodes : List Node) (binding : Binding) : Prop :=
  ∃ earlier later, bindingsOfAll nodes = earlier ++ binding :: later ∧ test binding = true
    ∧ ∀ other ∈ later, test other = false

theorem lastBinding_iff {test : Binding → Bool} {nodes : List Node} {binding : Binding} :
    LastBinding test nodes binding ↔ (bindingsOfAll nodes).findRev? test = some binding := by
  rw [List.findRev?_eq_find?_reverse, List.find?_eq_some_iff_append]
  constructor
  · intro h
    obtain ⟨earlier, later, heq, htest, hlater⟩ := h
    refine ⟨htest, later.reverse, earlier.reverse, by simp [heq], ?_⟩
    intro other hother
    simp [hlater other (List.mem_reverse.mp hother)]
  · intro h
    obtain ⟨htest, later, earlier, heq, hlater⟩ := h
    refine ⟨earlier.reverse, later.reverse, ?_, htest, ?_⟩
    · rw [← List.reverse_inj, heq]
      simp
    · intro other hother
      simpa using hlater other (List.mem_reverse.mp hother)

/-- There is at most one last binding. -/
theorem LastBinding.unique {test : Binding → Bool} {nodes : List Node} {first second : Binding}
    (h : LastBinding test nodes first) (h' : LastBinding test nodes second) : first = second := by
  rw [lastBinding_iff] at h h'
  exact Option.some.inj (h.symm.trans h')

/-! ## The names in scope -/

/-- The names in scope after one more binding. -/
def Bindings.apply (scope : Bindings) : Binding → Bindings
  | .named name origin => scope.bind name origin
  | .everything module => { scope with wildcards := scope.wildcards ++ [module] }

/-- **What statements bind** is what their bindings do, one after the other. -/
theorem recordAll_eq_foldl_apply (nodes : List Node) :
    ∀ scope : Bindings, scope.recordAll nodes = (bindingsOfAll nodes).foldl Bindings.apply scope := by
  induction nodes using Node.block_induction with
  | nil =>
    intro scope
    rfl
  | cons node rest hblock hrest =>
    intro scope
    rw [Bindings.recordAll, bindingsOfAll, List.foldl_append, hrest]
    congr 1
    cases node with
    | importNames names =>
      rw [Bindings.record, bindingsOf, List.foldl_map]
      congr
      funext scope imported
      unfold Bindings.bindModule Binding.ofModule
      cases imported.asName with
      | none => rfl
      | some name => rfl
    | importFrom module names wildcard =>
      rw [Bindings.record, bindingsOf, List.foldl_append, List.foldl_map]
      cases wildcard with
      | false => rfl
      | true => rfl
    | classDef head body => rfl
    | functionDef head body => rfl
    | assign targets =>
      rw [Bindings.record, bindingsOf, List.foldl_map]
      rfl
    | compound body => exact hblock scope
    | other => rfl

/-- A name means what the last of its bindings says, and without any what it meant before. -/
theorem get?_origins_foldl_apply (name : String) (bindings : List Binding) (scope : Bindings) :
    Entries.get? name (bindings.foldl Bindings.apply scope).origins
      = ((bindings.findRev? (·.binds name)).bind Binding.origin?).or (Entries.get? name scope.origins) := by
  induction bindings using List.reverseRecOn with
  | nil => rfl
  | append_singleton front binding ih =>
    rw [List.foldl_append, List.foldl_cons, List.foldl_nil, findRev?_append, findRev?_cons]
    cases binding with
    | named other origin =>
      by_cases hother : other = name
      · simp [Bindings.apply, Bindings.bind, Binding.binds, Binding.origin?, List.findRev?, hother,
          Entries.get?_put_self]
      · simp [Bindings.apply, Bindings.bind, Binding.binds, List.findRev?, hother, ih,
          Entries.get?_put_of_ne (Ne.symm hother)]
    | everything module => simpa [Bindings.apply, Binding.binds, List.findRev?] using ih

/-- **What statements bind hides what was bound before them.** -/
theorem get?_recordAll (scope : Bindings) (nodes : List Node) (name : String) :
    Entries.get? name (scope.recordAll nodes).origins
      = (Entries.get? name (Bindings.recordAll {} nodes).origins).or
          (Entries.get? name scope.origins) := by
  simp only [recordAll_eq_foldl_apply, get?_origins_foldl_apply, Entries.get?_nil, Option.or_none]

/-- **A name means what it was bound to last.** -/
theorem get?_origins_eq_some_iff {name : String} {nodes : List Node} {origin : Option String} :
    Entries.get? name (Bindings.recordAll {} nodes).origins = some origin
      ↔ LastBinding (·.binds name) nodes (.named name origin) := by
  rw [recordAll_eq_foldl_apply, get?_origins_foldl_apply, Entries.get?_nil, Option.or_none, lastBinding_iff]
  cases hlast : (bindingsOfAll nodes).findRev? (·.binds name) with
  | none => simp
  | some binding =>
    have hbinds : binding.binds name = true := by
      rw [List.findRev?_eq_find?_reverse] at hlast
      exact List.find?_some hlast
    cases binding with
    | named other bound =>
      obtain rfl : other = name := by simpa [Binding.binds] using hbinds
      simp [Binding.origin?]
    | everything module => cases hbinds

/-- The modules of which everything was imported. -/
theorem mem_wildcards_iff {module : String} {nodes : List Node} :
    module ∈ (Bindings.recordAll {} nodes).wildcards ↔ .everything module ∈ bindingsOfAll nodes := by
  rw [recordAll_eq_foldl_apply]
  induction bindingsOfAll nodes using List.reverseRecOn with
  | nil => simp
  | append_singleton front binding ih =>
    rw [List.foldl_append, List.foldl_cons, List.foldl_nil, List.mem_append, List.mem_singleton]
    cases binding with
    | named name origin => simpa [Bindings.apply, Bindings.bind] using ih
    | everything other => simp [Bindings.apply, ih]

end ClassCli.Marker
