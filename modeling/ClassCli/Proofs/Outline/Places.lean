import Mathlib.Data.List.Infix
import ClassCli.Outline.Basic

/-!
# Places of statements

The statements of an outline in document order, those inside others included, each with the statements
around it and with the statements in front of it. What stands in front of a statement is what has been
done when it is reached: the earlier statements of its own block and of the blocks around it.

* **`placesAll`** — the places of the statements of a block.
* **`outerClasses`** — the classes that do not stand inside another class.
* **`bodyFunctions`** — the functions that a class body defines, those in compound statements included.
* **`placesAll_append`** — the place of a statement does not depend on what follows it.
-/

namespace ClassCli.Outline

/-! ## Blocks -/

namespace Node

/-- The statements right inside a statement. -/
def block : Node → List Node
  | .classDef _ body => body
  | .functionDef _ body => body
  | .compound body => body
  | _ => []

/-- Whether a statement is a class. -/
def isClass : Node → Bool
  | .classDef .. => true
  | _ => false

/-- Whether a statement only groups other statements. -/
def isCompound : Node → Bool
  | .compound _ => true
  | _ => false

/-- What holds of no statements, and of statements whenever it holds of the block of the first one and of
the others, holds of all statements. -/
@[elab_as_elim]
theorem block_induction {motive : List Node → Prop} (nil : motive [])
    (cons : ∀ node rest, motive node.block → motive rest → motive (node :: rest)) :
    ∀ nodes, motive nodes
  | [] => nil
  | .classDef head body :: rest =>
    cons (.classDef head body) rest (block_induction nil cons body) (block_induction nil cons rest)
  | .functionDef head body :: rest =>
    cons (.functionDef head body) rest (block_induction nil cons body) (block_induction nil cons rest)
  | .compound body :: rest =>
    cons (.compound body) rest (block_induction nil cons body) (block_induction nil cons rest)
  | .importNames _ :: rest => cons _ rest nil (block_induction nil cons rest)
  | .importFrom _ _ _ :: rest => cons _ rest nil (block_induction nil cons rest)
  | .assign _ :: rest => cons _ rest nil (block_induction nil cons rest)
  | .other :: rest => cons _ rest nil (block_induction nil cons rest)

end Node

/-! ## Places -/

/-- A statement with what stands around it and in front of it. -/
structure Place where
  /-- The statements around it, the outermost one first. -/
  around : List Node
  /-- The statements in front of it in its own block and in those around it. -/
  before : List Node
  node : Node
  deriving Repr, Inhabited

mutual

/-- The places of a statement and of the statements inside it. -/
def places (around before : List Node) : Node → List Place
  | .classDef head body =>
    ⟨around, before, .classDef head body⟩ :: placesAll (around ++ [.classDef head body]) before body
  | .functionDef head body =>
    ⟨around, before, .functionDef head body⟩
      :: placesAll (around ++ [.functionDef head body]) before body
  | .compound body =>
    ⟨around, before, .compound body⟩ :: placesAll (around ++ [.compound body]) before body
  | node => [⟨around, before, node⟩]

/-- The places of the statements of a block and of the statements inside them. -/
def placesAll (around before : List Node) : List Node → List Place
  | [] => []
  | node :: rest => places around before node ++ placesAll around (before ++ [node]) rest

end

/-- A statement comes in front of what stands inside it. -/
theorem places_eq (around before : List Node) (node : Node) :
    places around before node
      = ⟨around, before, node⟩ :: placesAll (around ++ [node]) before node.block := by
  cases node <;> rfl

/-- **What follows a statement changes nothing about its place.** -/
theorem placesAll_append (around front back : List Node) :
    ∀ before, placesAll around before (front ++ back)
      = placesAll around before front ++ placesAll around (before ++ front) back := by
  induction front with
  | nil =>
    intro before
    rw [List.nil_append, List.append_nil, placesAll, List.nil_append]
  | cons node rest ih =>
    intro before
    rw [List.cons_append, placesAll, placesAll, ih, List.append_assoc, List.append_assoc,
      List.singleton_append]

/-- What stands around a block stands around every statement inside it. -/
theorem around_of_mem_placesAll (nodes : List Node) :
    ∀ {around before : List Node}, ∀ place ∈ placesAll around before nodes,
      around <+: place.around := by
  induction nodes using Node.block_induction with
  | nil =>
    intro around before place h
    simp [placesAll] at h
  | cons node rest hblock hrest =>
    intro around before place h
    rw [placesAll, places_eq] at h
    rcases List.mem_append.mp h with h | h
    · rcases List.mem_cons.mp h with rfl | h
      · exact List.prefix_rfl
      · exact (List.prefix_append around [node]).trans (hblock place h)
    · exact hrest place h

/-! ## Classes -/

/-- A class with the statements in front of it. -/
structure ClassPlace where
  before : List Node
  head : ClassHead
  body : List Node
  deriving Repr, Inhabited

/-- The class at a place, unless it stands inside another class. -/
def Place.class? (place : Place) : Option ClassPlace :=
  match place.node with
  | .classDef head body =>
    if place.around.any Node.isClass then none else some ⟨place.before, head, body⟩
  | _ => none

/-- The classes in a block that do not stand inside another class, in document order. -/
def classesIn (around before nodes : List Node) : List ClassPlace :=
  (placesAll around before nodes).filterMap Place.class?

/-- The classes of an outline that do not stand inside another class, in document order. -/
def outerClasses (outline : List Node) : List ClassPlace := classesIn [] [] outline

theorem classesIn_append (around before front back : List Node) :
    classesIn around before (front ++ back)
      = classesIn around before front ++ classesIn around (before ++ front) back := by
  rw [classesIn, placesAll_append, List.filterMap_append]
  rfl

/-- Nothing inside a class is an outer class. -/
theorem classesIn_inside {around : List Node} (h : around.any Node.isClass = true)
    (before nodes : List Node) : classesIn around before nodes = [] := by
  apply List.filterMap_eq_nil_iff.mpr
  intro place hplace
  have hinside : place.around.any Node.isClass = true := by
    obtain ⟨node, hmem, hnode⟩ := List.any_eq_true.mp h
    exact List.any_eq_true.mpr ⟨node, (around_of_mem_placesAll nodes place hplace).mem hmem, hnode⟩
  unfold Place.class?
  split
  · rw [if_pos hinside]
  · rfl

/-- Another statement around a block brings no class around it. -/
theorem any_isClass_concat {around : List Node} (h : around.any Node.isClass = false) {node : Node}
    (hnode : node.isClass = false) : (around ++ [node]).any Node.isClass = false := by
  rw [List.any_append, h, List.any_cons, hnode]
  rfl

/-- A class that stands in no other one is an outer class, and nothing inside it is. -/
theorem classesIn_classDef {around before : List Node} (h : around.any Node.isClass = false)
    (head : ClassHead) (body rest : List Node) :
    classesIn around before (.classDef head body :: rest)
      = ⟨before, head, body⟩ :: classesIn around (before ++ [.classDef head body]) rest := by
  have hself : Place.class? ⟨around, before, .classDef head body⟩ = some ⟨before, head, body⟩ := by
    simp [Place.class?, h]
  have hinside : (around ++ [Node.classDef head body]).any Node.isClass = true := by
    simp [Node.isClass]
  have hbody := classesIn_inside hinside before body
  rw [classesIn] at hbody
  rw [classesIn, placesAll, places_eq, List.filterMap_append, List.filterMap_cons_some hself]
  show ⟨before, head, body⟩ :: (placesAll _ before body).filterMap Place.class? ++ _ = _
  rw [hbody]
  rfl

/-- The outer classes inside another statement come in front of those behind it. -/
theorem classesIn_cons {around before : List Node} {node : Node} (h : node.isClass = false)
    (rest : List Node) :
    classesIn around before (node :: rest)
      = classesIn (around ++ [node]) before node.block ++ classesIn around (before ++ [node]) rest := by
  have hself : Place.class? ⟨around, before, node⟩ = none := by
    cases node with
    | classDef => cases h
    | _ => rfl
  rw [classesIn, placesAll, places_eq, List.filterMap_append, List.filterMap_cons_none hself]
  rfl

/-! ## Functions of a class body -/

/-- The function at a place of a class body, unless it stands inside a function or another class. -/
def Place.method? (place : Place) : Option Function :=
  match place.node with
  | .functionDef head _ => if place.around.all Node.isCompound then some head else none
  | _ => none

/-- The functions of a block of a class body in document order. -/
def functionsIn (around before nodes : List Node) : List Function :=
  (placesAll around before nodes).filterMap Place.method?

/-- The functions of a class body in document order, also those that are defined again. -/
def bodyFunctions (body : List Node) : List Function := functionsIn [] [] body

/-- Nothing inside a function or a class is a function of the class body. -/
theorem functionsIn_inside {around : List Node} (h : around.all Node.isCompound = false)
    (before nodes : List Node) : functionsIn around before nodes = [] := by
  apply List.filterMap_eq_nil_iff.mpr
  intro place hplace
  have hinside : place.around.all Node.isCompound = false := by
    obtain ⟨node, hmem, hnode⟩ := List.all_eq_false.mp h
    exact List.all_eq_false.mpr ⟨node, (around_of_mem_placesAll nodes place hplace).mem hmem, hnode⟩
  unfold Place.method?
  split
  · rw [hinside]
    rfl
  · rfl

/-- The functions of a compound statement are functions of the class body. -/
theorem functionsIn_compound (around before body rest : List Node) :
    functionsIn around before (.compound body :: rest)
      = functionsIn (around ++ [.compound body]) before body
        ++ functionsIn around (before ++ [.compound body]) rest := by
  rw [functionsIn, placesAll, places_eq, List.filterMap_append, List.filterMap_cons_none rfl]
  rfl

/-- A statement that is not compound gives the function that it defines, if it defines one. -/
theorem functionsIn_cons {around before : List Node} {node : Node} (h : node.isCompound = false)
    (rest : List Node) :
    functionsIn around before (node :: rest)
      = (Place.method? ⟨around, before, node⟩).toList ++ functionsIn around (before ++ [node]) rest := by
  have hinside : (around ++ [node]).all Node.isCompound = false := by
    rw [List.all_append, List.all_cons, h, Bool.false_and, Bool.and_false]
  have hblock := functionsIn_inside hinside before node.block
  rw [functionsIn] at hblock
  rw [functionsIn, placesAll, places_eq, List.filterMap_append, List.filterMap_cons, hblock]
  cases Place.method? ⟨around, before, node⟩ with
  | none => rfl
  | some f => rfl

end ClassCli.Outline
