import ClassCli.Interface.Dictionary
import ClassCli.Json.Value
import ClassCli.Proofs.Json.Order

/-!
# Values held in memory

Two JSON values are compared part by part, so that it can be computed whether they are equal. A value that
is held rather than written keeps no order among the entries of an object and has no infinities among its
numbers; its integers fit into 64 bits, with a sign or without one.

* **`Json.decideEq`** — decides equality of values.
* **`Json.held`** — what is left of a value when it is held.
* **`Json.Representable`** — whether every number of a value can be held at all.
-/

namespace ClassCli.Json

mutual

/-- Decides equality of values. -/
def decideEq : (x y : Json) → Decidable (x = y)
  | .null, .null => isTrue rfl
  | .bool a, .bool b =>
    if h : a = b then isTrue (by rw [h]) else isFalse fun e => h (by injection e)
  | .int a, .int b =>
    if h : a = b then isTrue (by rw [h]) else isFalse fun e => h (by injection e)
  | .float a, .float b =>
    if h : a = b then isTrue (by rw [h]) else isFalse fun e => h (by injection e)
  | .string a, .string b =>
    if h : a = b then isTrue (by rw [h]) else isFalse fun e => h (by injection e)
  | .array a, .array b =>
    match decideEqAll a b with
    | isTrue h => isTrue (by rw [h])
    | isFalse h => isFalse fun e => h (by injection e)
  | .object a, .object b =>
    match decideEqEntries a b with
    | isTrue h => isTrue (by rw [h])
    | isFalse h => isFalse fun e => h (by injection e)
  | .null, .bool _ | .null, .int _ | .null, .float _ | .null, .string _ | .null, .array _
  | .null, .object _
  | .bool _, .null | .bool _, .int _ | .bool _, .float _ | .bool _, .string _ | .bool _, .array _
  | .bool _, .object _
  | .int _, .null | .int _, .bool _ | .int _, .float _ | .int _, .string _ | .int _, .array _
  | .int _, .object _
  | .float _, .null | .float _, .bool _ | .float _, .int _ | .float _, .string _
  | .float _, .array _ | .float _, .object _
  | .string _, .null | .string _, .bool _ | .string _, .int _ | .string _, .float _
  | .string _, .array _ | .string _, .object _
  | .array _, .null | .array _, .bool _ | .array _, .int _ | .array _, .float _
  | .array _, .string _ | .array _, .object _
  | .object _, .null | .object _, .bool _ | .object _, .int _ | .object _, .float _
  | .object _, .string _ | .object _, .array _ =>
    isFalse (fun e => by injection e)

/-- Decides equality of lists of values. -/
def decideEqAll : (xs ys : List Json) → Decidable (xs = ys)
  | [], [] => isTrue rfl
  | [], _ :: _ => isFalse (fun e => by injection e)
  | _ :: _, [] => isFalse (fun e => by injection e)
  | x :: xs, y :: ys =>
    match decideEq x y, decideEqAll xs ys with
    | isTrue h, isTrue hs => isTrue (by rw [h, hs])
    | isFalse h, _ => isFalse fun e => h (List.cons.inj e).1
    | _, isFalse hs => isFalse fun e => hs (List.cons.inj e).2

/-- Decides equality of lists of entries. -/
def decideEqEntries : (xs ys : List (String × Json)) → Decidable (xs = ys)
  | [], [] => isTrue rfl
  | [], _ :: _ => isFalse (fun e => by injection e)
  | _ :: _, [] => isFalse (fun e => by injection e)
  | (name, x) :: xs, (other, y) :: ys =>
    if hname : name = other then
      match decideEq x y, decideEqEntries xs ys with
      | isTrue h, isTrue hs => isTrue (by rw [hname, h, hs])
      | isFalse h, _ => isFalse fun e => h (Prod.mk.inj (List.cons.inj e).1).2
      | _, isFalse hs => isFalse fun e => hs (List.cons.inj e).2
    else isFalse fun e => hname (Prod.mk.inj (List.cons.inj e).1).1

end

instance : DecidableEq Json := decideEq

/-! ## Holding values -/

mutual

/-- The value with the entries of every object in ascending order. -/
def inOrder : Json → Json
  | .array items => .array (inOrderAll items)
  | .object entries => .object (sorted (inOrderEntries entries))
  | value => value

/-- The same for every item. -/
def inOrderAll : List Json → List Json
  | [] => []
  | x :: xs => inOrder x :: inOrderAll xs

/-- The same for the value of every entry. -/
def inOrderEntries : List (String × Json) → List (String × Json)
  | [] => []
  | (name, x) :: rest => (name, inOrder x) :: inOrderEntries rest

end

/-- The value as it is held: without infinities, and with ascending entries. -/
def held (value : Json) : Json := value.withoutInfinities.inOrder

theorem withoutInfinitiesAll_eq (items : List Json) :
    withoutInfinitiesAll items = items.map withoutInfinities := by
  induction items with
  | nil => rfl
  | cons x xs ih => rw [withoutInfinitiesAll, ih, List.map_cons]

theorem withoutInfinitiesEntries_eq (entries : List (String × Json)) :
    withoutInfinitiesEntries entries
      = entries.map fun entry => (entry.1, withoutInfinities entry.2) := by
  induction entries with
  | nil => rfl
  | cons entry rest ih => rw [withoutInfinitiesEntries, ih, List.map_cons]

theorem inOrderAll_eq (items : List Json) : inOrderAll items = items.map inOrder := by
  induction items with
  | nil => rfl
  | cons x xs ih => rw [inOrderAll, ih, List.map_cons]

theorem inOrderEntries_eq (entries : List (String × Json)) :
    inOrderEntries entries = entries.map fun entry => (entry.1, inOrder entry.2) := by
  induction entries with
  | nil => rfl
  | cons entry rest ih => rw [inOrderEntries, ih, List.map_cons]

@[simp] theorem held_string (text : String) : held (.string text) = .string text := rfl

@[simp] theorem held_array (items : List Json) : held (.array items) = .array (items.map held) := by
  rw [held, withoutInfinities, inOrder, withoutInfinitiesAll_eq, inOrderAll_eq, List.map_map]
  rfl

theorem held_object (entries : List (String × Json)) :
    held (.object entries) = .object (sorted (entries.map fun entry => (entry.1, held entry.2))) := by
  rw [held, withoutInfinities, inOrder, withoutInfinitiesEntries_eq, inOrderEntries_eq,
    List.map_map]
  rfl

/-! ## Values that can be held -/

mutual

/-- Whether every number of a value can be held: the integers have 64 bits, and the others are
finite. -/
def Representable : Json → Prop
  | .int i => -0x8000000000000000 ≤ i ∧ i < 0x10000000000000000
  | .float x => x.isFinite = true
  | .array items => RepresentableAll items
  | .object entries => RepresentableEntries entries
  | _ => True

/-- The same for every item. -/
def RepresentableAll : List Json → Prop
  | [] => True
  | x :: xs => Representable x ∧ RepresentableAll xs

/-- The same for the value of every entry. -/
def RepresentableEntries : List (String × Json) → Prop
  | [] => True
  | (_, x) :: rest => Representable x ∧ RepresentableEntries rest

end

theorem representableAll_iff (items : List Json) :
    RepresentableAll items ↔ ∀ x ∈ items, Representable x := by
  induction items with
  | nil => simp [RepresentableAll]
  | cons x xs ih => rw [RepresentableAll, ih, List.forall_mem_cons]

theorem representableEntries_iff (entries : List (String × Json)) :
    RepresentableEntries entries ↔ ∀ entry ∈ entries, Representable entry.2 := by
  induction entries with
  | nil => simp [RepresentableEntries]
  | cons entry rest ih => rw [RepresentableEntries, ih, List.forall_mem_cons]

theorem representable_array {items : List Json} :
    Representable (.array items) ↔ ∀ x ∈ items, Representable x := by
  rw [Representable, representableAll_iff]

theorem representable_object {entries : List (String × Json)} :
    Representable (.object entries) ↔ ∀ entry ∈ entries, Representable entry.2 := by
  rw [Representable, representableEntries_iff]

end ClassCli.Json
