import ClassCli.Proofs.Attempt
import ClassCli.Proofs.Json.Held

/-!
# Reading objects, whatever their fields

What holds of reading before anything is known about the fields: written lists are read back item by
item, the fields of an object are visited one after the other, and what every field keeps is kept by the
whole object.

* **`Shape.visit_known`**, **`Shape.read_object`** — one field, and all of them.
* **`Shape.read_keeps`** — what holds before any field is read and is kept by each holds of the result.
-/

namespace ClassCli.Interface

open Json (Representable sorted)

variable {α β : Type}

/-! ## Lists -/

theorem readAll_map {read : Json → Except DataFault β} {write : α → Json} {result : α → β}
    {items : List α} (h : ∀ x ∈ items, read (write x) = .ok (result x)) :
    readAll read (items.map write) = .ok (items.map result) := by
  induction items with
  | nil => rfl
  | cons x xs ih =>
    have hfirst := h x List.mem_cons_self
    have hrest := ih fun y hy => h y (List.mem_cons_of_mem x hy)
    rw [List.map_cons, readAll, hfirst, hrest, List.map_cons]
    rfl

theorem readAll_keeps {read : Json → Except DataFault α} {P : α → Prop} {values : List Json}
    (hread : ∀ value ∈ values, ∀ x, read value = .ok x → P x) {results : List α}
    (h : readAll read values = .ok results) : ∀ x ∈ results, P x := by
  induction values generalizing results with
  | nil =>
    cases h
    intro x hx
    cases hx
  | cons value rest ih =>
    rw [readAll, except_bind_eq_ok] at h
    obtain ⟨first, hfirst, h⟩ := h
    rw [except_bind_eq_ok] at h
    obtain ⟨others, hothers, h⟩ := h
    cases h
    intro x hx
    rcases List.mem_cons.mp hx with rfl | hx
    · exact hread value List.mem_cons_self x hfirst
    · exact ih (fun v hv => hread v (List.mem_cons_of_mem value hv)) hothers x hx

theorem length_of_readAll {read : Json → Except DataFault α} {values : List Json} {results : List α}
    (h : readAll read values = .ok results) : results.length = values.length := by
  induction values generalizing results with
  | nil =>
    cases h
    rfl
  | cons value rest ih =>
    rw [readAll, except_bind_eq_ok] at h
    obtain ⟨first, -, h⟩ := h
    rw [except_bind_eq_ok] at h
    obtain ⟨others, hothers, h⟩ := h
    cases h
    rw [List.length_cons, List.length_cons, ih hothers]

theorem readList_keeps {read : Json → Except DataFault α} {P : α → Prop} {value : Json}
    (hvalue : Representable value)
    (hread : ∀ item, Representable item → ∀ x, read item = .ok x → P x) {results : List α}
    (h : readList read value = .ok results) : ∀ x ∈ results, P x := by
  cases value with
  | array items =>
    rw [Json.representable_array] at hvalue
    exact readAll_keeps (fun item hitem => hread item (hvalue item hitem)) h
  | _ => cases h

/-! ## Fields -/

/-- Whether storing a field keeps a property of the object. -/
def Field.Keeps (field : Field α) (P : α → Prop) : Prop :=
  ∀ value, Representable value → ∀ object next, P object →
    field.store value object = .ok next → P next

theorem field_store_eq_ok {name : String} {required : Bool} {read : Json → Except DataFault β}
    {set : β → α → α} {value : Json} {object next : α} :
    (field name required read set).store value object = .ok next
      ↔ ∃ x, read value = .ok x ∧ next = set x object := by
  show (read value).map (set · object) = .ok next ↔ _
  cases read value with
  | error fault =>
    constructor
    · intro h
      cases h
    · rintro ⟨x, hx, -⟩
      cases hx
  | ok x =>
    constructor
    · intro h
      cases h
      exact ⟨x, rfl, rfl⟩
    · rintro ⟨y, hy, rfl⟩
      cases hy
      rfl

theorem field_keeps {name : String} {required : Bool} {read : Json → Except DataFault β}
    {set : β → α → α} {P : α → Prop}
    (h : ∀ value, Representable value → ∀ x, read value = .ok x → ∀ object, P object → P (set x object)) :
    (field name required read set).Keeps P := by
  intro value hvalue object next hobject hnext
  obtain ⟨x, hx, rfl⟩ := field_store_eq_ok.mp hnext
  exact h value hvalue x hx object hobject

/-! ## Objects -/

namespace Shape

variable {shape : Shape α}

theorem read_object {entries : List (String × Json)} {object : α}
    (hvisit : shape.visit shape.start (sorted entries) = .ok object)
    (hmissing : shape.missing? entries = none) :
    shape.read (.object entries) = .ok object := by
  rw [read, except_bind_eq_ok]
  refine ⟨object, hvisit, ?_⟩
  rw [hmissing]

theorem visit_keeps {P : α → Prop} (hkeeps : ∀ field ∈ shape.fields, field.Keeps P) {entries : List (String × Json)}
    (hentries : ∀ entry ∈ entries, Representable entry.2) {object result : α} (hobject : P object)
    (h : shape.visit object entries = .ok result) : P result := by
  induction entries generalizing object with
  | nil =>
    cases h
    exact hobject
  | cons entry rest ih =>
    obtain ⟨name, value⟩ := entry
    have hrest := fun e he => hentries e (List.mem_cons_of_mem _ he)
    rw [visit] at h
    split at h
    · exact ih hrest hobject h
    · rename_i field hfield
      rw [except_bind_eq_ok] at h
      obtain ⟨next, hnext, h⟩ := h
      have hmem : field ∈ shape.fields := List.mem_of_find?_eq_some hfield
      have hvalue : Representable value := hentries _ List.mem_cons_self
      exact ih hrest (hkeeps field hmem value hvalue object next hobject hnext) h

theorem visitList_keeps {P : α → Prop} {fields : List (Field α)}
    (hkeeps : ∀ field ∈ fields, field.Keeps P) {values : List Json}
    (hvalues : ∀ value ∈ values, Representable value) {index : Nat} {object result : α}
    (hobject : P object) (h : shape.visitList index object fields values = .ok result) :
    P result := by
  induction fields generalizing index object values with
  | nil =>
    cases values with
    | nil =>
      cases h
      exact hobject
    | cons value rest => cases h
  | cons field fields ih =>
    have hothers := fun f hf => hkeeps f (List.mem_cons_of_mem field hf)
    cases values with
    | nil =>
      -- a field without a value takes its default or fails
      rw [visitList] at h
      split at h
      · cases h
      · exact ih hothers hvalues hobject h
    | cons value rest =>
      rw [visitList, except_bind_eq_ok] at h
      obtain ⟨next, hnext, h⟩ := h
      have hvalue : Representable value := hvalues value List.mem_cons_self
      have hfirst : field.Keeps P := hkeeps field List.mem_cons_self
      exact ih hothers (fun v hv => hvalues v (List.mem_cons_of_mem value hv))
        (hfirst value hvalue object next hobject hnext) h

theorem read_keeps {P : α → Prop} (hkeeps : ∀ field ∈ shape.fields, field.Keeps P)
    (hstart : P shape.start) {value : Json} (hvalue : Representable value) {result : α}
    (h : shape.read value = .ok result) : P result := by
  cases value with
  | object entries =>
    rw [Json.representable_object] at hvalue
    have hsorted : ∀ entry ∈ sorted entries, Representable entry.2 := fun entry hentry =>
      hvalue entry (Json.mem_sorted hentry)
    rw [read, except_bind_eq_ok] at h
    obtain ⟨object, hobject, h⟩ := h
    split at h
    · cases h
    · cases h
      exact visit_keeps hkeeps hsorted hstart hobject
  | array items =>
    rw [Json.representable_array] at hvalue
    exact visitList_keeps hkeeps hvalue hstart h
  | _ => cases h

end Shape

end ClassCli.Interface
