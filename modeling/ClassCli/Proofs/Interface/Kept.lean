import ClassCli.Proofs.Interface.RoundTrip

/-!
# What is left of a collection

Not every collection is read back from its dictionary as it was: the values of flags come in ascending
order of their keys, and a number that is not finite comes back as no value. Nothing else is lost.

* **`Collection.asKept`** — what is left of a collection.
* **`Collection.ofJson_dictionary_eq`** — it is what is read from the dictionary.
* **`Collection.asKept_of_finite`** — nothing is lost of finite collections whose flags are in order.
-/

namespace ClassCli

/-! ## Literals -/

namespace Literal

mutual

/-- The literal with no value in the place of numbers that are not finite. -/
def finitePart : Literal → Literal
  | .float x => if x.isFinite then .float x else .none
  | .list items => .list (finitePartAll items)
  | literal => literal

/-- The same for every literal of a list. -/
def finitePartAll : List Literal → List Literal
  | [] => []
  | x :: xs => finitePart x :: finitePartAll xs

end

mutual

theorem finite_finitePart : ∀ literal : Literal, literal.finitePart.Finite
  | .none => trivial
  | .bool _ => trivial
  | .int _ => trivial
  | .str _ => trivial
  | .float x => by
    rw [finitePart]
    split
    · rename_i hx
      rw [Finite]
      exact hx
    · trivial
  | .list items => by
    rw [finitePart, Finite]
    exact finiteAll_finitePartAll items

theorem finiteAll_finitePartAll : ∀ items : List Literal, FiniteAll (finitePartAll items)
  | [] => trivial
  | x :: xs => ⟨finite_finitePart x, finiteAll_finitePartAll xs⟩

end

mutual

theorem finitePart_of_finite : ∀ {literal : Literal}, literal.Finite → literal.finitePart = literal
  | .none, _ => rfl
  | .bool _, _ => rfl
  | .int _, _ => rfl
  | .str _, _ => rfl
  | .float x, h => by
    rw [Finite] at h
    rw [finitePart, if_pos h]
  | .list items, h => by
    rw [Finite] at h
    rw [finitePart, finitePartAll_of_finiteAll h]

theorem finitePartAll_of_finiteAll :
    ∀ {items : List Literal}, FiniteAll items → finitePartAll items = items
  | [], _ => rfl
  | x :: xs, h => by
    rw [FiniteAll] at h
    rw [finitePartAll, finitePart_of_finite h.1, finitePartAll_of_finiteAll h.2]

end

mutual

theorem withoutInfinities_toJson :
    ∀ literal : Literal, literal.toJson.withoutInfinities = literal.finitePart.toJson
  | .none => rfl
  | .bool _ => rfl
  | .int _ => rfl
  | .str _ => rfl
  | .float x => by
    rw [toJson, Json.withoutInfinities, finitePart]
    split
    · rfl
    · rfl
  | .list items => by
    rw [toJson, Json.withoutInfinities, withoutInfinitiesAll_toJsonAll items]
    rfl

theorem withoutInfinitiesAll_toJsonAll :
    ∀ items : List Literal,
      Json.withoutInfinitiesAll (toJsonAll items) = toJsonAll (finitePartAll items)
  | [] => rfl
  | x :: xs => by
    rw [toJsonAll, Json.withoutInfinitiesAll, withoutInfinities_toJson x,
      withoutInfinitiesAll_toJsonAll xs]
    rfl

end

end Literal

/-! ## Descriptions -/

namespace Interface

open Json (held withoutInfinities)

def Argument.finitePart (arg : Argument) : Argument :=
  { arg with default := arg.default.map Literal.finitePart }

def Flag.finitePart (flag : Flag) : Flag :=
  { flag with values := flag.values.map fun entry => (entry.1, entry.2.finitePart) }

def Command.finitePart (command : Command) : Command :=
  { command with
    args := command.args.map Argument.finitePart, flags := command.flags.map Flag.finitePart }

def Module.finitePart (m : Module) : Module :=
  { m with
    args := m.args.map Argument.finitePart, commands := m.commands.map Command.finitePart }

/-- The collection with no value in the place of numbers that are not finite. -/
def Collection.finitePart (c : Collection) : Collection := ⟨c.modules.map Module.finitePart⟩

/-- What is left of a collection. -/
def Collection.asKept (c : Collection) : Collection := c.finitePart.inNameOrder

/-! ## Finite parts are finite -/

theorem Argument.finite_finitePart (arg : Argument) : arg.finitePart.Finite := by
  intro literal h
  obtain ⟨before, -, rfl⟩ := Option.map_eq_some_iff.mp h
  exact Literal.finite_finitePart before

theorem Flag.finite_finitePart (flag : Flag) : flag.finitePart.Finite := by
  intro entry h
  obtain ⟨before, -, rfl⟩ := List.mem_map.mp h
  exact Literal.finite_finitePart before.2

theorem Command.finite_finitePart (command : Command) :
    command.finitePart.Each Argument.Finite Flag.Finite :=
  ⟨List.forall_mem_map.mpr fun arg _ => arg.finite_finitePart,
    List.forall_mem_map.mpr fun flag _ => flag.finite_finitePart⟩

theorem Module.finite_finitePart (m : Module) : m.finitePart.Each Argument.Finite Flag.Finite :=
  ⟨List.forall_mem_map.mpr fun arg _ => arg.finite_finitePart,
    List.forall_mem_map.mpr fun command _ => command.finite_finitePart⟩

theorem Collection.finite_finitePart (c : Collection) : c.finitePart.Finite :=
  List.forall_mem_map.mpr fun m _ => m.finite_finitePart

/-! ## Finite parts of what is finite -/

theorem Argument.finitePart_of_finite {arg : Argument} (h : arg.Finite) : arg.finitePart = arg := by
  obtain ⟨name, destination, kind, multiplicity, help, default⟩ := arg
  cases default with
  | none => rfl
  | some literal =>
    rw [finitePart]
    dsimp only
    rw [Option.map_some, Literal.finitePart_of_finite (h literal rfl)]

theorem Flag.finitePart_of_finite {flag : Flag} (h : flag.Finite) : flag.finitePart = flag := by
  have hvalues : ∀ entry ∈ flag.values, (entry.1, entry.2.finitePart) = entry := by
    intro entry hentry
    rw [Literal.finitePart_of_finite (h entry hentry)]
  rw [finitePart, map_eq_self hvalues]

theorem Command.finitePart_of_finite {command : Command}
    (h : command.Each Argument.Finite Flag.Finite) : command.finitePart = command := by
  rw [finitePart, map_eq_self fun arg harg => Argument.finitePart_of_finite (h.1 arg harg),
    map_eq_self fun flag hflag => Flag.finitePart_of_finite (h.2 flag hflag)]

theorem Module.finitePart_of_finite {m : Module} (h : m.Each Argument.Finite Flag.Finite) :
    m.finitePart = m := by
  rw [finitePart, map_eq_self fun arg harg => Argument.finitePart_of_finite (h.1 arg harg),
    map_eq_self fun command hcommand => Command.finitePart_of_finite (h.2 command hcommand)]

theorem Collection.finitePart_of_finite {c : Collection} (h : c.Finite) : c.finitePart = c := by
  rw [finitePart, map_eq_self fun m hm => Module.finitePart_of_finite (h m hm)]

theorem Collection.finite_iff {c : Collection} : c.Finite ↔ c.finitePart = c :=
  ⟨finitePart_of_finite, fun h => h ▸ finite_finitePart c⟩

instance (c : Collection) : Decidable c.Finite := decidable_of_iff _ Collection.finite_iff.symm

/-- Nothing but the order of values in flags changes in a finite collection. -/
theorem Collection.asKept_of_finite {c : Collection} (h : c.Finite) : c.asKept = c.inNameOrder := by
  rw [asKept, finitePart_of_finite h]

/-- Nothing at all changes if the values are in order. -/
theorem Collection.asKept_eq_self {P : Argument → Prop} {c : Collection} (h : c.Finite)
    (ho : c.Each P Flag.Ordered) : c.asKept = c := by
  rw [asKept_of_finite h, inNameOrder_of_ordered ho]

/-! ## Dictionaries -/

theorem withoutInfinities_string (text : String) :
    (Json.string text).withoutInfinities = .string text := rfl

theorem withoutInfinities_object (entries : List (String × Json)) :
    (Json.object entries).withoutInfinities
      = .object (entries.map fun entry => (entry.1, entry.2.withoutInfinities)) := by
  rw [withoutInfinities, Json.withoutInfinitiesEntries_eq]

/-- A list of parts is written without infinities if each of them is. -/
theorem withoutInfinities_array {α : Type} {write : α → Json} {finitePart : α → α}
    (h : ∀ x, (write x).withoutInfinities = write (finitePart x)) (items : List α) :
    (Json.array (items.map write)).withoutInfinities
      = .array ((items.map finitePart).map write) := by
  have hitems : (items.map write).map withoutInfinities = (items.map finitePart).map write := by
    rw [List.map_map, List.map_map]
    exact List.map_congr_left fun x _ => h x
  rw [withoutInfinities, Json.withoutInfinitiesAll_eq, hitems]

theorem Argument.withoutInfinities_toJson (arg : Argument) :
    arg.toJson.withoutInfinities = arg.finitePart.toJson := by
  obtain ⟨name, destination, kind, multiplicity, help, default⟩ := arg
  cases kind <;> cases multiplicity <;> cases default <;>
    simp [toJson, finitePart, entry?, withoutInfinities, Json.withoutInfinitiesEntries,
      Literal.withoutInfinities_toJson]

theorem Flag.withoutInfinities_toJson (flag : Flag) :
    flag.toJson.withoutInfinities = flag.finitePart.toJson := by
  simp only [toJson, finitePart, withoutInfinities_object, withoutInfinities_string, List.map_cons,
    List.map_nil, List.map_map, Function.comp_def, Literal.withoutInfinities_toJson]

theorem Command.withoutInfinities_toJson (command : Command) :
    command.toJson.withoutInfinities = command.finitePart.toJson := by
  have hargs := withoutInfinities_array Argument.withoutInfinities_toJson command.args
  have hflags := withoutInfinities_array Flag.withoutInfinities_toJson command.flags
  have hempty : (command.flags.map Flag.finitePart).isEmpty = command.flags.isEmpty :=
    List.isEmpty_map
  rw [toJson, withoutInfinities_object, toJson, finitePart, hempty]
  split
  · simp only [List.map_append, List.map_cons, List.map_nil, hargs, withoutInfinities_string]
  · simp only [List.map_append, List.map_cons, List.map_nil, hargs, hflags, withoutInfinities_string]

theorem Module.withoutInfinities_toJson (m : Module) :
    m.toJson.withoutInfinities = m.finitePart.toJson := by
  have hargs := withoutInfinities_array Argument.withoutInfinities_toJson m.args
  have hcommands := withoutInfinities_array Command.withoutInfinities_toJson m.commands
  rw [toJson, withoutInfinities_object, toJson, finitePart]
  simp only [List.map_cons, List.map_nil, hargs, hcommands, withoutInfinities_string]

theorem Collection.withoutInfinities_toJson (c : Collection) :
    c.toJson.withoutInfinities = c.finitePart.toJson := by
  have hmodules := withoutInfinities_array Module.withoutInfinities_toJson c.modules
  rw [toJson, withoutInfinities_object, toJson, finitePart]
  simp only [List.map_cons, List.map_nil, hmodules]

theorem Collection.dictionary_finitePart (c : Collection) : c.finitePart.dictionary = c.dictionary := by
  rw [dictionary, dictionary, held, held, withoutInfinities_toJson, withoutInfinities_toJson,
    finitePart_of_finite c.finite_finitePart]

/-- **What is left of a collection** is what is read from its dictionary. -/
theorem Collection.ofJson_dictionary_eq (c : Collection) :
    Collection.ofJson c.dictionary = .ok c.asKept := by
  rw [← dictionary_finitePart, ofJson_dictionary c.finite_finitePart, asKept]

end Interface

end ClassCli
