import ClassCli.Proofs.Interface.Literals
import ClassCli.Proofs.Interface.Reading

/-!
# Collections as JSON and back

The dictionary of a part is its JSON value as it is held. Every part is read back from its dictionary,
with the values of flags in ascending order of their keys, and what is read from any value is of the kind
that is read back exactly.

* **`Collection.ofJson_dictionary`** — finite collections are read back.
* **`Collection.each_of_ofJson`** — collections that are read are finite, and their flags are in order.
-/

namespace ClassCli.Interface

open Json (Representable held sorted)

/-! ## Reading back single values -/

theorem readLiteral_toJson (literal : Literal) : readLiteral literal.toJson = .ok literal := by
  rw [readLiteral, Literal.ofJson?_toJson]

theorem readKind_name (kind : Kind) :
    readOptional (readChoice Kind.ofName? (Kind.all.map Kind.name)) (.string kind.name)
      = .ok (some kind) := by
  have hvalue : Json.string kind.name ≠ .null := Json.noConfusion
  rw [readOptional, readChoice, readVariant, Kind.ofName?_name]
  · rfl
  · exact hvalue

theorem readMultiplicity_name (multiplicity : Multiplicity) :
    readOptional (readChoice Multiplicity.ofName? ["single", "list"]) (.string multiplicity.name)
      = .ok (some multiplicity) := by
  have hvalue : Json.string multiplicity.name ≠ .null := Json.noConfusion
  rw [readOptional, readChoice, readVariant, Multiplicity.ofName?_name]
  · rfl
  · exact hvalue

theorem readList_held {α : Type} {read : Json → Except DataFault α} {write : α → Json}
    {result : α → α} {items : List α} (h : ∀ x ∈ items, read (held (write x)) = .ok (result x)) :
    readList read (held (.array (items.map write))) = .ok (items.map result) := by
  rw [Json.held_array, List.map_map, readList]
  exact readAll_map h

/-! ## Reading back objects -/

/-- An object is read back if visiting its entries in ascending order builds it. -/
theorem Shape.read_held {α : Type} {shape : Shape α} {entries arranged : List (String × Json)}
    (harranged : sorted (entries.map fun entry => (entry.1, held entry.2)) = arranged) {object : α}
    (hvisit : shape.visit shape.start arranged = .ok object)
    (hmissing : shape.missing? arranged = none) :
    shape.read (held (.object entries)) = .ok object := by
  have hascending : Json.Ascending arranged := harranged ▸ Json.ascending_sorted _
  rw [Json.held_object, harranged]
  refine Shape.read_object ?_ hmissing
  rw [Json.sorted_of_ascending hascending]
  exact hvisit

/-- The entries of an argument in ascending order. -/
def Argument.entries (arg : Argument) : Entries Json :=
  entry? "default" Literal.toJson arg.default
    ++ [("dest", .string arg.destination), ("help", .string arg.help)]
    ++ entry? "multiplicity" (fun multiplicity => .string multiplicity.name) arg.multiplicity
    ++ [("name", .string arg.name)]
    ++ entry? "type" (fun kind => .string kind.name) arg.kind

theorem Argument.visit_entries (arg : Argument) :
    Argument.shape.visit Argument.shape.start arg.entries = .ok arg := by
  obtain ⟨name, destination, kind, multiplicity, help, default⟩ := arg
  cases kind <;> cases multiplicity <;> cases default <;>
    simp [entries, entry?, shape, Shape.visit, field, readText, readLiteral_toJson, readKind_name,
      readMultiplicity_name, Except.map, except_bind_eq_ok]

theorem Argument.missing?_entries (arg : Argument) :
    Argument.shape.missing? arg.entries = none := by
  simp [entries, shape, Shape.missing?, field]

theorem Argument.read_held {arg : Argument} (h : arg.Finite) :
    Argument.shape.read (held arg.toJson) = .ok arg := by
  have hdefault : ∀ literal, arg.default = some literal → held literal.toJson = literal.toJson :=
    fun literal hl => Literal.held_toJson (h literal hl)
  refine Shape.read_held ?_ arg.visit_entries arg.missing?_entries
  obtain ⟨name, destination, kind, multiplicity, help, default⟩ := arg
  cases kind <;> cases multiplicity <;> cases default <;>
    simp_all [entries, entry?, sorted, Json.insertSorted, Json.nameBefore]

theorem zip_map_keys {α : Type} (entries : Entries α) :
    (entries.map Prod.fst).zip (entries.map Prod.snd) = entries := by
  rw [List.zip_map', List.map_id']

theorem readValues_held {values : Entries Literal} (h : ∀ entry ∈ values, entry.2.Finite) :
    readValues (held (.object (values.map fun (key, value) => (key, value.toJson))))
      = .ok (sorted values) := by
  have hheld : (values.map fun (key, value) => (key, value.toJson)).map
        (fun entry => (entry.1, held entry.2))
      = values.map fun entry => (entry.1, entry.2.toJson) := by
    rw [List.map_map]
    refine List.map_congr_left fun entry hentry => ?_
    show (entry.1, held entry.2.toJson) = _
    rw [Literal.held_toJson (h entry hentry)]
  have hsorted : sorted (sorted (values.map fun entry => (entry.1, entry.2.toJson)))
      = (sorted values).map fun entry => (entry.1, entry.2.toJson) := by
    rw [Json.sorted_of_ascending (Json.ascending_sorted _), Json.sorted_map]
  have hread : readAll readLiteral (((sorted values).map Prod.snd).map Literal.toJson)
      = .ok (((sorted values).map Prod.snd).map id) :=
    readAll_map fun literal _ => readLiteral_toJson literal
  have hkeys : ((sorted values).map fun entry => (entry.1, entry.2.toJson)).map Prod.fst
      = (sorted values).map Prod.fst := by
    rw [List.map_map]
    rfl
  have hvalues : ((sorted values).map fun entry => (entry.1, entry.2.toJson)).map Prod.snd
      = ((sorted values).map Prod.snd).map Literal.toJson := by
    rw [List.map_map, List.map_map]
    rfl
  rw [Json.held_object, hheld, readValues, hsorted, hkeys, hvalues, hread,
    List.map_id]
  show Except.ok _ = _
  rw [zip_map_keys]

theorem Flag.read_held {flag : Flag} (h : flag.Finite) :
    Flag.shape.read (held flag.toJson) = .ok flag.inNameOrder := by
  have hvalues := readValues_held h
  rw [toJson]
  generalize hv : Json.object (flag.values.map fun (key, value) => (key, value.toJson)) = values
  rw [hv] at hvalues
  have harranged : sorted ([("name", Json.string flag.name), ("values", values)].map
      fun entry => (entry.1, held entry.2)) = [("name", .string flag.name), ("values", held values)] := by
    simp [sorted, Json.insertSorted, Json.nameBefore]
  refine Shape.read_held harranged ?_ ?_
  · simp [shape, Shape.visit, field, readText, hvalues, inNameOrder, Except.map,
      except_bind_eq_ok]
  · simp [shape, Shape.missing?, field]

theorem Command.read_held {command : Command} (h : command.Each Argument.Finite Flag.Finite) :
    Command.shape.read (held command.toJson) = .ok command.inNameOrder := by
  have hargs : readList Argument.shape.read (held (.array (command.args.map Argument.toJson)))
      = .ok (command.args.map id) :=
    readList_held fun arg harg => Argument.read_held (h.1 arg harg)
  have hflags : readList Flag.shape.read (held (.array (command.flags.map Flag.toJson)))
      = .ok (command.flags.map Flag.inNameOrder) :=
    readList_held fun flag hflag => Flag.read_held (h.2 flag hflag)
  rw [List.map_id] at hargs
  rw [toJson]
  generalize Json.array (command.args.map Argument.toJson) = args at *
  generalize Json.array (command.flags.map Flag.toJson) = flags at *
  obtain ⟨name, help, _, items⟩ := command
  -- flags are written only if there are any, so the fields in order are three or four
  cases items with
  | nil =>
    have harranged : sorted ([("name", Json.string name), ("help", .string help),
        ("args", args)].map fun entry => (entry.1, held entry.2))
        = [("args", held args), ("help", .string help), ("name", .string name)] := by
      simp [sorted, Json.insertSorted, Json.nameBefore]
    refine Shape.read_held harranged ?_ ?_
    · simp [shape, Shape.visit, field, readText, hargs, inNameOrder, Except.map, except_bind_eq_ok]
    · simp [shape, Shape.missing?, field]
  | cons flag rest =>
    have harranged : sorted ([("name", Json.string name), ("help", .string help), ("args", args),
        ("annotation_flags", flags)].map fun entry => (entry.1, held entry.2))
        = [("annotation_flags", held flags), ("args", held args), ("help", .string help),
          ("name", .string name)] := by
      simp [sorted, Json.insertSorted, Json.nameBefore]
    refine Shape.read_held harranged ?_ ?_
    · simp [shape, Shape.visit, field, readText, hargs, hflags, inNameOrder, Except.map,
        except_bind_eq_ok]
    · simp [shape, Shape.missing?, field]

theorem Module.read_held {m : Module} (h : m.Each Argument.Finite Flag.Finite) :
    Module.shape.read (held m.toJson) = .ok m.inNameOrder := by
  have hargs : readList Argument.shape.read (held (.array (m.args.map Argument.toJson)))
      = .ok (m.args.map id) :=
    readList_held fun arg harg => Argument.read_held (h.1 arg harg)
  have hcommands : readList Command.shape.read (held (.array (m.commands.map Command.toJson)))
      = .ok (m.commands.map Command.inNameOrder) :=
    readList_held fun command hcommand => Command.read_held (h.2 command hcommand)
  rw [List.map_id] at hargs
  rw [toJson]
  generalize Json.array (m.args.map Argument.toJson) = args at *
  generalize Json.array (m.commands.map Command.toJson) = commands at *
  have harranged : sorted ([("name", Json.string m.name), ("help", .string m.help), ("args", args),
      ("commands", commands), ("location", .string m.location)].map
        fun entry => (entry.1, held entry.2))
      = [("args", held args), ("commands", held commands), ("help", .string m.help),
        ("location", .string m.location), ("name", .string m.name)] := by
    simp [sorted, Json.insertSorted, Json.nameBefore]
  refine Shape.read_held harranged ?_ ?_
  · simp [shape, Shape.visit, field, readText, hargs, hcommands, inNameOrder, Except.map,
      except_bind_eq_ok]
  · simp [shape, Shape.missing?, field]

/-- The value that a collection is held as. -/
def Collection.dictionary (c : Collection) : Json := held c.toJson

theorem Collection.ofJson_dictionary {c : Collection} (h : c.Finite) :
    Collection.ofJson c.dictionary = .ok c.inNameOrder := by
  have hmodules : readList Module.shape.read (held (.array (c.modules.map Module.toJson)))
      = .ok (c.modules.map Module.inNameOrder) :=
    readList_held fun m hm => Module.read_held (h m hm)
  rw [dictionary, ofJson, toJson]
  generalize Json.array (c.modules.map Module.toJson) = modules at *
  have harranged : sorted ([("modules", modules)].map fun entry => (entry.1, held entry.2))
      = [("modules", held modules)] := by
    simp [sorted, Json.insertSorted]
  refine Shape.read_held harranged ?_ ?_
  · simp [shape, Shape.visit, field, hmodules, inNameOrder, Except.map, except_bind_eq_ok]
  · simp [shape, Shape.missing?, field]

/-! ## What can be read -/

theorem finite_of_readLiteral {value : Json} (hvalue : Representable value) {literal : Literal}
    (h : readLiteral value = .ok literal) : literal.Finite := by
  rw [readLiteral] at h
  split at h
  · rename_i found hfound
    cases h
    exact Literal.finite_of_ofJson? hvalue hfound
  · cases h

theorem Argument.finite_of_read {value : Json} (hvalue : Representable value) {arg : Argument}
    (h : Argument.shape.read value = .ok arg) : arg.Finite := by
  refine Shape.read_keeps ?_ (fun literal hl => ?_) hvalue h
  · simp only [shape, List.forall_mem_cons]
    -- only the default matters
    refine ⟨?_, ?_, ?_, ?_, ?_, ?_, List.forall_mem_nil _⟩
    · exact field_keeps fun _ _ _ _ _ hobject => hobject
    · exact field_keeps fun _ _ _ _ _ hobject => hobject
    · exact field_keeps fun _ _ _ _ _ hobject => hobject
    · exact field_keeps fun _ _ _ _ _ hobject => hobject
    · exact field_keeps fun _ _ _ _ _ hobject => hobject
    · refine field_keeps fun value hvalue x hx _ _ literal hl => ?_
      cases hl
      exact finite_of_readLiteral hvalue hx
  · cases hl

/-- The values of a flag are read in ascending order of their keys. -/
theorem values_of_readValues {value : Json} (hvalue : Representable value)
    {values : Entries Literal} (h : readValues value = .ok values) :
    Json.Ascending values ∧ ∀ entry ∈ values, entry.2.Finite := by
  cases value with
  | object entries =>
    rw [Json.representable_object] at hvalue
    rw [readValues, except_bind_eq_ok] at h
    obtain ⟨literals, hliterals, h⟩ := h
    cases h
    have hlength := length_of_readAll hliterals
    rw [List.length_map] at hlength
    have hkeys : (((sorted entries).map Prod.fst).zip literals).map Prod.fst
        = (sorted entries).map Prod.fst := by
      refine List.map_fst_zip (Nat.le_of_eq ?_)
      rw [List.length_map, hlength]
    have hascending : Json.Ascending (((sorted entries).map Prod.fst).zip literals) := by
      have hpairs := Json.ascending_sorted entries
      rw [Json.ascending_iff, Entries.keys] at hpairs ⊢
      rw [hkeys]
      exact hpairs
    have hfinite : ∀ literal ∈ literals, literal.Finite := by
      refine readAll_keeps (fun v hv literal hl => ?_) hliterals
      obtain ⟨entry, hentry, rfl⟩ := List.mem_map.mp hv
      exact finite_of_readLiteral (hvalue entry (Json.mem_sorted hentry)) hl
    refine ⟨hascending, fun entry hentry => ?_⟩
    exact hfinite entry.2 (List.of_mem_zip hentry).2
  | _ => cases h

/-- What holds of every flag that is read. -/
def Flag.Read (flag : Flag) : Prop := flag.Finite ∧ flag.Ordered

theorem Flag.read_of_read {value : Json} (hvalue : Representable value) {flag : Flag}
    (h : Flag.shape.read value = .ok flag) : flag.Read := by
  have hstart : shape.start.Read := ⟨List.forall_mem_nil _, List.Pairwise.nil⟩
  refine Shape.read_keeps ?_ hstart hvalue h
  simp only [shape, List.forall_mem_cons]
  refine ⟨?_, ?_, List.forall_mem_nil _⟩
  · exact field_keeps fun _ _ _ _ _ hobject => hobject
  · refine field_keeps fun value hvalue x hx _ _ => ?_
    obtain ⟨hascending, hfinite⟩ := values_of_readValues hvalue hx
    exact ⟨hfinite, hascending⟩

theorem Command.each_of_read {value : Json} (hvalue : Representable value) {command : Command}
    (h : Command.shape.read value = .ok command) : command.Each Argument.Finite Flag.Read := by
  refine Shape.read_keeps ?_ ⟨List.forall_mem_nil _, List.forall_mem_nil _⟩ hvalue h
  · simp only [shape, List.forall_mem_cons]
    refine ⟨?_, ?_, ?_, ?_, List.forall_mem_nil _⟩
    · exact field_keeps fun _ _ _ _ _ hobject => hobject
    · exact field_keeps fun _ _ _ _ _ hobject => hobject
    · refine field_keeps fun value hvalue args hargs _ hobject => ⟨?_, hobject.2⟩
      exact readList_keeps hvalue (fun item hitem _ => Argument.finite_of_read hitem) hargs
    · refine field_keeps fun value hvalue flags hflags _ hobject => ⟨hobject.1, ?_⟩
      exact readList_keeps hvalue (fun item hitem _ => Flag.read_of_read hitem) hflags

theorem Module.each_of_read {value : Json} (hvalue : Representable value) {m : Module}
    (h : Module.shape.read value = .ok m) : m.Each Argument.Finite Flag.Read := by
  refine Shape.read_keeps ?_ ⟨List.forall_mem_nil _, List.forall_mem_nil _⟩ hvalue h
  · simp only [shape, List.forall_mem_cons]
    refine ⟨?_, ?_, ?_, ?_, ?_, List.forall_mem_nil _⟩
    · exact field_keeps fun _ _ _ _ _ hobject => hobject
    · exact field_keeps fun _ _ _ _ _ hobject => hobject
    · refine field_keeps fun value hvalue args hargs _ hobject => ⟨?_, hobject.2⟩
      exact readList_keeps hvalue (fun item hitem _ => Argument.finite_of_read hitem) hargs
    · refine field_keeps fun value hvalue commands hcommands _ hobject => ⟨hobject.1, ?_⟩
      exact readList_keeps hvalue (fun item hitem _ => Command.each_of_read hitem) hcommands
    · exact field_keeps fun _ _ _ _ _ hobject => hobject

theorem Collection.each_of_ofJson {value : Json} (hvalue : Representable value) {c : Collection}
    (h : Collection.ofJson value = .ok c) :
    c.Each Argument.Finite Flag.Read := by
  refine Shape.read_keeps ?_ (List.forall_mem_nil _) hvalue h
  simp only [shape, List.forall_mem_cons]
  refine ⟨?_, List.forall_mem_nil _⟩
  refine field_keeps fun value hvalue modules hmodules _ _ => ?_
  exact readList_keeps hvalue (fun item hitem _ => Module.each_of_read hitem) hmodules

/-- A collection that was read is read back as it is, the order of the values in flags included. -/
theorem Collection.ofJson_dictionary_of_ofJson {value : Json} (hvalue : Representable value)
    {c : Collection} (h : Collection.ofJson value = .ok c) :
    Collection.ofJson c.dictionary = .ok c := by
  have heach := Collection.each_of_ofJson hvalue h
  have hfinite : c.Finite := heach.mono (fun _ harg => harg) fun _ hflag => hflag.1
  have hordered := heach.mono (fun _ harg => harg) fun _ hflag => hflag.2
  rw [Collection.ofJson_dictionary hfinite, Collection.inNameOrder_of_ordered hordered]

end ClassCli.Interface
