import ClassCli.Interface.Basic
import ClassCli.Interface.DataFault

/-!
# Descriptions as JSON

Every part of a description is written as an object with its fields in a fixed order and read back
from such an object. Fields that say nothing are left out. In reading, the entries of an object are
visited in ascending order of their names, which decides which of several faults is reported; a list
is accepted in the place of an object if it holds the fields in their order.

* **`Collection.toJson`**, **`Collection.ofJson`** — writing and reading a collection; likewise for
  every other part.
* **`Json.withoutInfinities`** — what is left of a value in a format without infinities.
-/

namespace ClassCli

open Decimal (Binary64)
open Interface (DataFault)

/-! ## Numbers without infinities -/

namespace Json

mutual

/-- The value with `null` for numbers that are not finite. -/
def withoutInfinities : Json → Json
  | .float x => if x.isFinite then .float x else .null
  | .array items => .array (withoutInfinitiesAll items)
  | .object entries => .object (withoutInfinitiesEntries entries)
  | value => value

/-- The same for every item. -/
def withoutInfinitiesAll : List Json → List Json
  | [] => []
  | x :: xs => withoutInfinities x :: withoutInfinitiesAll xs

/-- The same for the value of every entry. -/
def withoutInfinitiesEntries : List (String × Json) → List (String × Json)
  | [] => []
  | (name, x) :: rest => (name, withoutInfinities x) :: withoutInfinitiesEntries rest

end

end Json

/-! ## Literals -/

namespace Literal

mutual

/-- A literal as JSON. -/
def toJson : Literal → Json
  | .none => .null
  | .bool b => .bool b
  | .int i => .int i.toInt
  | .float x => .float x
  | .str s => .string s
  | .list items => .array (toJsonAll items)

/-- Literals as JSON. -/
def toJsonAll : List Literal → List Json
  | [] => []
  | x :: xs => toJson x :: toJsonAll xs

end

/-- An integer as a literal. One beyond 64 bits becomes a floating-point number. -/
def ofInteger (i : Int) : Literal :=
  if -0x8000000000000000 ≤ i && i < 0x8000000000000000 then .int (Int64.ofInt i)
  else .float (Binary64.ofRatio (i < 0) i.natAbs 1)

mutual

/-- The literal of a JSON value; objects have none. -/
def ofJson? : Json → Option Literal
  | .null => some .none
  | .bool b => some (.bool b)
  | .int i => some (ofInteger i)
  | .float x => some (.float x)
  | .string s => some (.str s)
  | .array items => (ofJsonAll? items).map .list
  | .object _ => .none

/-- The literals of JSON values, if each has one. -/
def ofJsonAll? : List Json → Option (List Literal)
  | [] => some []
  | x :: xs =>
    match ofJson? x, ofJsonAll? xs with
    | some v, some vs => some (v :: vs)
    | _, _ => .none

end

end Literal

namespace Interface

/-! ## Writing -/

/-- An entry that is left out if there is no value. -/
def entry? {α : Type} (name : String) (write : α → Json) : Option α → List (String × Json)
  | none => []
  | some value => [(name, write value)]

/-- An argument as JSON. -/
def Argument.toJson (arg : Argument) : Json :=
  .object (
    [("name", .string arg.name), ("dest", .string arg.destination)]
      ++ entry? "type" (fun kind => .string kind.name) arg.kind
      ++ entry? "multiplicity" (fun multiplicity => .string multiplicity.name) arg.multiplicity
      ++ [("help", .string arg.help)]
      ++ entry? "default" Literal.toJson arg.default)

/-- A flag as JSON. -/
def Flag.toJson (flag : Flag) : Json :=
  .object [("name", .string flag.name),
    ("values", .object (flag.values.map fun (key, value) => (key, value.toJson)))]

/-- A command as JSON. -/
def Command.toJson (command : Command) : Json :=
  .object (
    [("name", .string command.name), ("help", .string command.help),
      ("args", .array (command.args.map Argument.toJson))]
      ++ if command.flags.isEmpty then []
        else [("annotation_flags", .array (command.flags.map Flag.toJson))])

/-- A module as JSON. -/
def Module.toJson (m : Module) : Json :=
  .object [("name", .string m.name), ("help", .string m.help),
    ("args", .array (m.args.map Argument.toJson)),
    ("commands", .array (m.commands.map Command.toJson)), ("location", .string m.location)]

/-- A collection as JSON. -/
def Collection.toJson (c : Collection) : Json :=
  .object [("modules", .array (c.modules.map Module.toJson))]

/-! ## Reading single values -/

/-- A string. -/
def readText : Json → Except DataFault String
  | .string s => .ok s
  | value => .error (.invalidType value.found "a string")

/-- Every item of a list, the first fault counting. -/
def readAll {α : Type} (read : Json → Except DataFault α) : List Json → Except DataFault (List α)
  | [] => .ok []
  | x :: xs => do
    let y ← read x
    let ys ← readAll read xs
    .ok (y :: ys)

/-- A list. -/
def readList {α : Type} (read : Json → Except DataFault α) : Json → Except DataFault (List α)
  | .array items => readAll read items
  | value => .error (.invalidType value.found "a sequence")

/-- A literal. -/
def readLiteral (value : Json) : Except DataFault Literal :=
  match Literal.ofJson? value with
  | some literal => .ok literal
  | none => .error .noLiteral

/-- The literals of entries in ascending order of the names. -/
def readValues (value : Json) : Except DataFault (Entries Literal) :=
  match value with
  | .object entries => do
    let sorted := Json.sorted entries
    let values ← readAll readLiteral (sorted.map Prod.snd)
    .ok ((sorted.map Prod.fst).zip values)
  | value => .error (.invalidType value.found "a map")

/-- A name from a closed list of names. -/
def readVariant {α : Type} (ofName? : String → Option α) (known : List String) (name : String) :
    Except DataFault α :=
  match ofName? name with
  | some value => .ok value
  | none => .error (.unknownVariant name known)

/-- A name from a closed list of names, or an object whose only entry has that name and holds
nothing. -/
def readChoice {α : Type} (ofName? : String → Option α) (known : List String) :
    Json → Except DataFault α
  | .string name => readVariant ofName? known name
  | .object [(name, value)] => do
    let choice ← readVariant ofName? known name
    match value with
    | .null => .ok choice
    | value => .error (.invalidType value.found "unit")
  | .object _ => .error .notSingle
  | value => .error (.invalidType value.found "string or map")

/-- A value where `null` stands for none. -/
def readOptional {α : Type} (read : Json → Except DataFault α) : Json → Except DataFault (Option α)
  | .null => .ok none
  | value => (read value).map some

/-! ## Reading objects -/

/-- How a field of an object of type `α` is read into it. -/
structure Field (α : Type) where
  name : String
  /-- Whether the field has to be there. -/
  required : Bool
  /-- Stores the value of the field. -/
  store : Json → α → Except DataFault α

/-- What an object of type `α` looks like: how messages name it, and its fields in order. -/
structure Shape (α : Type) where
  title : String
  fields : List (Field α)
  /-- The object before any field has been read. -/
  start : α

namespace Shape

variable {α : Type}

/-- Visits the entries of an object; unknown ones say nothing. -/
def visit (shape : Shape α) : α → List (String × Json) → Except DataFault α
  | object, [] => .ok object
  | object, (name, value) :: rest =>
    match shape.fields.find? (·.name == name) with
    | none => visit shape object rest
    | some field => do
      let object ← field.store value object
      visit shape object rest

/-- The first field in order that has to be there and is not. -/
def missing? (shape : Shape α) (entries : List (String × Json)) : Option String :=
  (shape.fields.find? fun field => field.required && !entries.any (·.1 == field.name)).map (·.name)

/-- What messages say about the length of a list in the place of the object. -/
def lengthText (shape : Shape α) : String :=
  let count := shape.fields.length
  "struct " ++ shape.title ++ " with " ++ Literal.integerText count
    ++ (if count = 1 then " element" else " elements")

/-- Reads the fields from a list that holds them in order; `index` counts them. -/
def visitList (shape : Shape α) : Nat → α → List (Field α) → List Json → Except DataFault α
  | _, object, [], [] => .ok object
  | index, _, [], rest => .error (.invalidLength (index + rest.length) "fewer elements in array")
  | index, object, field :: fields, [] =>
    if field.required then .error (.invalidLength index shape.lengthText)
    else visitList shape (index + 1) object fields []
  | index, object, field :: fields, value :: rest => do
    let object ← field.store value object
    visitList shape (index + 1) object fields rest

/-- Reads an object of the shape. -/
def read (shape : Shape α) : Json → Except DataFault α
  | .object entries => do
    let object ← shape.visit shape.start (Json.sorted entries)
    match shape.missing? entries with
    | some name => .error (.missingField name)
    | none => .ok object
  | .array items => shape.visitList 0 shape.start shape.fields items
  | value => .error (.invalidType value.found ("struct " ++ shape.title))

end Shape

/-- A field that is read as it is and stored by `set`. -/
def field {α β : Type} (name : String) (required : Bool) (read : Json → Except DataFault β)
    (set : β → α → α) : Field α :=
  ⟨name, required, fun value object => (read value).map (set · object)⟩

/-- The shape of an argument. -/
def Argument.shape : Shape Argument where
  title := "Argument"
  start := { name := "", destination := "" }
  fields := [
    field "name" true readText fun x a => { a with name := x },
    field "dest" true readText fun x a => { a with destination := x },
    field "type" false (readOptional (readChoice Kind.ofName? (Kind.all.map Kind.name)))
      fun x a => { a with kind := x },
    field "multiplicity" false (readOptional (readChoice Multiplicity.ofName? ["single", "list"]))
      fun x a => { a with multiplicity := x },
    field "help" false readText fun x a => { a with help := x },
    field "default" false readLiteral fun x a => { a with default := some x }]

/-- The shape of a flag. -/
def Flag.shape : Shape Flag where
  title := "AnnotationFlag"
  start := { name := "" }
  fields := [
    field "name" true readText fun x f => { f with name := x },
    field "values" false readValues fun x f => { f with values := x }]

/-- The shape of a command. -/
def Command.shape : Shape Command where
  title := "Command"
  start := { name := "" }
  fields := [
    field "name" true readText fun x c => { c with name := x },
    field "help" false readText fun x c => { c with help := x },
    field "args" false (readList Argument.shape.read) fun x c => { c with args := x },
    field "annotation_flags" false (readList Flag.shape.read) fun x c => { c with flags := x }]

/-- The shape of a module. -/
def Module.shape : Shape Module where
  title := "Module"
  start := { name := "", location := "" }
  fields := [
    field "name" true readText fun x m => { m with name := x },
    field "help" false readText fun x m => { m with help := x },
    field "args" false (readList Argument.shape.read) fun x m => { m with args := x },
    field "commands" false (readList Command.shape.read) fun x m => { m with commands := x },
    field "location" true readText fun x m => { m with location := x }]

/-- The shape of a collection. -/
def Collection.shape : Shape Collection where
  title := "ModuleCollection"
  start := {}
  fields := [field "modules" true (readList Module.shape.read) fun x c => { c with modules := x }]

/-- Reads an argument. -/
def Argument.ofJson (value : Json) : Except DataFault Argument := Argument.shape.read value

/-- Reads a flag. -/
def Flag.ofJson (value : Json) : Except DataFault Flag := Flag.shape.read value

/-- Reads a command. -/
def Command.ofJson (value : Json) : Except DataFault Command := Command.shape.read value

/-- Reads a module. -/
def Module.ofJson (value : Json) : Except DataFault Module := Module.shape.read value

/-- Reads a collection. -/
def Collection.ofJson (value : Json) : Except DataFault Collection := Collection.shape.read value

end Interface

end ClassCli
