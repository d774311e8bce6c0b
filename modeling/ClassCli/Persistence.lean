import ClassCli.Fault
import ClassCli.Interface.Dictionary
import ClassCli.Json.Printer
import ClassCli.Json.Reader
import ClassCli.Path
import ClassCli.Yaml.Printer
import ClassCli.Yaml.Reader

/-!
# Persisted collections

A collection is kept in a file as JSON or as YAML; the extension of the file's name tells which of the
two it is, in whatever case.

* **`formatOf`** — the format of a path, if its name has an extension.
* **`render`**, **`read`** — the text of a collection and the collection of a text.
-/

namespace ClassCli.Persistence

open Interface (Collection)

/-- A textual format. -/
inductive Format where
  | json
  | yaml
  deriving DecidableEq, Repr, Inhabited

/-- The name of a format. -/
def Format.name : Format → String
  | .json => "json"
  | .yaml => "yaml"

/-- The format that an extension in lower case stands for. -/
def Format.ofExtension? : String → Option Format
  | "json" => some .json
  | "yaml" => some .yaml
  | "yml" => some .yaml
  | _ => none

/-- The format of a path; there is none if its name has no extension. -/
def formatOf (path : String) : Except Fault (Option Format) :=
  match Path.extension? path with
  | none => .ok none
  | some extension =>
    match Format.ofExtension? (String.ofList (Text.asciiLower extension.toList)) with
    | some format => .ok (some format)
    | none => .error (.unsupportedFormat extension path)

/-- The format of a path that must have one. -/
def requiredFormat (path : String) : Except Fault Format :=
  match formatOf path with
  | .ok (some format) => .ok format
  | .ok none => .error (.unsupportedFormat "" path)
  | .error fault => .error fault

/-- The text of a collection. -/
def render (format : Format) (collection : Collection) : String :=
  match format with
  | .json => collection.toJson.pretty ++ "\n"
  | .yaml => Yaml.document collection.toJson

/-- The value that a text holds. -/
def value (format : Format) (text : String) : Except Fault Json :=
  match format with
  | .json =>
    match Json.parse? text with
    | some value => .ok value
    | none => .error .notJson
  | .yaml =>
    match Yaml.parse? text with
    | some value => .ok value
    | none => .error .notYaml

/-- The collection that a text holds. -/
def read (format : Format) (text : String) : Except Fault Collection :=
  (value format text).bind fun value => (Collection.ofJson value).mapError .data

end ClassCli.Persistence
