import ClassCli.Json.Value
import ClassCli.Literal
import ClassCli.Text.Printable

/-!
# Faults in descriptions

What can be wrong with a JSON value that should describe a part of an interface.

* **`DataFault.message`** — the wording of a fault.
* **`Json.found`** — how a value of the wrong kind is named.
-/

namespace ClassCli

/-- Numbers in messages about data: always positional. -/
def Json.plainLayout : Decimal.Layout := ⟨-400, 400, "", "inf", "NaN"⟩

/-- How a value is named in a message. -/
def Json.found : Json → String
  | .null => "null"
  | .bool b => "boolean `" ++ (if b then "true" else "false") ++ "`"
  | .int i => "integer `" ++ Literal.integerText i ++ "`"
  | .float x => "floating point `" ++ Json.plainLayout.text x ++ "`"
  | .string s => "string " ++ Text.quoted s
  | .array _ => "sequence"
  | .object _ => "map"

namespace Interface

/-- What is wrong with a value. -/
inductive DataFault where
  | missingField (name : String)
  /-- A value of the wrong kind. -/
  | invalidType (found expected : String)
  /-- A name outside a closed list of names. -/
  | unknownVariant (name : String) (known : List String)
  /-- A list with too few or too many items. -/
  | invalidLength (length : Nat) (expected : String)
  /-- An object that should name one thing. -/
  | notSingle
  /-- A value that no literal stands for. -/
  | noLiteral
  deriving DecidableEq, Repr, Inhabited

namespace DataFault

/-- A name between back quotes. -/
def ticked (name : String) : String := "`" ++ name ++ "`"

/-- The list of the names that are known. -/
def alternatives : List String → String
  | [a, b] => ticked a ++ " or " ++ ticked b
  | names => "one of " ++ Text.joinStrings ", " (names.map ticked)

/-- The wording of a fault. -/
def message : DataFault → String
  | .missingField name => "missing field " ++ ticked name
  | .invalidType found expected => "invalid type: " ++ found ++ ", expected " ++ expected
  | .unknownVariant name known =>
    "unknown variant " ++ ticked name ++ ", expected " ++ alternatives known
  | .invalidLength length expected =>
    "invalid length " ++ Literal.integerText length ++ ", expected " ++ expected
  | .notSingle => "invalid value: map, expected map with a single key"
  | .noLiteral => "data did not match any variant of untagged enum Literal"

end DataFault

end Interface

end ClassCli
