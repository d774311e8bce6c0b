import ClassCli.Json.Value
import ClassCli.Yaml.Node
import ClassCli.Yaml.Resolution

/-!
# Reading YAML

A document becomes a JSON value. Names are the texts of scalars, of several entries with one name the
last one counts, and numbers that are infinite or none at all become `null`. Nesting is limited: more
than 128 collections inside one another are refused.

* **`parse?`** — the value of a text; none if it is no YAML or holds more than one document.
-/

namespace ClassCli.Yaml

/-- The value of an integer; one outside the range of 64 bits has none. -/
def integerValue (i : Int) : Option Json :=
  if -0x8000000000000000 ≤ i && i < 0x10000000000000000 then some (.int i) else none

/-- The value of a floating-point number. -/
def numberValue (x : Decimal.Binary64) : Json := if x.isFinite then .float x else .null

/-- The value of a scalar without quotes or tag. -/
def plainValue (text : String) : Option Json :=
  match resolve text with
  | .null => some .null
  | .bool b => some (.bool b)
  | .int i => integerValue i
  | .float x => some (numberValue x)
  | .text => some (.string text)

/-- The value of a scalar with a tag. A tag of the document's own has no value. -/
def taggedValue (tag : List Char) (text : String) : Option Json :=
  let standard (name : String) : Bool := tag == ("tag:yaml.org,2002:" ++ name).toList
  if tag.head? == some '!' then none
  else if standard "bool" then (bool? text).map .bool
  else if standard "int" then (integer? text.toList).bind integerValue
  else if standard "float" then (float? text.toList).map numberValue
  else if standard "null" then if isNull text then some .null else none
  else some (.string text)

/-- The value of a scalar. -/
def scalarValue (tag : Option (List Char)) (bare : Bool) (text : List Char) : Option Json :=
  let text := String.ofList text
  match tag with
  | some tag => taggedValue tag text
  | none => if bare then plainValue text else some (.string text)

/-- Whether a tag is one of the document's own. -/
def isOwnTag (tag : Option (List Char)) : Bool := (tag.map (·.head? == some '!')).getD false

mutual

/-- The number of scalars, aliases and ends of collections in a node. -/
def weight : Node → Nat
  | .scalar .. => 1
  | .alias _ => 1
  | .sequence _ items => weightAll items + 2
  | .mapping _ entries => weightEntries entries + 2

/-- The weights of nodes together. -/
def weightAll : List Node → Nat
  | [] => 0
  | node :: rest => weight node + weightAll rest

/-- The weights of names and values together. -/
def weightEntries : List (Node × Node) → Nat
  | [] => 0
  | (key, value) :: rest => weight key + weight value + weightEntries rest

end

/-- A computation that may follow a limited number of aliases. -/
abbrev Following := StateT Nat Option

/-- The node that a node stands for. An alias uses up one of those that may be followed. -/
def follow (anchored : List (Nat × Node)) (node : Node) : Following Node := do
  match node with
  | .alias number =>
    match ← get with
    | 0 => failure
    | left + 1 => set left
    match anchored.find? (·.1 == number) with
    | some (_, node) => return node
    | none => failure
  | node => return node

/-- The name that a node spells. -/
def nameOf (anchored : List (Nat × Node)) (node : Node) : Following String := do
  match ← follow anchored node with
  | .scalar _ _ text => return String.ofList text
  | _ => failure

/-- The value of a node with at most `depth` collections inside one another. -/
def valueOf (anchored : List (Nat × Node)) (depth : Nat) (node : Node) : Following Json := do
  match ← follow anchored node, depth with
  | .scalar tag bare text, _ => StateT.lift (scalarValue tag bare text)
  | .sequence tag items, depth + 1 =>
    if isOwnTag tag then failure
    else return .array (← items.mapM (valueOf anchored depth))
  | .mapping tag entries, depth + 1 =>
    if isOwnTag tag then failure
    else
      let entries ← entries.mapM fun (key, value) => do
        return (← nameOf anchored key, ← valueOf anchored depth value)
      return .object (Json.sorted entries)
  | _, _ => failure

/-- How many collections can stand inside one another. -/
def depthLimit : Nat := 128

/-- How many aliases can be followed for each part of a document. -/
def followLimit : Nat := 100

/-- The value of a text. -/
def parse? (text : String) : Option Json :=
  match (tokens? text).bind readDocument with
  | none => none
  | some (node, anchored) => (valueOf anchored depthLimit node).run' (followLimit * weight node)

end ClassCli.Yaml
