import ClassCli.Entries
import ClassCli.Yaml.Token

/-!
# Nodes of a document

The tokens of a document are read as a tree of scalars, sequences and mappings. A node can carry a tag
and be given an anchor, to which aliases in later places refer; an alias stands for the node that was
last given the name before it.

* **`readDocument`** — the only document of a list of tokens.
-/

namespace ClassCli.Yaml

/-- A node of a document. -/
inductive Node where
  /-- A scalar; `bare` says that it has no quotes and is no block. -/
  | scalar (tag : Option (List Char)) (bare : Bool) (text : List Char)
  /-- A reference to the node with a certain anchor number. -/
  | alias (number : Nat)
  | sequence (tag : Option (List Char)) (items : List Node)
  | mapping (tag : Option (List Char)) (entries : List (Node × Node))
  deriving Repr, Inhabited

namespace Node

/-- The node for what is left out. -/
def missing (tag : Option (List Char) := none) : Node := .scalar tag true []

end Node

/-- What is left to read, and the anchors so far. -/
structure Remaining where
  tokens : List Token
  /-- What the shorthands of tags stand for. -/
  shorthands : List (List Char × List Char) := []
  /-- The number of the last anchor of every name. -/
  anchors : Entries Nat := []
  /-- How many anchors there have been. -/
  count : Nat := 0
  /-- The nodes of the anchors, by number. -/
  anchored : List (Nat × Node) := []
  deriving Repr, Inhabited

/-- A part of the grammar. -/
abbrev NodeReader (α : Type) := Remaining → Option (α × Remaining)

namespace Remaining

/-- The next token. -/
def peek (r : Remaining) : Option Token := r.tokens.head?

/-- What remains behind the next token. -/
def drop (r : Remaining) : Remaining := { r with tokens := r.tokens.drop 1 }

/-- Whether one of certain tokens comes next, or none at all. -/
def isAt (r : Remaining) (stops : List Token) : Bool :=
  match r.peek with
  | some token => stops.contains token
  | none => true

end Remaining

/-! ## Properties -/

/-- The properties in front of a node. -/
structure Properties where
  anchor : Option (List Char) := none
  tag : Option (List Char × List Char) := none
  deriving Repr, Inhabited

/-- The properties in front of a node: at most one anchor and one tag, in any order. -/
def readProperties (r : Remaining) : Properties × Remaining :=
  match r.tokens with
  | .anchor name :: .tag handle suffix :: rest => (⟨name, (handle, suffix)⟩, { r with tokens := rest })
  | .tag handle suffix :: .anchor name :: rest => (⟨name, (handle, suffix)⟩, { r with tokens := rest })
  | .anchor name :: rest => (⟨name, none⟩, { r with tokens := rest })
  | .tag handle suffix :: rest => (⟨none, (handle, suffix)⟩, { r with tokens := rest })
  | _ => ({}, r)

/-- The full form of a tag; none if its shorthand is not defined. -/
def fullTag (shorthands : List (List Char × List Char)) :
    Option (List Char × List Char) → Option (Option (List Char))
  | none => some none
  | some ([], suffix) => some (some suffix)
  | some (handle, suffix) =>
    ((shorthands.find? (·.1 == handle)).map (·.2)).map fun start => some (start ++ suffix)

/-- Gives the next anchor number to a name. -/
def Remaining.open (r : Remaining) (anchor : Option (List Char)) : Option Nat × Remaining :=
  match anchor with
  | none => (none, r)
  | some name =>
    (some r.count, { r with
      anchors := Entries.put (String.ofList name) r.count r.anchors, count := r.count + 1 })

/-- Remembers the node of an anchor number. -/
def Remaining.close (r : Remaining) (number : Option Nat) (node : Node) : Remaining :=
  match number with
  | none => r
  | some number => { r with anchored := (number, node) :: r.anchored }

/-! ## Collections -/

/-- A node, or the node for what is left out if one of certain tokens comes next. -/
def optionalNode (node : NodeReader Node) (stops : List Token) : NodeReader Node := fun r =>
  if r.isAt stops then some (.missing, r) else node r

/-- The items of a block sequence and its end. -/
def blockItems (node : NodeReader Node) : Nat → NodeReader (List Node)
  | 0, _ => none
  | fuel + 1, r =>
    match r.peek with
    | some .blockEntry => do
      let (item, r) ← optionalNode node [.blockEntry, .blockEnd] r.drop
      let (items, r) ← blockItems node fuel r
      return (item :: items, r)
    | some .blockEnd => some ([], r.drop)
    | _ => none

/-- The items of a sequence that stands at the indentation of the name it belongs to. -/
def flushItems (node : NodeReader Node) : Nat → NodeReader (List Node)
  | 0, _ => none
  | fuel + 1, r =>
    match r.peek with
    | some .blockEntry => do
      let (item, r) ← optionalNode node [.blockEntry, .key, .value, .blockEnd] r.drop
      let (items, r) ← flushItems node fuel r
      return (item :: items, r)
    | _ => some ([], r)

/-- The entries of a block mapping and its end. -/
def blockEntries (node : NodeReader Node) : Nat → NodeReader (List (Node × Node))
  | 0, _ => none
  | fuel + 1, r =>
    let stops : List Token := [.key, .value, .blockEnd]
    match r.peek with
    | some .key => do
      let (key, r) ← optionalNode node stops r.drop
      let (value, r) ← if r.peek == some .value then optionalNode node stops r.drop
        else some (.missing, r)
      let (entries, r) ← blockEntries node fuel r
      return ((key, value) :: entries, r)
    | some .blockEnd => some ([], r.drop)
    | _ => none

/-- The value behind a name in a flow collection, if there is one. -/
def flowValue (node : NodeReader Node) (ending : Token) : NodeReader Node := fun r =>
  if r.peek == some .value then optionalNode node [.flowEntry, ending] r.drop
  else some (.missing, r)

/-- Goes on behind the comma before an item that is not the first one. -/
def skipComma (first : Bool) (r : Remaining) : Option Remaining :=
  if first then some r else if r.peek == some .flowEntry then some r.drop else none

/-- The only entry of a mapping that is an item of a flow sequence, behind the mark of its name. -/
def singleEntry (node : NodeReader Node) : NodeReader Node := fun r => do
  let stops : List Token := [.value, .flowEntry, .flowSequenceEnd]
  let (key, r) ← if r.isAt stops then some (Node.missing, r.drop) else node r
  let (value, r) ← flowValue node .flowSequenceEnd r
  return (.mapping none [(key, value)], r)

/-- The items of a flow sequence and its end. -/
def flowItems (node : NodeReader Node) : Nat → Bool → NodeReader (List Node)
  | 0, _, _ => none
  | fuel + 1, first, r =>
    if r.peek == some .flowSequenceEnd then some ([], r.drop)
    else do
      let r ← skipComma first r
      if r.peek == some .flowSequenceEnd then return ([], r.drop)
      let (item, r) ← if r.peek == some .key then singleEntry node r.drop else node r
      let (items, r) ← flowItems node fuel false r
      return (item :: items, r)

/-- The entries of a flow mapping and its end. -/
def flowEntries (node : NodeReader Node) : Nat → Bool → NodeReader (List (Node × Node))
  | 0, _, _ => none
  | fuel + 1, first, r =>
    if r.peek == some .flowMappingEnd then some ([], r.drop)
    else do
      let r ← skipComma first r
      if r.peek == some .flowMappingEnd then return ([], r.drop)
      let (key, value, r) ←
        if r.peek == some .key then do
          let (key, r) ← optionalNode node [.value, .flowEntry, .flowMappingEnd] r.drop
          let (value, r) ← flowValue node .flowMappingEnd r
          pure (key, value, r)
        else do
          let (key, r) ← node r
          pure (key, Node.missing, r)
      let (entries, r) ← flowEntries node fuel false r
      return ((key, value) :: entries, r)

/-! ## Nodes -/

/-- Where a node stands. -/
structure Setting where
  /-- Whether it can be a block. -/
  inBlock : Bool
  /-- Whether it can be a sequence at the indentation of its name. -/
  behindName : Bool

/-- The content of a node behind its properties. `marked` says whether there were any; a node that
has some can be left out. -/
def readContent (node : Setting → NodeReader Node) (setting : Setting) (tag : Option (List Char))
    (marked : Bool) : NodeReader Node := fun r =>
  let fuel := r.tokens.length + 1
  let inner (inBlock behindName : Bool) : NodeReader Node := node ⟨inBlock, behindName⟩
  let sequence (x : Option (List Node × Remaining)) := x.map fun (items, r) =>
    (Node.sequence tag items, r)
  let mapping (x : Option (List (Node × Node) × Remaining)) := x.map fun (entries, r) =>
    (Node.mapping tag entries, r)
  let otherwise := if marked then some (Node.missing tag, r) else none
  match r.peek with
  | some (.scalar bare text) => some (.scalar tag bare text, r.drop)
  | some .flowSequenceStart => sequence (flowItems (inner false false) fuel true r.drop)
  | some .flowMappingStart => mapping (flowEntries (inner false false) fuel true r.drop)
  | some .blockEntry =>
    if setting.behindName then sequence (flushItems (inner true false) fuel r) else otherwise
  | some .blockSequenceStart =>
    if setting.inBlock then sequence (blockItems (inner true false) fuel r.drop) else otherwise
  | some .blockMappingStart =>
    if setting.inBlock then mapping (blockEntries (inner true true) fuel r.drop) else otherwise
  | _ => otherwise

/-- A node at a depth of at most `depth`. -/
def readNode : Nat → Setting → NodeReader Node
  | 0, _, _ => none
  | depth + 1, setting, r =>
    match r.peek with
    | some (.alias name) =>
      (Entries.get? (String.ofList name) r.anchors).map fun number => (.alias number, r.drop)
    | _ =>
      let (properties, r) := readProperties r
      match fullTag r.shorthands properties.tag with
      | none => none
      | some tag =>
        let (number, r) := r.open properties.anchor
        let marked := properties.anchor.isSome || properties.tag.isSome
        (readContent (readNode depth) setting tag marked r).map fun (node, r) =>
          (node, r.close number node)

/-! ## Documents -/

/-- What tags mean by themselves. -/
def defaultShorthands : List (List Char × List Char) :=
  [(['!'], ['!']), (['!', '!'], "tag:yaml.org,2002:".toList)]

/-- The shorthands that directives in front of a document define; each at most once, like the version,
which has to be a known one. -/
def readDirectives : Bool → List (List Char × List Char) → List Token →
    Option (List (List Char × List Char) × List Token)
  | versioned, defined, .version major minor :: rest =>
    if versioned || major != 1 || (minor != 1 && minor != 2) then none
    else readDirectives true defined rest
  | versioned, defined, .tagShorthand handle start :: rest =>
    if defined.any (·.1 == handle) then none
    else readDirectives versioned (defined ++ [(handle, start)]) rest
  | _, defined, rest => some (defined, rest)

/-- Whether a token is one that stands in front of a document. -/
def opensDocument : Token → Bool
  | .version .. | .tagShorthand .. | .documentStart => true
  | _ => false

/-- What remains behind the start of the first document; none if there is no document. The end of a
document cannot come first. -/
def startDocument (tokens : List Token) : Option Remaining :=
  match tokens with
  | [] | .documentEnd :: _ => none
  | token :: _ =>
    if !opensDocument token then some { tokens, shorthands := defaultShorthands }
    else match readDirectives false [] tokens with
      | some (defined, .documentStart :: rest) =>
        some { tokens := rest, shorthands := defined ++ defaultShorthands }
      | _ => none

/-- The node of a document, which is left out if the document ends at once. -/
def readRoot (r : Remaining) : Option (Node × Remaining) :=
  let ends := match r.peek with
    | none | some .documentEnd => true
    | some token => opensDocument token
  if ends then some (.missing, r)
  else readNode (r.tokens.length + 1) ⟨true, false⟩ r

/-- The only document of a text: its node, and the nodes that aliases in it stand for. -/
def readDocument (tokens : List Token) : Option (Node × List (Nat × Node)) :=
  match startDocument tokens with
  | none => none
  | some r =>
    match readRoot r with
    | some (node, after) =>
      if after.tokens.all (· == .documentEnd) then some (node, after.anchored) else none
    | none => none

end ClassCli.Yaml
