import ClassCli.Text.Basic

/-!
# Type expressions

A type annotation is read from its source text: a dotted name, a dotted name with arguments in
square brackets, or anything else. Quotes around an annotation are dropped, and a union with `None`
stands for its other member.

* **`TypeExpr.parse`** — reads an annotation.
* **`TypeExpr.baseName?`** — the last part of the name.
-/

namespace ClassCli.Outline

open Text

/-- A type annotation. -/
inductive TypeExpr where
  | name (text : String)
  | subscript (base : String) (args : List TypeExpr)
  | other (text : String)
  deriving Repr, Inhabited

namespace TypeExpr

/-- The pieces between the occurrences of a character outside brackets. `depth` counts the open
brackets and `piece` is what has been read of the current piece, last character first. -/
def splitTopFrom (mark : Char) : Nat → List Char → List Char → List (List Char)
  | _, piece, [] => [piece.reverse]
  | depth, piece, c :: rest =>
    if c = '[' || c = '(' then splitTopFrom mark (depth + 1) (c :: piece) rest
    else if c = ']' || c = ')' then splitTopFrom mark (depth - 1) (c :: piece) rest
    else if c = mark && depth == 0 then piece.reverse :: splitTopFrom mark depth [] rest
    else splitTopFrom mark depth (c :: piece) rest

/-- The trimmed pieces between the occurrences of a character outside brackets. -/
def splitTop (mark : Char) (s : List Char) : List (List Char) :=
  (splitTopFrom mark 0 [] s).map trim

/-- The text between two equal quotes of one kind. -/
def between (quote : Char) (s : List Char) : Option (List Char) :=
  (afterStart [quote] s).bind (beforeEnd [quote])

/-- The text between matching quotes. -/
def unquoted (s : List Char) : Option (List Char) :=
  match between '\x22' s with
  | some inner => some inner
  | none => between '\x27' s

/-- The base and the argument text of a dotted name with square brackets. -/
def subscripted (s : List Char) : Option (List Char × List Char) :=
  match splitOnce '[' s with
  | none => none
  | some (before, after) =>
    let base := trim before
    match beforeEnd [']'] after with
    | some inner => if isDottedName base then some (base, inner) else none
    | none => none

/-- Reads a type from text; the text bounds the depth. -/
def parseTo : Nat → List Char → TypeExpr
  | 0, s => .other (String.ofList s)
  | depth + 1, s =>
    let s := trim s
    match unquoted s with
    | some inner => parseTo depth inner
    | none =>
      match splitTop '|' s with
      | _ :: _ :: _ =>
        match (splitTop '|' s).filter (· != ['N', 'o', 'n', 'e']) with
        | [member] => parseTo depth member
        | _ => .other (String.ofList s)
      | _ =>
        match subscripted s with
        | some (base, inner) =>
          let pieces := (splitTop ',' inner).filter (!·.isEmpty)
          .subscript (String.ofList base) (pieces.map (parseTo depth))
        | none =>
          -- a name with brackets in it is not dotted
          if isDottedName s then .name (String.ofList s) else .other (String.ofList s)

/-- Reads a type annotation. -/
def parse (text : String) : TypeExpr := parseTo (text.toList.length + 1) text.toList

/-- The part of a dotted name after its last point. -/
def lastPart (name : String) : String :=
  String.ofList ((splitAt '.' name.toList).getLastD [])

/-- The last part of a name or of a subscripted name. -/
def baseName? : TypeExpr → Option String
  | .name text => some (lastPart text)
  | .subscript base _ => some (lastPart base)
  | .other _ => none

end TypeExpr

end ClassCli.Outline
