import ClassCli.Decimal.Layout
import ClassCli.Entries
import ClassCli.Text.Basic

/-!
# JSON values

A JSON value whose numbers are integers or floating-point numbers. The entries of an object are kept
in the order in which they were given; `Json.sorted` puts names in ascending order, where the last of
several entries of one name stands for all of them.
-/

namespace ClassCli

open Decimal (Binary64)

/-- A JSON value. -/
inductive Json where
  | null
  | bool (value : Bool)
  | int (value : Int)
  | float (value : Binary64)
  | string (text : String)
  | array (items : List Json)
  | object (entries : List (String × Json))
  deriving Repr, Inhabited

namespace Json

/-- Whether a name comes before another: by code points, a beginning before what it begins. -/
def nameBefore : List Char → List Char → Bool
  | _, [] => false
  | [], _ :: _ => true
  | a :: as, b :: bs => if a = b then nameBefore as bs else a.toNat < b.toNat

/-- Puts an entry in its place among entries in ascending order; it replaces one of its name. -/
def insertSorted {α : Type} (name : String) (value : α) : Entries α → Entries α
  | [] => [(name, value)]
  | (key, old) :: rest =>
    if key = name then (name, value) :: rest
    else if nameBefore name.toList key.toList then (name, value) :: (key, old) :: rest
    else (key, old) :: insertSorted name value rest

/-- Entries in ascending order of their names, the last of each name. -/
def sorted {α : Type} (entries : List (String × α)) : Entries α :=
  entries.foldl (fun sofar (name, value) => insertSorted name value sofar) []

end Json

end ClassCli
