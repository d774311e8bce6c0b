/-!
# Entries in insertion order

A map from names to values that remembers the order in which its names came first. Storing a value
under a name that is already there replaces the value and leaves its place.

* **`Entries.put`**, **`Entries.get?`** — storing and reading.
* **`Entries.ofPairs`** — stores pairs one after the other.
-/

namespace ClassCli

/-- Names with values, in the order in which the names came first. -/
abbrev Entries (α : Type) := List (String × α)

namespace Entries

variable {α β : Type}

/-- The value stored under a name. -/
def get? (name : String) : Entries α → Option α
  | [] => none
  | (key, value) :: rest => if key = name then some value else get? name rest

/-- Stores a value: in the place of the name if it is there, at the end otherwise. -/
def put (name : String) (value : α) : Entries α → Entries α
  | [] => [(name, value)]
  | (key, old) :: rest =>
    if key = name then (key, value) :: rest else (key, old) :: put name value rest

/-- The names, in order. -/
def keys (entries : Entries α) : List String := entries.map Prod.fst

/-- The values, in the order of their names. -/
def values (entries : Entries α) : List α := entries.map Prod.snd

/-- Whether a name is there. -/
def has (name : String) (entries : Entries α) : Bool := (get? name entries).isSome

/-- Stores pairs one after the other. -/
def ofPairs (pairs : List (String × α)) : Entries α :=
  pairs.foldl (fun entries (name, value) => put name value entries) []

/-- The entries without a name. -/
def remove (name : String) (entries : Entries α) : Entries α := entries.filter (·.1 != name)

@[simp] theorem get?_nil (name : String) : get? name ([] : Entries α) = none := rfl

@[simp] theorem get?_put_self (name : String) (value : α) (entries : Entries α) :
    get? name (put name value entries) = some value := by
  induction entries with
  | nil => simp [put, get?]
  | cons entry rest ih =>
    obtain ⟨key, old⟩ := entry
    by_cases h : key = name <;> simp [put, get?, h, ih]

theorem get?_put_of_ne {name other : String} (h : other ≠ name) (value : α)
    (entries : Entries α) : get? other (put name value entries) = get? other entries := by
  induction entries with
  | nil => simp [put, get?, Ne.symm h]
  | cons entry rest ih =>
    obtain ⟨key, old⟩ := entry
    by_cases hk : key = name
    · subst hk
      simp [put, get?, Ne.symm h]
    · simp [put, get?, hk, ih]

/-- Storing under a new name puts it last; storing under a known one keeps the names as they are. -/
theorem keys_put (name : String) (value : α) (entries : Entries α) :
    keys (put name value entries) =
      if name ∈ keys entries then keys entries else keys entries ++ [name] := by
  induction entries with
  | nil => simp [put, keys]
  | cons entry rest ih =>
    obtain ⟨key, old⟩ := entry
    by_cases hk : key = name
    · simp [put, keys, hk]
    · have hn : ¬name = key := fun e => hk e.symm
      simp only [keys] at ih
      simp only [put, keys, hk, if_false, List.map_cons, List.mem_cons, hn, false_or, ih]
      split <;> simp_all

end Entries

end ClassCli
