import Mathlib.Data.List.Forall2
import Mathlib.Data.List.Induction
import Mathlib.Data.List.Nodup
import ClassCli.Entries

/-!
# Looking up and storing entries

A name leads to the first entry that carries it, so the value behind it depends only on which entries
come first. What is stored under a new name stands at the end.
-/

namespace ClassCli

variable {α β : Type}

/-! ## The last item that passes a test -/

/-- What stands behind decides before what stands in front. -/
theorem findRev?_cons (test : α → Bool) (first : α) (rest : List α) :
    (first :: rest).findRev? test = (rest.findRev? test).or (if test first then some first else none) := by
  rw [List.findRev?]
  cases rest.findRev? test with
  | none => rfl
  | some found => rfl

theorem findRev?_append (test : α → Bool) (front back : List α) :
    (front ++ back).findRev? test = (back.findRev? test).or (front.findRev? test) := by
  rw [List.findRev?_eq_find?_reverse, List.reverse_append, List.find?_append,
    ← List.findRev?_eq_find?_reverse, ← List.findRev?_eq_find?_reverse]

theorem findRev?_map (f : α → β) (test : β → Bool) (items : List α) :
    (items.map f).findRev? test = (items.findRev? fun item => test (f item)).map f := by
  rw [List.findRev?_eq_find?_reverse, ← List.map_reverse, List.find?_map, List.findRev?_eq_find?_reverse]
  rfl

namespace Entries

theorem get?_append (name : String) (front back : Entries α) :
    get? name (front ++ back) = (get? name front).or (get? name back) := by
  induction front with
  | nil => rfl
  | cons first rest ih =>
    obtain ⟨key, value⟩ := first
    rw [List.cons_append, get?, get?]
    split
    · rfl
    · exact ih

theorem get?_eq_none {name : String} {entries : Entries α} (h : name ∉ keys entries) :
    get? name entries = none := by
  induction entries with
  | nil => rfl
  | cons first rest ih =>
    obtain ⟨key, value⟩ := first
    rw [keys, List.map_cons, List.mem_cons, not_or] at h
    rw [get?, if_neg fun e => h.1 e.symm]
    exact ih h.2

/-- A value is found under a changed name if no two names change into one. -/
theorem get?_map {f : String → String} (hf : ∀ {a b}, f a = f b → a = b) (g : α → β) (name : String)
    (entries : Entries α) :
    get? (f name) (entries.map fun entry => (f entry.1, g entry.2)) = (get? name entries).map g := by
  induction entries with
  | nil => rfl
  | cons first rest ih =>
    obtain ⟨key, value⟩ := first
    rw [List.map_cons, get?, get?]
    by_cases hkey : key = name
    · rw [if_pos (congrArg f hkey), if_pos hkey]
      rfl
    · rw [if_neg (fun h => hkey (hf h)), if_neg hkey, ih]

/-- The same for storing a value. -/
theorem put_map {f : String → String} (hf : ∀ {a b}, f a = f b → a = b) (g : α → β) (name : String) (value : α)
    (entries : Entries α) :
    put (f name) (g value) (entries.map fun entry => (f entry.1, g entry.2))
      = (put name value entries).map fun entry => (f entry.1, g entry.2) := by
  induction entries with
  | nil => rfl
  | cons first rest ih =>
    obtain ⟨key, old⟩ := first
    rw [List.map_cons, put, put]
    by_cases hkey : key = name
    · rw [if_pos (congrArg f hkey), if_pos hkey]
      rfl
    · rw [if_neg (fun h => hkey (hf h)), if_neg hkey, ih]
      rfl

/-- Storing a value takes no name away. -/
theorem has_put {other : String} {entries : Entries α} (h : has other entries = true)
    (name : String) (value : α) : has other (put name value entries) = true := by
  by_cases hname : other = name
  · rw [has, hname, get?_put_self]
    rfl
  · rw [has, get?_put_of_ne hname]
    exact h

/-! ## Names that are taken away -/

theorem get?_remove_of_ne {name other : String} (h : other ≠ name) (entries : Entries α) :
    get? other (remove name entries) = get? other entries := by
  induction entries with
  | nil => rfl
  | cons first rest ih =>
    obtain ⟨key, value⟩ := first
    rw [remove] at ih
    by_cases hkey : key = name
    · have hdrop : ((key, value) :: rest).filter (·.1 != name) = rest.filter (·.1 != name) :=
        List.filter_cons_of_neg (by simp [hkey])
      rw [remove, hdrop, ih, get?, if_neg (hkey ▸ h.symm)]
    · have hkeep : ((key, value) :: rest).filter (·.1 != name) = (key, value) :: rest.filter (·.1 != name) :=
        List.filter_cons_of_pos (by simpa using hkey)
      rw [remove, hkeep, get?, get?, ih]

/-- Of two values under one name the later one is kept. -/
theorem put_put (name : String) (old value : α) (entries : Entries α) :
    put name value (put name old entries) = put name value entries := by
  induction entries with
  | nil => simp [put]
  | cons first rest ih =>
    obtain ⟨key, kept⟩ := first
    by_cases hkey : key = name
    · rw [put, if_pos hkey, put, if_pos hkey, put, if_pos hkey]
    · rw [put, if_neg hkey, put, if_neg hkey, ih, put, if_neg hkey]

/-! ## New names -/

section New

variable {name : String} {entries : Entries α} (h : name ∉ keys entries)
include h

/-- A value under a new name is stored at the end. -/
theorem put_of_not_mem (value : α) : put name value entries = entries ++ [(name, value)] := by
  induction entries with
  | nil => rfl
  | cons first rest ih =>
    obtain ⟨key, old⟩ := first
    rw [keys, List.map_cons, List.mem_cons, not_or] at h
    rw [put, if_neg fun e => h.1 e.symm, ih h.2, List.cons_append]

/-- The value at the end is replaced. -/
theorem put_concat (old value : α) :
    put name value (entries ++ [(name, old)]) = entries ++ [(name, value)] := by
  induction entries with
  | nil => rw [List.nil_append, put, if_pos rfl, List.nil_append]
  | cons first rest ih =>
    obtain ⟨key, kept⟩ := first
    rw [keys, List.map_cons, List.mem_cons, not_or] at h
    rw [List.cons_append, put, if_neg fun e => h.1 e.symm, ih h.2, List.cons_append]

theorem get?_concat (value : α) : get? name (entries ++ [(name, value)]) = some value := by
  rw [get?_append, get?_eq_none h, get?, if_pos rfl, Option.none_or]

end New

theorem foldl_put {stored pairs : Entries α} (h : (keys (stored ++ pairs)).Nodup) :
    pairs.foldl (fun entries pair => put pair.1 pair.2 entries) stored = stored ++ pairs := by
  induction pairs generalizing stored with
  | nil => exact (List.append_nil stored).symm
  | cons pair rest ih =>
    have hnew : pair.1 ∉ keys stored := by
      rw [keys, List.map_append] at h
      exact fun hmem => List.disjoint_of_nodup_append h hmem List.mem_cons_self
    rw [List.append_cons] at h
    rw [List.foldl_cons, put_of_not_mem hnew, ih h, ← List.append_cons]

/-- **Pairs of different names** are stored as they are. -/
theorem ofPairs_of_nodup {pairs : Entries α} (h : (keys pairs).Nodup) : ofPairs pairs = pairs :=
  foldl_put h

/-- **Of several values under one name the last one counts**, and each of them before what was stored. -/
theorem get?_foldl_put (name : String) (pairs : Entries α) :
    ∀ stored, get? name (pairs.foldl (fun entries pair => put pair.1 pair.2 entries) stored)
      = ((pairs.findRev? (·.1 == name)).map Prod.snd).or (get? name stored) := by
  induction pairs with
  | nil =>
    intro stored
    rfl
  | cons pair rest ih =>
    intro stored
    rw [List.foldl_cons, ih, findRev?_cons]
    cases hrest : rest.findRev? (·.1 == name) with
    | some found => rfl
    | none =>
      by_cases hname : pair.1 = name
      · simp [hname]
      · simp [hname, get?_put_of_ne (Ne.symm hname)]

/-- What is stored under other names hides nothing. -/
theorem get?_foldl_put_of_not_mem {name : String} {pairs : Entries α} (h : name ∉ keys pairs)
    (stored : Entries α) :
    get? name (pairs.foldl (fun entries pair => put pair.1 pair.2 entries) stored) = get? name stored := by
  have hnone : pairs.findRev? (·.1 == name) = none := by
    rw [List.findRev?_eq_find?_reverse, List.find?_eq_none]
    intro pair hpair hname
    exact h (List.mem_map.mpr ⟨pair, List.mem_reverse.mp hpair, beq_iff_eq.mp hname⟩)
  rw [get?_foldl_put, hnone]
  rfl

/-- Values under known names leave the names as they are. -/
theorem keys_foldl_put {pairs stored : Entries α} (h : ∀ pair ∈ pairs, pair.1 ∈ keys stored) :
    keys (pairs.foldl (fun entries pair => put pair.1 pair.2 entries) stored) = keys stored := by
  induction pairs generalizing stored with
  | nil => rfl
  | cons pair rest ih =>
    rw [List.forall_mem_cons] at h
    have hkeys : keys (put pair.1 pair.2 stored) = keys stored := by rw [keys_put, if_pos h.1]
    rw [List.foldl_cons, ih (by rw [hkeys]; exact h.2), hkeys]

theorem mem_of_get?_eq_some {name : String} {value : α} {entries : Entries α}
    (h : get? name entries = some value) : (name, value) ∈ entries := by
  induction entries with
  | nil => cases h
  | cons first rest ih =>
    obtain ⟨key, other⟩ := first
    rw [get?] at h
    split at h
    · rename_i heq
      cases h
      rw [heq]
      exact List.mem_cons_self
    · exact List.mem_cons_of_mem _ (ih h)

theorem has_iff {name : String} {entries : Entries α} : has name entries = true ↔ name ∈ keys entries := by
  induction entries with
  | nil => simp [has, keys]
  | cons first rest ih =>
    obtain ⟨key, value⟩ := first
    rw [keys, List.map_cons, List.mem_cons, ← keys, ← ih, has, get?]
    by_cases hkey : key = name
    · simp [hkey]
    · rw [if_neg hkey, ← has]
      simp [Ne.symm hkey]

/-- A name that comes once leads to its value. -/
theorem get?_of_mem {name : String} {value : α} {entries : Entries α} (h : (keys entries).Nodup)
    (hmem : (name, value) ∈ entries) : get? name entries = some value := by
  induction entries with
  | nil => exact absurd hmem List.not_mem_nil
  | cons first rest ih =>
    obtain ⟨key, other⟩ := first
    rw [keys, List.map_cons, List.nodup_cons] at h
    rw [get?]
    rcases List.mem_cons.mp hmem with heq | hmem
    · cases heq
      rw [if_pos rfl]
    · have hne : key ≠ name := by
        rintro rfl
        exact h.1 (List.mem_map.mpr ⟨_, hmem, rfl⟩)
      rw [if_neg hne, ih h.2 hmem]

/-- The entry at a place is told from the name there and the value behind the name. -/
theorem getElem?_eq {entries : Entries α} (h : (keys entries).Nodup) (place : Nat) :
    entries[place]? = (keys entries)[place]?.bind fun key => (get? key entries).map (key, ·) := by
  rw [keys, List.getElem?_map]
  cases hentry : entries[place]? with
  | none => rfl
  | some entry =>
    have hvalue : get? entry.1 entries = some entry.2 := get?_of_mem h (List.mem_of_getElem? hentry)
    simp [hvalue]

/-! ## Values stored under their own names -/

section Collect

variable (name : α → String)

/-- Stores values under their own names, one after the other. -/
def collect (items : List α) : Entries α :=
  items.foldl (fun entries item => put (name item) item entries) []

theorem collect_concat (items : List α) (item : α) :
    collect name (items ++ [item]) = put (name item) item (collect name items) := by
  rw [collect, List.foldl_concat]
  rfl

/-- **The names come in the order of their first values.** -/
theorem keys_collect (items : List α) : keys (collect name items) = (items.map name).eraseDups := by
  induction items using List.reverseRecOn with
  | nil => rfl
  | append_singleton items item ih =>
    have hmem : name item ∈ (items.map name).eraseDups ↔ (items.map name).elem (name item) = true := by
      rw [List.mem_eraseDups, List.elem_eq_mem, decide_eq_true_iff]
    rw [collect_concat, keys_put, ih, List.map_append, List.map_singleton, List.eraseDups_append,
      List.removeAll, List.filter_singleton]
    cases h : (items.map name).elem (name item) with
    | true =>
      rw [if_pos (hmem.mpr h)]
      exact (List.append_nil _).symm
    | false =>
      rw [if_neg fun hnew => Bool.false_ne_true (h.symm.trans (hmem.mp hnew))]
      rfl

/-- **Under a name stands its last value.** -/
theorem get?_collect (key : String) (items : List α) :
    get? key (collect name items) = items.findRev? (name · == key) := by
  have hpairs : collect name items
      = (items.map fun item => (name item, item)).foldl (fun entries pair => put pair.1 pair.2 entries) [] := by
    rw [List.foldl_map, collect]
  rw [hpairs, get?_foldl_put, get?_nil, Option.or_none, findRev?_map, Option.map_map]
  exact Option.map_id'

theorem nodup_keys_put {key : String} {entries : Entries α} (h : (keys entries).Nodup) (value : α) :
    (keys (put key value entries)).Nodup := by
  rw [keys_put]
  split
  · exact h
  · rename_i hnew
    rw [← List.concat_eq_append]
    exact h.concat hnew

theorem nodup_keys_collect (items : List α) : (keys (collect name items)).Nodup := by
  induction items using List.reverseRecOn with
  | nil => exact List.nodup_nil
  | append_singleton items item ih =>
    rw [collect_concat]
    exact nodup_keys_put ih item

theorem mem_put {key : String} {value : α} {entries : Entries α} :
    ∀ entry ∈ put key value entries, entry = (key, value) ∨ entry ∈ entries := by
  induction entries with
  | nil =>
    intro entry h
    exact Or.inl (List.mem_singleton.mp h)
  | cons first rest ih =>
    obtain ⟨other, old⟩ := first
    intro entry h
    rw [put] at h
    split at h
    · rename_i heq
      rcases List.mem_cons.mp h with rfl | h
      · exact Or.inl (by rw [heq])
      · exact Or.inr (List.mem_cons_of_mem _ h)
    · rcases List.mem_cons.mp h with rfl | h
      · exact Or.inr List.mem_cons_self
      · exact (ih entry h).imp_right (List.mem_cons_of_mem _)

/-- What is stored under a name has this name. -/
theorem name_of_mem_collect (items : List α) :
    ∀ entry ∈ collect name items, name entry.2 = entry.1 := by
  induction items using List.reverseRecOn with
  | nil => exact List.forall_mem_nil _
  | append_singleton items item ih =>
    intro entry h
    rw [collect_concat] at h
    rcases mem_put entry h with rfl | h
    · rfl
    · exact ih entry h

/-- The values of the names in order. -/
theorem map_values_collect (items : List α) :
    (values (collect name items)).map name = (items.map name).eraseDups := by
  rw [← keys_collect, values, List.map_map, keys]
  exact List.map_congr_left fun entry h => name_of_mem_collect name items entry h

/-- **Every value that is left is the last one of its name.** -/
theorem findRev?_of_mem_collect {items : List α} {item : α} (h : item ∈ values (collect name items)) :
    items.findRev? (name · == name item) = some item := by
  obtain ⟨⟨key, value⟩, hmem, rfl⟩ := List.mem_map.mp h
  have hname : name value = key := name_of_mem_collect name items _ hmem
  show items.findRev? (name · == name value) = some value
  rw [← get?_collect, hname]
  exact get?_of_mem (nodup_keys_collect name items) hmem

end Collect

section Related

variable {R : α → β → Prop}

/-- Related values under the same name. -/
def Stored (R : α → β → Prop) (entry : String × α) (entry' : String × β) : Prop :=
  entry'.1 = entry.1 ∧ R entry.2 entry'.2

theorem forall₂_put {entries : Entries α} {entries' : Entries β} (h : List.Forall₂ (Stored R) entries entries')
    (name : String) {value : α} {value' : β} (hvalue : R value value') :
    List.Forall₂ (Stored R) (put name value entries) (put name value' entries') := by
  induction h with
  | nil => exact .cons ⟨rfl, hvalue⟩ .nil
  | @cons entry entry' _ _ hentry hrest ih =>
    obtain ⟨key, old⟩ := entry
    obtain ⟨key', old'⟩ := entry'
    obtain ⟨rfl, hold⟩ := hentry
    rw [put, put]
    split
    · exact .cons ⟨rfl, hvalue⟩ hrest
    · exact .cons ⟨rfl, hold⟩ ih

/-- **Related values are stored alike** if they have the same names. -/
theorem forall₂_values_collect {name : α → String} {name' : β → String}
    (hname : ∀ {value value'}, R value value' → name' value' = name value) {items : List α} {items' : List β}
    (h : List.Forall₂ R items items') :
    List.Forall₂ R (values (collect name items)) (values (collect name' items')) := by
  have hfold {entries : Entries α} {entries' : Entries β} (hentries : List.Forall₂ (Stored R) entries entries') :
      List.Forall₂ (Stored R) (items.foldl (fun entries item => put (name item) item entries) entries)
        (items'.foldl (fun entries item => put (name' item) item entries) entries') := by
    induction h generalizing entries entries' with
    | nil => exact hentries
    | cons hitem _ ih =>
      rw [List.foldl_cons, List.foldl_cons, hname hitem]
      exact ih (forall₂_put hentries _ hitem)
  rw [values, values, List.forall₂_map_left_iff, List.forall₂_map_right_iff]
  exact (hfold .nil).imp fun _ _ h => h.2

/-- Values that are made of others are stored as those are, if they keep the names. -/
theorem values_collect_map {name : α → String} {name' : β → String} {g : α → β}
    (hname : ∀ value, name' (g value) = name value) (items : List α) :
    values (collect name' (items.map g)) = (values (collect name items)).map g := by
  have h : List.Forall₂ (fun value value' => g value = value') items (items.map g) := by
    rw [List.forall₂_map_right_iff, List.forall₂_same]
    exact fun _ _ => rfl
  have hvalues : List.Forall₂ (fun value value' => g value = value') (values (collect name items))
      (values (collect name' (items.map g))) := forall₂_values_collect (fun heq => by rw [← heq, hname]) h
  rw [← List.forall₂_map_left_iff (f := g), List.forall₂_eq_eq_eq] at hvalues
  exact hvalues.symm

end Related

end Entries

end ClassCli
