import Mathlib.Data.List.Induction
import ClassCli.Json.Value
import ClassCli.Proofs.Entries

/-!
# Entries in ascending order

Names are in a strict order in which two different names are never on a par, so that entries have only
one ascending arrangement. `Json.sorted` finds it, and loses nothing if no name comes twice.

* **`Json.ascending_sorted`**, **`Json.sorted_of_ascending`** — sorting gives ascending entries and
  leaves those alone.
* **`Json.get?_sorted`** — what is stored under a name stays stored under it.
-/

namespace ClassCli.Json

variable {α β : Type}

/-! ## The order of names -/

theorem nameBefore_irrefl (a : List Char) : nameBefore a a = false := by
  induction a with
  | nil => rfl
  | cons c rest ih => rw [nameBefore, if_pos rfl, ih]

theorem nameBefore_trans :
    ∀ {a b c : List Char}, nameBefore a b = true → nameBefore b c = true → nameBefore a c = true
  | _, _, [], _, h => by simp [nameBefore] at h
  | _, [], _ :: _, h, _ => by simp [nameBefore] at h
  | [], _ :: _, _ :: _, _, _ => rfl
  | x :: a, y :: b, z :: c, hab, hbc => by
    rw [nameBefore] at hab hbc ⊢
    by_cases hxy : x = y
    · subst hxy
      rw [if_pos rfl] at hab
      by_cases hxz : x = z
      · rw [if_pos hxz] at hbc ⊢
        exact nameBefore_trans hab hbc
      · rw [if_neg hxz] at hbc ⊢
        exact hbc
    · rw [if_neg hxy, decide_eq_true_iff] at hab
      by_cases hyz : y = z
      · subst hyz
        rw [if_neg hxy, decide_eq_true_iff]
        exact hab
      · rw [if_neg hyz, decide_eq_true_iff] at hbc
        have hlt : x.toNat < z.toNat := Nat.lt_trans hab hbc
        have hxz : x ≠ z := by
          rintro rfl
          exact Nat.lt_irrefl _ hlt
        rw [if_neg hxz, decide_eq_true_iff]
        exact hlt

theorem nameBefore_total :
    ∀ {a b : List Char}, a ≠ b → nameBefore a b = false → nameBefore b a = true
  | [], [], h, _ => absurd rfl h
  | _ :: _, [], _, _ => rfl
  | [], _ :: _, _, h => by simp [nameBefore] at h
  | x :: a, y :: b, hne, h => by
    rw [nameBefore] at h ⊢
    by_cases hxy : x = y
    · subst hxy
      rw [if_pos rfl] at h ⊢
      have hrest : a ≠ b := by
        rintro rfl
        exact hne rfl
      exact nameBefore_total hrest h
    · have hyx : y ≠ x := fun e => hxy e.symm
      have hcodes : x.toNat ≠ y.toNat := fun e => hxy (Char.toNat_inj.mp e)
      rw [if_neg hxy, decide_eq_false_iff_not] at h
      rw [if_neg hyx, decide_eq_true_iff]
      omega

/-- Entries whose names are in strictly ascending order. -/
def Ascending (entries : Entries α) : Prop :=
  entries.Pairwise fun a b => nameBefore a.1.toList b.1.toList = true

theorem ascending_iff (entries : Entries α) :
    Ascending entries
      ↔ (Entries.keys entries).Pairwise fun a b => nameBefore a.toList b.toList = true := by
  rw [Entries.keys, List.pairwise_map, Ascending]

/-! ## Putting in one entry -/

theorem mem_insertSorted {name : String} {value : α} {entry : String × α} {entries : Entries α} :
    entry ∈ insertSorted name value entries → entry = (name, value) ∨ entry ∈ entries := by
  induction entries with
  | nil =>
    intro h
    exact .inl (List.mem_singleton.mp h)
  | cons first rest ih =>
    obtain ⟨key, old⟩ := first
    rw [insertSorted]
    split
    · intro h
      rcases List.mem_cons.mp h with h | h
      · exact .inl h
      · exact .inr (List.mem_cons_of_mem _ h)
    · split
      · intro h
        rcases List.mem_cons.mp h with h | h
        · exact .inl h
        · exact .inr h
      · intro h
        rcases List.mem_cons.mp h with h | h
        · exact .inr (h ▸ List.mem_cons_self)
        · exact (ih h).imp_right (List.mem_cons_of_mem _)

theorem get?_insertSorted_self (name : String) (value : α) (entries : Entries α) :
    Entries.get? name (insertSorted name value entries) = some value := by
  induction entries with
  | nil => rw [insertSorted, Entries.get?, if_pos rfl]
  | cons first rest ih =>
    obtain ⟨key, old⟩ := first
    rw [insertSorted]
    split
    · rw [Entries.get?, if_pos rfl]
    · rename_i hkey
      split
      · rw [Entries.get?, if_pos rfl]
      · rw [Entries.get?, if_neg hkey, ih]

theorem get?_insertSorted_of_ne {name other : String} (h : name ≠ other) (value : α)
    (entries : Entries α) :
    Entries.get? other (insertSorted name value entries) = Entries.get? other entries := by
  induction entries with
  | nil => exact if_neg h
  | cons first rest ih =>
    obtain ⟨key, old⟩ := first
    rw [insertSorted]
    split
    · rename_i hkey
      rw [Entries.get?, Entries.get?, hkey, if_neg h, if_neg h]
    · split
      · rw [Entries.get?, if_neg h]
      · rw [Entries.get?, Entries.get?, ih]

theorem Ascending.insertSorted (name : String) (value : α) {entries : Entries α}
    (h : Ascending entries) : Ascending (insertSorted name value entries) := by
  induction entries with
  | nil => exact List.pairwise_singleton _ _
  | cons first rest ih =>
    obtain ⟨key, old⟩ := first
    obtain ⟨hfirst, hrest⟩ := List.pairwise_cons.mp h
    -- the name is that of the first entry, or stands before it, or goes further back
    rw [Json.insertSorted]
    split
    · rename_i hkey
      subst hkey
      exact List.pairwise_cons.mpr ⟨hfirst, hrest⟩
    · rename_i hkey
      split
      · rename_i hbefore
        refine List.pairwise_cons.mpr ⟨fun entry hentry => ?_, h⟩
        rcases List.mem_cons.mp hentry with rfl | hentry
        · exact hbefore
        · exact nameBefore_trans hbefore (hfirst entry hentry)
      · rename_i hbefore
        have hne : name.toList ≠ key.toList := fun e => hkey (String.toList_inj.mp e).symm
        have hkeyBefore : nameBefore key.toList name.toList = true :=
          nameBefore_total hne (Bool.eq_false_iff.mpr hbefore)
        refine List.pairwise_cons.mpr ⟨fun entry hentry => ?_, ih hrest⟩
        rcases mem_insertSorted hentry with rfl | hentry
        · exact hkeyBefore
        · exact hfirst entry hentry

/-- An entry whose name is behind all others goes to the end. -/
theorem insertSorted_last {name : String} (value : α) {entries : Entries α}
    (h : ∀ entry ∈ entries, nameBefore entry.1.toList name.toList = true) :
    insertSorted name value entries = entries ++ [(name, value)] := by
  induction entries with
  | nil => rfl
  | cons first rest ih =>
    obtain ⟨key, old⟩ := first
    have hbefore : nameBefore key.toList name.toList = true := h _ List.mem_cons_self
    have hkey : key ≠ name := by
      rintro rfl
      rw [nameBefore_irrefl] at hbefore
      cases hbefore
    have hnot : ¬nameBefore name.toList key.toList = true := by
      intro hb
      have hcycle := nameBefore_trans hbefore hb
      rw [nameBefore_irrefl] at hcycle
      cases hcycle
    rw [insertSorted, if_neg hkey, if_neg hnot,
      ih fun entry hentry => h entry (List.mem_cons_of_mem _ hentry), List.cons_append]

theorem insertSorted_map (f : α → β) (name : String) (value : α) (entries : Entries α) :
    insertSorted name (f value) (entries.map fun entry => (entry.1, f entry.2))
      = (insertSorted name value entries).map fun entry => (entry.1, f entry.2) := by
  induction entries with
  | nil => rfl
  | cons first rest ih =>
    obtain ⟨key, old⟩ := first
    rw [List.map_cons, insertSorted, insertSorted]
    split
    · rfl
    · split
      · rfl
      · rw [List.map_cons, ih]

/-! ## Sorting -/

theorem sorted_append (front back : List (String × α)) :
    sorted (front ++ back)
      = back.foldl (fun sofar entry => insertSorted entry.1 entry.2 sofar) (sorted front) := by
  rw [sorted, List.foldl_append, sorted]

theorem sorted_concat (entries : List (String × α)) (name : String) (value : α) :
    sorted (entries ++ [(name, value)]) = insertSorted name value (sorted entries) := by
  rw [sorted_append, List.foldl_cons, List.foldl_nil]

theorem mem_sorted {entry : String × α} {entries : List (String × α)} (h : entry ∈ sorted entries) :
    entry ∈ entries := by
  induction entries using List.reverseRecOn with
  | nil => exact h
  | append_singleton entries last ih =>
    rw [sorted_concat] at h
    rcases mem_insertSorted h with rfl | h
    · exact List.mem_append_right _ (List.mem_singleton_self _)
    · exact List.mem_append_left _ (ih h)

theorem ascending_sorted (entries : List (String × α)) : Ascending (sorted entries) := by
  induction entries using List.reverseRecOn with
  | nil => exact List.Pairwise.nil
  | append_singleton entries last ih =>
    rw [sorted_concat]
    exact ih.insertSorted _ _

theorem sorted_of_ascending {entries : Entries α} (h : Ascending entries) :
    sorted entries = entries := by
  induction entries using List.reverseRecOn with
  | nil => rfl
  | append_singleton entries last ih =>
    obtain ⟨hfront, -, hlast⟩ := List.pairwise_append.mp h
    rw [sorted_concat, ih hfront]
    exact insertSorted_last _ fun entry hentry => hlast entry hentry last (List.mem_singleton_self _)

theorem sorted_map (f : α → β) (entries : List (String × α)) :
    sorted (entries.map fun entry => (entry.1, f entry.2))
      = (sorted entries).map fun entry => (entry.1, f entry.2) := by
  induction entries using List.reverseRecOn with
  | nil => rfl
  | append_singleton entries last ih =>
    rw [List.map_append, List.map_singleton, sorted_concat, ih, insertSorted_map, sorted_concat]

theorem get?_sorted {entries : Entries α} (h : (Entries.keys entries).Nodup) (name : String) :
    Entries.get? name (sorted entries) = Entries.get? name entries := by
  induction entries using List.reverseRecOn with
  | nil => rfl
  | append_singleton entries last ih =>
    obtain ⟨key, value⟩ := last
    rw [Entries.keys, List.map_append, List.nodup_append] at h
    obtain ⟨hfront, -, hlast⟩ := h
    rw [sorted_concat, Entries.get?_append]
    by_cases hkey : key = name
    · subst hkey
      have hnew : key ∉ Entries.keys entries := fun hmem => hlast key hmem key (by simp) rfl
      rw [get?_insertSorted_self, Entries.get?_eq_none hnew, Entries.get?, if_pos rfl]
      rfl
    · rw [get?_insertSorted_of_ne hkey, ih hfront, Entries.get?, if_neg hkey, Entries.get?_nil,
        Option.or_none]

end ClassCli.Json
