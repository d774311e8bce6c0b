import Mathlib.Data.List.Sort
import ClassCli.Path
import ClassCli.Proofs.Text.Splitting

/-!
# Names in paths and the order of paths

The names among the components of a path are pieces of it between slashes. Paths are compared component by component,
and names character by character. This is a linear order of components, so that two paths are on a par exactly if they
have the same components, and the paths of a list have an ascending arrangement.

* **`ofPiece_eq_normal`** — a name is the piece that it is read from.
* **`mem_of_mem_components`** — names consist of characters of their path.
* **`mem_of_mem_after`** — what is left behind other components.
* **`exists_lead_join`**, **`splitAt_join_join`** — the pieces of a path in a directory.
* **`splitAt_of_mem_lineage`** — the directories that a path is in are named by its first pieces.
* **`compareComponents_eq_compareLex`** — the order is the lexicographic one.
* **`same_iff`** — paths with the same components.
* **`mem_inOrder`**, **`pairwise_inOrder`** — the ascending arrangement.
-/

namespace ClassCli.Path

theorem ofPiece_eq_normal {piece name : List Char} (h : ofPiece piece = some (.normal name)) :
    name = piece := by
  unfold ofPiece at h
  split at h
  · cases h
  · cases h
  · cases h
  · cases h
    rfl

theorem ofFirst_eq_normal {piece name : List Char} {alone : Bool}
    (h : ofFirst piece alone = some (.normal name)) : name = piece := by
  unfold ofFirst at h
  split at h
  · split at h
    · cases h
    · cases h
  · cases h
  · exact ofPiece_eq_normal h

/-- The names in a path consist of its characters. -/
theorem mem_of_mem_components {path : String} {name : List Char} {c : Char}
    (h : .normal name ∈ components path) (hc : c ∈ name) : c ∈ path.toList := by
  unfold components at h
  split at h
  · exact absurd h List.not_mem_nil
  · rename_i first rest hsplit
    have hpiece : name ∈ Text.splitAt '/' path.toList := by
      rw [hsplit]
      rcases List.mem_append.mp h with h | h
      · rw [ofFirst_eq_normal (Option.mem_toList.mp h)]
        exact List.mem_cons_self
      · obtain ⟨piece, hp, hof⟩ := List.mem_filterMap.mp h
        rw [ofPiece_eq_normal hof]
        exact List.mem_cons_of_mem first hp
    exact Text.mem_of_mem_splitAt hpiece hc

theorem mem_of_mem_after {front all rest : List Component} (h : after front all = some rest) :
    ∀ component ∈ rest, component ∈ all := by
  fun_induction after front all with
  | case1 =>
    obtain rfl := Option.some.inj h
    exact fun component hc => hc
  | case2 => cases h
  | case3 c cs ds ih => exact fun component hc => List.mem_cons_of_mem _ (ih h component hc)
  | case4 => cases h

/-- A piece that leads upwards is a component. -/
theorem parent_mem_components {path : String} {piece : List Char}
    (hpiece : piece ∈ Text.splitAt '/' path.toList) (h : ofPiece piece = some .parent) :
    .parent ∈ components path := by
  unfold components
  split
  · rename_i hnil
    rw [hnil] at hpiece
    exact absurd hpiece List.not_mem_nil
  · rename_i first rest hsplit
    rw [hsplit] at hpiece
    rcases List.mem_cons.mp hpiece with rfl | hrest
    · have hfirst : ofFirst piece rest.isEmpty = some .parent := by
        unfold ofFirst
        split
        · cases h
        · cases h
        · exact h
      rw [hfirst]
      exact List.mem_append_left _ (List.mem_singleton.mpr rfl)
    · exact List.mem_append_right _ (List.mem_filterMap.mpr ⟨piece, hrest, h⟩)

/-! ## Paths in directories -/

/-- Joining puts the same text in front of every name: nothing, or one that ends in a slash. -/
theorem exists_lead_join (base : String) :
    ∃ lead, (∀ name, isAbsolute name = false → (join base name).toList = lead ++ name.toList)
      ∧ (lead = [] ∨ ∃ front, lead = front ++ ['/'] ∧ Text.splitAt '/' front <+: Text.splitAt '/' base.toList) := by
  by_cases hempty : base.isEmpty
  · refine ⟨[], fun name hname => ?_, Or.inl rfl⟩
    rw [join, hname, hempty, String.isEmpty_iff.mp hempty]
    simp
  · by_cases hslash : base.toList.getLast? = some '/'
    · obtain ⟨front, hfront⟩ := List.getLast?_eq_some_iff.mp hslash
      refine ⟨base.toList, fun name hname => ?_, Or.inr ⟨front, hfront, ?_⟩⟩
      · rw [join, hname, hslash]
        simp
      · rw [hfront, Text.splitAt_append]
        exact List.prefix_append _ _
    · refine ⟨base.toList ++ ['/'], fun name hname => ?_, Or.inr ⟨base.toList, rfl, List.prefix_refl _⟩⟩
      rw [join, hname]
      simp [hempty, hslash]

theorem isAbsolute_eq_false {name : String} (h : '/' ∉ name.toList) : isAbsolute name = false := by
  rw [isAbsolute, beq_eq_false_iff_ne]
  intro hhead
  exact h (List.mem_of_head? hhead)

/-- **The pieces of a path in a directory**: some of the first ones of the directory, which are the same
for every name, and the name. -/
theorem exists_front_join (base : String) :
    ∃ front, front <+: Text.splitAt '/' base.toList ∧ ∀ name : String, '/' ∉ name.toList →
      Text.splitAt '/' (join base name).toList = front ++ [name.toList] := by
  obtain ⟨lead, hjoin, rfl | ⟨front, rfl, hfront⟩⟩ := exists_lead_join base
  · refine ⟨[], List.nil_prefix, fun name hname => ?_⟩
    rw [hjoin name (isAbsolute_eq_false hname), List.nil_append, Text.splitAt_of_not_mem hname,
      List.nil_append]
  · refine ⟨Text.splitAt '/' front, hfront, fun name hname => ?_⟩
    rw [hjoin name (isAbsolute_eq_false hname), List.append_assoc, List.singleton_append,
      Text.splitAt_append, Text.splitAt_of_not_mem hname]

/-- A name behind a path that ends in a name. -/
theorem splitAt_join_join (base : String) {outer name : String} (houter : '/' ∉ outer.toList)
    (hne : outer.toList ≠ []) (hname : '/' ∉ name.toList) :
    Text.splitAt '/' (join (join base outer) name).toList
      = Text.splitAt '/' (join base outer).toList ++ [name.toList] := by
  obtain ⟨lead, hjoin, -⟩ := exists_lead_join base
  have hwhole := hjoin outer (isAbsolute_eq_false houter)
  have hempty : (join base outer).isEmpty = false := by
    rw [Bool.eq_false_iff]
    intro h
    rw [String.isEmpty_iff.mp h] at hwhole
    exact hne (List.append_eq_nil_iff.mp hwhole.symm).2
  have hslash : (join base outer).toList.getLast? ≠ some '/' := by
    obtain ⟨last, hlast⟩ := Option.ne_none_iff_exists'.mp (mt List.getLast?_eq_none_iff.mp hne)
    rw [hwhole, List.getLast?_append, hlast, Option.some_or, ← hlast]
    exact fun h => houter (List.mem_of_getLast? h)
  have hinner : (join (join base outer) name).toList = (join base outer).toList ++ '/' :: name.toList := by
    rw [join, isAbsolute_eq_false hname]
    simp [hempty, hslash]
  rw [hinner, Text.splitAt_append, Text.splitAt_of_not_mem hname]

/-! ## The directories that a path is in -/

theorem dropIdle_suffix (pieces : List (List Char)) : dropIdle pieces <:+ pieces := by
  fun_induction dropIdle pieces with
  | case1 => exact List.suffix_refl _
  | case2 first => exact List.suffix_refl _
  | case3 piece rest hrest hidle ih => exact ih.trans (List.suffix_cons _ _)
  | case4 piece rest hrest hidle => exact List.suffix_refl _

theorem dropIdle_ne_nil {pieces : List (List Char)} (h : pieces ≠ []) : dropIdle pieces ≠ [] := by
  fun_induction dropIdle pieces with
  | case1 => exact absurd rfl h
  | case2 first => exact h
  | case3 piece rest hrest hidle ih => exact ih hrest
  | case4 piece rest hrest hidle => exact h

/-- The pieces of the directory that a path is in are first ones of the path, and not all of them. -/
theorem splitAt_of_parent?_eq {path directory : String} (h : parent? path = some directory) :
    directory = "" ∨ directory = "/"
      ∨ Text.splitAt '/' directory.toList <+: (Text.splitAt '/' path.toList).dropLast := by
  have hsuffix := dropIdle_suffix (Text.splitAt '/' path.toList).reverse
  unfold parent? at h
  split at h
  · cases h
  · cases h
  · exact Or.inl (Option.some.inj h).symm
  · rename_i first before _ hmany hdrop
    rw [hdrop] at hsuffix
    have hbefore : dropIdle before <:+ (Text.splitAt '/' path.toList).dropLast.reverse := by
      rw [← List.tail_reverse]
      refine (dropIdle_suffix before).trans ?_
      obtain ⟨front, hfront⟩ := hsuffix
      rw [← hfront]
      cases front with
      | nil => exact List.suffix_refl _
      | cons other others => exact ⟨others ++ [first], by simp⟩
    split at h
    · exact Or.inr (Or.inl (Option.some.inj h).symm)
    · rename_i pieces _
      cases h
      have hpieces : (dropIdle before).reverse <+: (Text.splitAt '/' path.toList).dropLast := by
        rw [← List.reverse_suffix, List.reverse_reverse]
        exact hbefore
      have hne : (dropIdle before).reverse ≠ [] := by
        rw [ne_eq, List.reverse_eq_nil_iff]
        exact dropIdle_ne_nil hmany
      refine Or.inr (Or.inr ?_)
      rw [String.toList_ofList, Text.splitAt_join hne fun piece hpiece => Text.not_mem_of_mem_splitAt
        ((List.dropLast_subset _) (hpieces.subset hpiece))]
      exact hpieces

theorem lineageWithin_empty (limit : Nat) : lineageWithin limit "" = [] := by
  cases limit with
  | zero => rfl
  | succ limit => rfl

theorem eq_root_of_mem_lineageWithin {limit : Nat} {above : String} (h : above ∈ lineageWithin limit "/") :
    above = "/" := by
  have hparent : parent? "/" = none := by decide
  cases limit with
  | zero => exact absurd h List.not_mem_nil
  | succ limit =>
    rw [lineageWithin, hparent, if_neg (by decide)] at h
    exact List.mem_singleton.mp h

/-- **The directories that a path is in** are named by its first pieces, but for the root. -/
theorem splitAt_of_mem_lineage {path above : String} (h : above ∈ lineage path) :
    above = "/" ∨ Text.splitAt '/' above.toList <+: Text.splitAt '/' path.toList := by
  suffices hwithin : ∀ limit path, above ∈ lineageWithin limit path →
      above = "/" ∨ Text.splitAt '/' above.toList <+: Text.splitAt '/' path.toList from hwithin _ _ h
  intro limit
  induction limit with
  | zero => exact fun _ h => absurd h List.not_mem_nil
  | succ limit ih =>
    intro path h
    rw [lineageWithin] at h
    split at h
    · exact absurd h List.not_mem_nil
    · rcases List.mem_cons.mp h with rfl | h
      · exact Or.inr (List.prefix_refl _)
      · cases hparent : parent? path with
        | none =>
          rw [hparent] at h
          exact absurd h List.not_mem_nil
        | some directory =>
          rw [hparent] at h
          rcases splitAt_of_parent?_eq hparent with rfl | rfl | hprefix
          · rw [Option.map_some, Option.getD_some, lineageWithin_empty] at h
            exact absurd h List.not_mem_nil
          · exact Or.inl (eq_root_of_mem_lineageWithin h)
          · exact (ih directory h).imp_right fun hfirst =>
              (hfirst.trans hprefix).trans (List.dropLast_prefix _)

theorem lineage_eq_cons {path : String} (h : path ≠ "") : ∃ above, lineage path = path :: above := by
  have hempty : path.isEmpty = false := by
    rw [Bool.eq_false_iff]
    exact fun hempty => h (String.isEmpty_iff.mp hempty)
  have hlength : path.length ≠ 0 := by
    intro hzero
    exact h (String.toList_inj.mp (List.length_eq_zero_iff.mp hzero))
  obtain ⟨limit, hlimit⟩ := Nat.exists_eq_succ_of_ne_zero hlength
  rw [lineage, hlimit, lineageWithin, hempty, if_neg Bool.false_ne_true]
  exact ⟨_, rfl⟩

/-- The directory of a path whose last two pieces count. -/
theorem exists_parent?_eq {path : String} {front : List (List Char)} {inner last : List Char}
    (hpath : Text.splitAt '/' path.toList = front ++ [inner] ++ [last])
    (hinner : (ofPiece inner).isNone = false) (hlast : (ofPiece last).isNone = false) :
    ∃ directory, parent? path = some directory
      ∧ Text.splitAt '/' directory.toList = front ++ [inner] := by
  have hne : inner ≠ [] := by
    rintro rfl
    cases hinner
  have houter : dropIdle (last :: inner :: front.reverse) = last :: inner :: front.reverse := by
    rw [dropIdle, hlast, if_neg Bool.false_ne_true]
    exact List.cons_ne_nil _ _
  have hbefore : dropIdle (inner :: front.reverse) = inner :: front.reverse := by
    cases hfront : front.reverse with
    | nil => rfl
    | cons next rest =>
      rw [dropIdle, hinner, if_neg Bool.false_ne_true]
      exact List.cons_ne_nil _ _
  refine ⟨String.ofList (Text.join ['/'] (inner :: front.reverse).reverse), ?_, ?_⟩
  · rw [parent?, hpath, List.reverse_append, List.reverse_append, List.reverse_singleton,
      List.reverse_singleton, List.singleton_append, List.singleton_append, houter]
    simp only [hbefore]
    split
    · rename_i hroot
      exact absurd (List.cons.inj hroot).1 hne
    · rfl
  · rw [String.toList_ofList, List.reverse_cons, List.reverse_reverse]
    refine Text.splitAt_join (List.append_ne_nil_of_right_ne_nil _ (List.cons_ne_nil _ _)) ?_
    intro piece hpiece
    refine Text.not_mem_of_mem_splitAt (s := path.toList) ?_
    rw [hpath]
    exact List.mem_append_left _ hpiece

/-! ## The order of names and components -/

section Order

open Std (LawfulEqCmp OrientedCmp TransCmp)

/-- The characters of a component that is a name. -/
def Component.name : Component → List Char
  | .normal name => name
  | _ => []

/-- The comparison of names. -/
def compareTexts : List Char → List Char → Ordering := List.compareLex (compareOn Char.toNat)

instance instLawfulEqCmpToNat : LawfulEqCmp (compareOn Char.toNat) where
  eq_of_compare h := Char.toNat_inj.mp (Std.LawfulEqOrd.eq_of_compare h)

instance : TransCmp compareTexts := inferInstanceAs (TransCmp (List.compareLex _))

instance : LawfulEqCmp compareTexts := inferInstanceAs (LawfulEqCmp (List.compareLex _))

theorem compareNames_eq_compareTexts : compareNames = compareTexts := by
  funext a b
  fun_induction compareNames a b with
  | case1 => rfl
  | case2 => rfl
  | case3 => rfl
  | case4 c cs d ds ih =>
    rw [ih, compareTexts, List.compareLex_cons_cons]
    rfl

theorem eq_of_rank_eq_of_name_eq {a b : Component} (hrank : a.rank = b.rank) (hname : a.name = b.name) : a = b := by
  cases a <;> cases b
  case normal.normal => exact congrArg Component.normal hname
  case root.root | current.current | parent.parent => rfl
  all_goals cases hrank

/-- **Components are compared** by their kinds first, and names by their characters. -/
theorem compare_eq_compareLex :
    Component.compare
      = compareLex (compareOn Component.rank) (fun a b => compareTexts a.name b.name) := by
  funext a b
  cases a <;> cases b
  case normal.normal => exact congrFun (congrFun compareNames_eq_compareTexts _) _
  all_goals rfl

instance : TransCmp (fun a b : Component => compareTexts a.name b.name) where
  eq_swap := OrientedCmp.eq_swap
  isLE_trans := TransCmp.isLE_trans

instance : TransCmp Component.compare := by
  rw [compare_eq_compareLex]
  infer_instance

instance : LawfulEqCmp Component.compare where
  eq_of_compare h := by
    rw [compare_eq_compareLex, compareLex_eq_eq] at h
    exact eq_of_rank_eq_of_name_eq (Std.LawfulEqOrd.eq_of_compare h.1) (LawfulEqCmp.eq_of_compare h.2)

/-! ## The order of paths -/

/-- **The order of paths** is the lexicographic one. -/
theorem compareComponents_eq_compareLex : compareComponents = List.compareLex Component.compare := by
  funext a b
  fun_induction compareComponents a b with
  | case1 => rfl
  | case2 => rfl
  | case3 => rfl
  | case4 c cs d ds ih => rw [List.compareLex_cons_cons, ih]

instance : TransCmp compareComponents := by
  rw [compareComponents_eq_compareLex]
  infer_instance

instance : LawfulEqCmp compareComponents := by
  rw [compareComponents_eq_compareLex]
  infer_instance

/-- A path comes before another. -/
def Before (p q : String) : Prop := compareComponents (components p) (components q) = .lt

theorem same_iff {p q : String} : same p q = true ↔ components p = components q := beq_iff_eq

theorem same_comm {p q : String} : same p q = same q p := by
  rw [Bool.eq_iff_iff, same_iff, same_iff]
  exact eq_comm

theorem notAfter_iff {p q : String} :
    notAfter p q = true ↔ (compareComponents (components p) (components q)).isLE = true := by
  rw [notAfter]
  cases compareComponents (components p) (components q) <;> decide

/-- What does not come after another path comes before it, unless it has the same components. -/
theorem before_of_notAfter {p q : String} (h : notAfter p q = true) (hne : same p q = false) : Before p q := by
  have hcomponents : components p ≠ components q := mt same_iff.mpr (by simp [hne])
  have heq : compareComponents (components p) (components q) ≠ .eq := mt LawfulEqCmp.eq_of_compare hcomponents
  rw [notAfter_iff] at h
  rw [Before]
  cases hcompare : compareComponents (components p) (components q) with
  | lt => rfl
  | eq => exact absurd hcompare heq
  | gt =>
    rw [hcompare] at h
    cases h

theorem not_same_of_before {p q : String} (h : Before p q) : same p q = false := by
  rw [Bool.eq_false_iff]
  intro hsame
  have hself : compareComponents (components q) (components q) = .eq := Std.ReflCmp.compare_self
  rw [Before, same_iff.mp hsame, hself] at h
  cases h

/-! ## Sorted paths -/

instance : Std.Total fun p q => notAfter p q = true where
  total p q := by
    have hswap : compareComponents (components q) (components p)
        = (compareComponents (components p) (components q)).swap := OrientedCmp.eq_swap
    rw [notAfter_iff, notAfter_iff, hswap]
    cases compareComponents (components p) (components q) <;> decide

instance : IsTrans String fun p q => notAfter p q = true where
  trans p q r hpq hqr := by
    rw [notAfter_iff] at *
    exact TransCmp.isLE_trans hpq hqr

/-- Paths are sorted by insertion. -/
theorem inOrder_eq_insertionSort (paths : List String) :
    inOrder paths = paths.insertionSort fun p q => notAfter p q = true := by
  have hinsert (path : String) (rest : List String) :
      insertInOrder path rest = rest.orderedInsert (fun p q => notAfter p q = true) path := by
    induction rest with
    | nil => rfl
    | cons other rest ih => rw [insertInOrder, List.orderedInsert, ih]
  induction paths with
  | nil => rfl
  | cons path rest ih => rw [inOrder, List.insertionSort_cons, ih, hinsert]

theorem mem_inOrder {path : String} {paths : List String} : path ∈ inOrder paths ↔ path ∈ paths := by
  rw [inOrder_eq_insertionSort]
  exact (List.perm_insertionSort _ paths).mem_iff

/-- **The ascending arrangement** of paths. -/
theorem pairwise_inOrder (paths : List String) : (inOrder paths).Pairwise fun p q => notAfter p q = true := by
  rw [inOrder_eq_insertionSort]
  exact List.pairwise_insertionSort _ paths

end Order

end ClassCli.Path
