import ClassCli.Proofs.Path
import ClassCli.Synthesis.Naming

/-!
# Names under which files are imported

A file is imported by its path from the root of the project, with points between the names. It does not matter
whether its location starts at the root of the file system, at the root of the project or at the directory
itself, and different source files have different names, because the names of their folders have no points.

* **`Path.MadeOfNames`** — paths that lead down from where they start.
* **`Path.components_below`** — the components of such a path below an absolute one.
* **`modulePath_faithful`** — all spellings of a location have one name, and it tells locations apart.
-/

namespace ClassCli.Path

open Text (splitAt)

/-! ## Paths that lead downwards -/

/-- Whether a component is a name. -/
def Component.isName : Component → Bool
  | .normal _ => true
  | _ => false

/-- A path that consists of names: it leads down from where it starts. -/
def MadeOfNames (path : String) : Prop :=
  components path ≠ [] ∧ ∀ component ∈ components path, component.isName = true

instance (path : String) : Decidable (MadeOfNames path) :=
  inferInstanceAs (Decidable (_ ∧ _))

/-- The components that the pieces of a text count as, behind a slash. -/
def counted (s : List Char) : List Component := (splitAt '/' s).filterMap ofPiece

theorem counted_append (front back : List Char) : counted (front ++ '/' :: back) = counted front ++ counted back := by
  rw [counted, Text.splitAt_append, List.filterMap_append]
  rfl

theorem components_root (s : List Char) : components (String.ofList ('/' :: s)) = .root :: counted s := by
  obtain ⟨piece, pieces, hs⟩ := Text.exists_splitAt '/' s
  rw [components, String.toList_ofList, Text.splitAt_mark, counted, hs]
  rfl

theorem components_current (s : List Char) : components (String.ofList ('.' :: '/' :: s)) = .current :: counted s := by
  have hpieces : splitAt '/' ('.' :: '/' :: s) = ['.'] :: splitAt '/' s :=
    Text.splitAt_cons (by decide) (Text.splitAt_mark s)
  rw [components, String.toList_ofList, hpieces]
  rfl

namespace MadeOfNames

variable {path : String}

/-- The first piece of such a path counts like every other. -/
theorem components_eq (h : MadeOfNames path) : components path = counted path.toList := by
  obtain ⟨hne, hnames⟩ := h
  obtain ⟨first, rest, hpieces⟩ := Text.exists_splitAt '/' path.toList
  have hcomponents : components path = (ofFirst first rest.isEmpty).toList ++ rest.filterMap ofPiece := by
    rw [components, hpieces]
  rw [counted, hpieces, List.filterMap_cons, hcomponents]
  rw [hcomponents] at hne hnames
  -- nothing, the root and the directory itself are no names, so that the first piece is one
  unfold ofFirst at hne hnames ⊢
  split at hne
  · split at hne
    · rename_i halone
      rw [List.isEmpty_iff.mp halone] at hne
      exact absurd rfl hne
    · rename_i hmore
      rw [if_neg hmore] at hnames
      exact absurd (hnames .root List.mem_cons_self) (by decide)
  · exact absurd (hnames .current List.mem_cons_self) (by decide)
  · cases hpiece : ofPiece first with
    | none => rfl
    | some component => rfl

theorem isAbsolute_eq (h : MadeOfNames path) : isAbsolute path = false := by
  rw [isAbsolute, beq_eq_false_iff_ne]
  intro hhead
  obtain ⟨s, hs⟩ := List.head?_eq_some_iff.mp hhead
  have hroot : .root ∈ components path := by
    rw [← String.ofList_toList (s := path), hs, components_root]
    exact List.mem_cons_self
  exact absurd (h.2 .root hroot) (by decide)

/-- The first component is a name. -/
theorem exists_eq_cons (h : MadeOfNames path) : ∃ name rest, components path = .normal name :: rest := by
  obtain ⟨first, rest, hcomponents⟩ := List.exists_cons_of_ne_nil h.1
  have hname := h.2 first (by rw [hcomponents]; exact List.mem_cons_self)
  cases first with
  | normal name => exact ⟨name, rest, hcomponents⟩
  | root => cases hname
  | current => cases hname
  | parent => cases hname

end MadeOfNames

/-! ## Paths below another one -/

theorem exists_toList_of_isAbsolute {root : String} (h : isAbsolute root = true) :
    ∃ s, root = String.ofList ('/' :: s) := by
  obtain ⟨s, hs⟩ := List.head?_eq_some_iff.mp (beq_iff_eq.mp h)
  exact ⟨s, by rw [← hs, String.ofList_toList]⟩

/-- **The components of a path below an absolute one**, with a slash in between. -/
theorem components_below {root path : String} (hroot : isAbsolute root = true) (hpath : MadeOfNames path) :
    components (root ++ "/" ++ path) = components root ++ components path := by
  obtain ⟨s, rfl⟩ := exists_toList_of_isAbsolute hroot
  have htext : String.ofList ('/' :: s) ++ "/" ++ path = String.ofList ('/' :: (s ++ '/' :: path.toList)) := by
    apply String.toList_inj.mp
    simp
  rw [htext, components_root, components_root, counted_append, hpath.components_eq, List.cons_append]

/-- Joining puts a slash in between unless there is one. -/
theorem components_join {root path : String} (hroot : isAbsolute root = true) (hpath : MadeOfNames path) :
    components (join root path) = components root ++ components path := by
  by_cases hslash : root.toList.getLast? = some '/'
  · obtain ⟨s, rfl⟩ := exists_toList_of_isAbsolute hroot
    have hjoin : join (String.ofList ('/' :: s)) path = String.ofList ('/' :: s) ++ path := by
      rw [join, hpath.isAbsolute_eq, hslash]
      simp
    rw [String.toList_ofList] at hslash
    rw [hjoin, hpath.components_eq, components_root]
    cases s with
    | nil =>
      have htext : String.ofList ['/'] ++ path = String.ofList ('/' :: path.toList) := by
        apply String.toList_inj.mp
        simp
      rw [htext, components_root]
      rfl
    | cons c s =>
      rw [List.getLast?_cons_cons] at hslash
      obtain ⟨front, hfront⟩ := List.getLast?_eq_some_iff.mp hslash
      have htext : String.ofList ('/' :: (front ++ ['/'])) ++ path
          = String.ofList ('/' :: (front ++ '/' :: path.toList)) := by
        apply String.toList_inj.mp
        simp
      rw [hfront, htext, components_root, counted_append, counted_append, List.cons_append, List.append_assoc]
      rfl
  · have hempty : root.isEmpty = false := by
      rw [Bool.eq_false_iff]
      intro h
      rw [String.isEmpty_iff.mp h] at hroot
      cases hroot
    have hjoin : join root path = root ++ "/" ++ path := by
      rw [join, hpath.isAbsolute_eq, hempty]
      simp [hslash]
    rw [hjoin, components_below hroot hpath]

theorem after_append (front rest : List Component) : after front (front ++ rest) = some rest := by
  induction front with
  | nil => rfl
  | cons c front ih => rw [List.cons_append, after, if_pos rfl, ih]

/-- What starts elsewhere is not below the root. -/
theorem after_of_ne {c : Component} (h : c ≠ .root) (front rest : List Component) :
    after (.root :: front) (c :: rest) = none := by
  rw [after, if_neg (Ne.symm h)]

end ClassCli.Path

namespace ClassCli.Synthesis

open ClassCli.Path (Component MadeOfNames components)

/-! ## Spellings of a location -/

/-- The dotted name that components spell. -/
def dottedName (relative : List Component) : String :=
  String.ofList (Text.join ['.'] (mapLast withoutEnding (Path.names relative)))

theorem modulePath_of_components {root location : String} {relative : List Component}
    (h : components location = components root ++ relative) : modulePath root location = dottedName relative := by
  rw [modulePath, h, Path.after_append]
  rfl

theorem modulePath_of_elsewhere {root location : String} {first : Component} {rest : List Component}
    (hroot : Path.isAbsolute root = true) (h : components location = first :: rest) (hfirst : first ≠ .root) :
    modulePath root location = dottedName (components location) := by
  obtain ⟨s, rfl⟩ := Path.exists_toList_of_isAbsolute hroot
  rw [modulePath, h, Path.components_root, Path.after_of_ne hfirst]
  rfl

theorem modulePath_of_madeOfNames {root path : String} (hroot : Path.isAbsolute root = true)
    (hpath : MadeOfNames path) : modulePath root path = dottedName (components path) := by
  obtain ⟨name, rest, hcomponents⟩ := hpath.exists_eq_cons
  exact modulePath_of_elsewhere hroot hcomponents (by simp)

theorem modulePath_of_current {root path : String} (hroot : Path.isAbsolute root = true) (hpath : MadeOfNames path) :
    modulePath root ("./" ++ path) = dottedName (components path) := by
  have htext : "./" ++ path = String.ofList ('.' :: '/' :: path.toList) := by
    apply String.toList_inj.mp
    simp
  have hcomponents : components ("./" ++ path) = .current :: components path := by
    rw [htext, Path.components_current, hpath.components_eq]
  rw [modulePath_of_elsewhere hroot hcomponents (by simp), hcomponents]
  rfl

/-! ## Different locations -/

/-- A path to a source file: no name has a point in it apart from the ending of the file. -/
def IsSourcePath (path : String) : Prop :=
  ∃ (folders : List (List Char)) (stem : List Char),
    components path = folders.map .normal ++ [.normal (stem ++ ['.', 'p', 'y'])]
      ∧ stem ≠ [] ∧ '.' ∉ stem ∧ ∀ folder ∈ folders, '.' ∉ folder

theorem IsSourcePath.madeOfNames {path : String} (h : IsSourcePath path) : MadeOfNames path := by
  obtain ⟨folders, stem, hcomponents, -⟩ := h
  rw [MadeOfNames, hcomponents]
  refine ⟨by simp, ?_⟩
  intro component hmem
  rcases List.mem_append.mp hmem with hfolder | hfile
  · obtain ⟨folder, -, rfl⟩ := List.mem_map.mp hfolder
    rfl
  · rw [List.mem_singleton.mp hfile]
    rfl

theorem mapLast_concat {α : Type} (f : α → α) (xs : List α) (x : α) : mapLast f (xs ++ [x]) = xs ++ [f x] := by
  induction xs with
  | nil => rfl
  | cons y ys ih =>
    cases ys with
    | nil => rfl
    | cons z zs => rw [List.cons_append, List.cons_append, mapLast, ← List.cons_append, ih]; rfl

theorem names_normal (names : List (List Char)) : Path.names (names.map .normal) = names := by
  rw [Path.names, List.filterMap_map]
  exact List.filterMap_some

/-- The dotted name of a source file holds the names of its folders and its own without the ending. -/
theorem dottedName_source (folders : List (List Char)) (stem : List Char) :
    dottedName (folders.map .normal ++ [.normal (stem ++ ['.', 'p', 'y'])])
      = String.ofList (Text.join ['.'] (folders ++ [stem])) := by
  have hnames : folders.map Component.normal ++ [.normal (stem ++ ['.', 'p', 'y'])]
      = (folders ++ [stem ++ ['.', 'p', 'y']]).map .normal := by simp
  rw [dottedName, hnames, names_normal, mapLast_concat, withoutEnding, Text.beforeEnd_append]
  rfl

/-- Points separate names that have none. -/
theorem dottedName_inj {p q : String} (hp : IsSourcePath p) (hq : IsSourcePath q)
    (h : dottedName (components p) = dottedName (components q)) : components p = components q := by
  obtain ⟨folders, stem, hcomponents, -, hstem, hfolders⟩ := hp
  obtain ⟨folders', stem', hcomponents', -, hstem', hfolders'⟩ := hq
  have hpieces : ∀ {names : List (List Char)} {last : List Char}, '.' ∉ last → (∀ name ∈ names, '.' ∉ name) →
      Text.splitAt '.' (Text.join ['.'] (names ++ [last])) = names ++ [last] := by
    intro names last hlast hnames
    refine Text.splitAt_join (by simp) ?_
    intro piece hpiece
    rcases List.mem_append.mp hpiece with hname | hend
    · exact hnames piece hname
    · rwa [List.mem_singleton.mp hend]
  rw [hcomponents, hcomponents', dottedName_source, dottedName_source, String.ofList_inj] at h
  have hsame : folders ++ [stem] = folders' ++ [stem'] := by
    rw [← hpieces hstem hfolders, ← hpieces hstem' hfolders', h]
  obtain ⟨rfl, hlast⟩ := List.append_inj' hsame rfl
  rw [hcomponents, hcomponents', (List.cons.inj hlast).1]

/-- **The name under which a file is imported**: a path of names has one name whether it is written from the
root of the file system, from the directory or by itself, and source files with the same name have the same
path. -/
theorem modulePath_faithful {root : String} (hroot : Path.isAbsolute root = true) :
    (∀ path, MadeOfNames path →
      modulePath root (Path.join root path) = modulePath root path
        ∧ modulePath root (root ++ "/" ++ path) = modulePath root path
        ∧ modulePath root ("./" ++ path) = modulePath root path)
      ∧ ∀ p q, IsSourcePath p → IsSourcePath q → modulePath root p = modulePath root q → Path.same p q = true := by
  constructor
  · intro path hpath
    rw [modulePath_of_madeOfNames hroot hpath]
    exact ⟨modulePath_of_components (Path.components_join hroot hpath),
      modulePath_of_components (Path.components_below hroot hpath), modulePath_of_current hroot hpath⟩
  · intro p q hp hq h
    rw [modulePath_of_madeOfNames hroot hp.madeOfNames, modulePath_of_madeOfNames hroot hq.madeOfNames] at h
    exact beq_iff_eq.mpr (dottedName_inj hp hq h)

theorem isSourcePath_calc : IsSourcePath "pkg/sub/calc.py" :=
  ⟨["pkg".toList, "sub".toList], "calc".toList, by decide, by decide, by decide, by decide⟩

theorem isSourcePath_calc_doubled : IsSourcePath "pkg//sub/./calc.py" :=
  ⟨["pkg".toList, "sub".toList], "calc".toList, by decide, by decide, by decide, by decide⟩

/-- A file below the root of a project whose path ends in a slash, and another way to write its path. -/
theorem modulePath_faithful_calc :
    Path.isAbsolute "/work/project/" = true ∧ MadeOfNames "pkg/sub/calc.py"
      ∧ modulePath "/work/project/" "pkg/sub/calc.py" = "pkg.sub.calc"
      ∧ modulePath "/work/project/" "/work/project/pkg/sub/calc.py" = modulePath "/work/project/" "pkg/sub/calc.py"
      ∧ modulePath "/work/project/" "./pkg/sub/calc.py" = modulePath "/work/project/" "pkg/sub/calc.py"
      ∧ Path.same "pkg/sub/calc.py" "pkg//sub/./calc.py" = true := by
  have hroot : Path.isAbsolute "/work/project/" = true := by decide
  have hpath : MadeOfNames "pkg/sub/calc.py" := by decide
  obtain ⟨hspelling, hsame⟩ := modulePath_faithful hroot
  exact ⟨hroot, hpath, by decide, (hspelling _ hpath).1, (hspelling _ hpath).2.2,
    hsame _ _ isSourcePath_calc isSourcePath_calc_doubled (by decide)⟩

end ClassCli.Synthesis
