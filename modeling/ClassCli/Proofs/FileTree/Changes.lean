import ClassCli.Proofs.FileTree
import Mathlib.Data.List.Infix

/-!
# All that changes in a tree

Putting a file or an empty directory somewhere changes what stands there and nothing else. So making the
directories of a path adds no file, and adds no directory but those that the path leads through; writing a
file changes that file.

* **`standing?_put`** — what stands at every position after something was put at one.
* **`Grows`** — a tree that got directories on the way of certain paths.
* **`grows_makeDirectory`** — making a directory is such a step.
* **`follow_of_directories`** — a path without steps upwards leads to the same place in every tree that has
  the directories on it.
-/

namespace ClassCli.FileTree

variable {tree later last : FileTree} {place directory : Position} {name path : String}

/-! ## What stands at a position -/

/-- The text of a file; a directory has none. -/
def text? : FileTree → Option String
  | .file text => some text
  | .directory _ => none

/-- What stands at a position, without what is below it: a file with its text, or a directory. -/
def standing? (tree : FileTree) (place : Position) : Option (Option String) :=
  (tree.get? place).map text?

theorem standing?_eq_file {text : String} :
    tree.standing? place = some (some text) ↔ tree.get? place = some (.file text) := by
  rw [standing?, Option.map_eq_some_iff]
  constructor
  · rintro ⟨found, hfound, htext⟩
    cases found with
    | file other =>
      cases htext
      exact hfound
    | directory entries => cases htext
  · intro h
    exact ⟨_, h, rfl⟩

theorem standing?_eq_directory :
    tree.standing? place = some none ↔ ∃ entries, tree.get? place = some (.directory entries) := by
  rw [standing?, Option.map_eq_some_iff]
  constructor
  · rintro ⟨found, hfound, htext⟩
    cases found with
    | file other => cases htext
    | directory entries => exact ⟨entries, hfound⟩
  · rintro ⟨entries, h⟩
    exact ⟨_, h, rfl⟩

theorem isSome_standing? : (tree.standing? place).isSome = (tree.get? place).isSome :=
  Option.isSome_map

/-- What stands somewhere below an entry. -/
theorem standing?_cons {outer : Entries FileTree} (first : String) (rest : Position) :
    (FileTree.directory outer).standing? (first :: rest)
      = (Entries.get? first outer).bind (·.standing? rest) := by
  rw [standing?, get?]
  cases Entries.get? first outer with
  | none => rfl
  | some inner => rfl

/-- What stands at every position after something that holds nothing was put into the top directory. -/
theorem standing?_put_top {entries : Entries FileTree} {new : FileTree}
    (hfree : standing? (.directory entries) [name] ≠ some none)
    (hnew : ∀ first rest, new.get? (first :: rest) = none) (place : Position) :
    (put (.directory entries) [name] new).standing? place
      = if place = [name] then some new.text? else standing? (.directory entries) place := by
  cases place with
  | nil => rw [if_neg (by simp), put, standing?, standing?, get?_nil, get?_nil]; rfl
  | cons first rest =>
    rw [standing?, get?_put_cons, put_nil]
    by_cases hfirst : first = name
    · subst hfirst
      rw [if_pos rfl]
      cases rest with
      | nil =>
        rw [if_pos rfl, get?_nil]
        rfl
      | cons next below =>
        -- neither what was put there nor what was there before holds anything
        rw [if_neg (by simp), hnew, standing?_cons]
        rw [standing?_cons] at hfree
        cases hinner : Entries.get? first entries with
        | none => rfl
        | some inner =>
          cases inner with
          | file text => rfl
          | directory more =>
            rw [hinner] at hfree
            exact absurd rfl hfree
    · rw [if_neg hfirst, if_neg (by simp [hfirst])]
      rfl

/-- **What stands at every position** after something that holds nothing was put into a directory, and not
in the place of one: there it is what was put, and everything else is what it was. -/
theorem standing?_put {entries : Entries FileTree} {new : FileTree}
    (hdirectory : tree.get? directory = some (.directory entries))
    (hfree : tree.standing? (directory ++ [name]) ≠ some none)
    (hnew : ∀ first rest, new.get? (first :: rest) = none) (place : Position) :
    (tree.put (directory ++ [name]) new).standing? place
      = if place = directory ++ [name] then some new.text? else tree.standing? place := by
  -- down to the directory both sides look into the same entries, and other entries are untouched
  induction directory generalizing tree place with
  | nil =>
    rw [get?_nil, Option.some.injEq] at hdirectory
    subst hdirectory
    exact standing?_put_top hfree hnew place
  | cons outer inner ih =>
    cases tree with
    | file text => cases hdirectory
    | directory all =>
      obtain ⟨found, hfound, hbelow⟩ := get?_cons_eq_some hdirectory
      rw [List.cons_append] at hfree ⊢
      cases place with
      | nil => rw [if_neg (by simp), put, standing?, standing?, get?_nil, get?_nil]; rfl
      | cons first rest =>
        rw [standing?, get?_put_cons]
        by_cases hfirst : first = outer
        · subst hfirst
          rw [standing?_cons, hfound, Option.bind_some] at hfree
          rw [if_pos rfl, hfound, Option.getD_some, standing?_cons, hfound, Option.bind_some]
          simp only [List.cons.injEq, true_and]
          exact ih hbelow hfree rest
        · rw [if_neg hfirst, if_neg (by simp [hfirst])]
          rfl

/-- What something stands below is a directory. -/
theorem isDirectory_above {first : String} {rest : Position} {found : FileTree}
    (h : tree.get? (place ++ first :: rest) = some found) :
    ∃ entries, tree.get? place = some (.directory entries) := by
  rw [get?_append] at h
  obtain ⟨inner, hinner, hbelow⟩ := Option.bind_eq_some_iff.mp h
  cases inner with
  | file text => cases hbelow
  | directory entries => exact ⟨entries, hinner⟩

theorem get?_empty_cons (first : String) (rest : Position) : empty.get? (first :: rest) = none := rfl

theorem get?_file_cons (text first : String) (rest : Position) :
    (FileTree.file text).get? (first :: rest) = none := rfl

/-! ## Ways -/

theorem follow_append {front back : List (List Char)} :
    follow tree (front ++ back) = .ok place
      ↔ ∃ here, follow tree front = .ok here ∧ back.foldlM (step tree) here = .ok place := by
  rw [follow, List.foldlM_append, except_bind_eq_ok]
  rfl

/-- The first pieces of a way that leads somewhere lead somewhere. -/
theorem follow_of_prefix {front pieces : List (List Char)} (hfront : front <+: pieces)
    (h : follow tree pieces = .ok place) : ∃ here, follow tree front = .ok here := by
  obtain ⟨back, rfl⟩ := hfront
  obtain ⟨here, hhere, -⟩ := follow_append.mp h
  exact ⟨here, hhere⟩

/-- Where one piece leads to there is something. -/
theorem exists_of_step {here next : Position} {piece : List Char} (h : step tree here piece = .ok next) :
    ∃ found, tree.get? next = some found := by
  obtain ⟨entries, hentries⟩ := step_eq_ok h
  rw [step, hentries] at h
  dsimp only at h
  split at h
  · cases h
    rcases List.eq_nil_or_concat here with rfl | ⟨front, last, rfl⟩
    · exact ⟨_, get?_nil _⟩
    · rw [List.concat_eq_append, get?_append] at hentries
      obtain ⟨outer, houter, -⟩ := Option.bind_eq_some_iff.mp hentries
      rw [List.concat_eq_append, List.dropLast_concat]
      exact ⟨outer, houter⟩
  · split at h
    · cases h
    · split at h
      · rename_i hhas
        cases h
        obtain ⟨found, hfound⟩ := Option.isSome_iff_exists.mp hhas
        refine ⟨found, ?_⟩
        rw [get?_append, hentries, Option.bind_some, get?, hfound]
        exact get?_nil found
      · cases h
  · cases h
    exact ⟨_, hentries⟩

/-- Where a way leads to there is something. -/
theorem exists_of_follow {pieces : List (List Char)} (h : follow tree pieces = .ok place) :
    ∃ found, tree.get? place = some found := by
  rcases List.eq_nil_or_concat pieces with rfl | ⟨front, last, rfl⟩
  · cases h
    exact ⟨_, get?_nil _⟩
  · rw [List.concat_eq_append] at h
    obtain ⟨here, -, hstep⟩ := follow_concat.mp h
    exact exists_of_step hstep

/-- A step that does not go upwards stays where it is or goes down. -/
theorem prefix_of_step {here next : Position} {piece : List Char} (h : step tree here piece = .ok next)
    (hpiece : Path.ofPiece piece ≠ some .parent) : here <+: next := by
  obtain ⟨entries, hentries⟩ := step_eq_ok h
  rw [step, hentries] at h
  dsimp only at h
  split at h
  · rename_i hparent
    exact absurd hparent hpiece
  · split at h
    · cases h
    · split at h
      · cases h
        exact List.prefix_append _ _
      · cases h
  · cases h
    exact List.prefix_refl _

/-- Whether a way never goes upwards. -/
def Straight (pieces : List (List Char)) : Prop := ∀ piece ∈ pieces, Path.ofPiece piece ≠ some .parent

theorem Straight.of_prefix {front pieces : List (List Char)} (h : Straight pieces) (hfront : front <+: pieces) :
    Straight front :=
  fun piece hpiece => h piece (hfront.subset hpiece)

theorem prefix_of_foldlM {pieces : List (List Char)} {here : Position} (hpieces : Straight pieces)
    (h : pieces.foldlM (step tree) here = .ok place) : here <+: place := by
  induction pieces generalizing here with
  | nil =>
    cases h
    exact List.prefix_refl _
  | cons piece rest ih =>
    rw [Straight, List.forall_mem_cons] at hpieces
    rw [List.foldlM_cons] at h
    obtain ⟨next, hnext, h⟩ := except_bind_eq_ok.mp h
    exact (prefix_of_step hnext hpieces.1).trans (ih hpieces.2 h)

/-- The first pieces of a straight way lead to a place above. -/
theorem prefix_of_follow {front pieces : List (List Char)} {here : Position} (hpieces : Straight pieces)
    (hfront : front <+: pieces) (hhere : follow tree front = .ok here)
    (h : follow tree pieces = .ok place) : here <+: place := by
  obtain ⟨back, rfl⟩ := hfront
  obtain ⟨other, hother, hback⟩ := follow_append.mp h
  obtain rfl : other = here := Except.ok.inj (hother.symm.trans hhere)
  exact prefix_of_foldlM (fun piece hpiece => hpieces piece (List.mem_append_right _ hpiece)) hback

/-- One step of a straight way in another tree. -/
theorem step_of_directories {here next : Position} {piece : List Char} (h : step later here piece = .ok next)
    (hpiece : Path.ofPiece piece ≠ some .parent)
    (hhere : ∃ entries, tree.get? here = some (.directory entries))
    (hnext : ∃ found, tree.get? next = some found) : step tree here piece = .ok next := by
  obtain ⟨entries, hentries⟩ := step_eq_ok h
  obtain ⟨more, hmore⟩ := hhere
  rw [step, hentries] at h
  rw [step, hmore]
  dsimp only at h ⊢
  split at h
  · rename_i hparent
    exact absurd hparent hpiece
  · rename_i text htext
    split at h
    · cases h
    · rename_i hshort
      split at h
      · cases h
        obtain ⟨found, hfound⟩ := hnext
        rw [get?_append, hmore, Option.bind_some] at hfound
        obtain ⟨inner, hinner, -⟩ := get?_cons_eq_some hfound
        have hhas : Entries.has (String.ofList text) more = true := by
          rw [Entries.has, hinner]
          rfl
        rw [if_neg hshort, if_pos hhas]
      · cases h
  · cases h
    rfl

/-- **A straight way** leads to the same place in every tree that has the directories on it. -/
theorem follow_of_directories {pieces : List (List Char)} (hpieces : Straight pieces)
    (h : follow later pieces = .ok place)
    (hdirectories : ∀ above, above <+: place → ∃ entries, tree.get? above = some (.directory entries)) :
    follow tree pieces = .ok place := by
  suffices hfold : ∀ here, pieces.foldlM (step later) here = .ok place →
      pieces.foldlM (step tree) here = .ok place from hfold [] h
  clear h
  induction pieces with
  | nil => exact fun _ h => h
  | cons piece rest ih =>
    intro here h
    rw [Straight, List.forall_mem_cons] at hpieces
    rw [List.foldlM_cons] at h ⊢
    obtain ⟨next, hnext, h⟩ := except_bind_eq_ok.mp h
    have hbelow : next <+: place := prefix_of_foldlM hpieces.2 h
    have hhere := hdirectories here ((prefix_of_step hnext hpieces.1).trans hbelow)
    obtain ⟨entries, hentries⟩ := hdirectories next hbelow
    have hstep := step_of_directories hnext hpieces.1 hhere ⟨_, hentries⟩
    exact except_bind_eq_ok.mpr ⟨next, hstep, ih hpieces.2 next h⟩

/-! ## Places -/

/-- The position at which a path has its file. -/
def place? (tree : FileTree) (path : String) : Option Position :=
  match target tree path with
  | .ok ⟨directory, some name, false⟩ => some (directory ++ [name])
  | _ => none

/-- The positions that a path leads through on its way to the last piece. -/
def through (tree : FileTree) (path : String) : List Position :=
  (Text.splitAt '/' path.toList).dropLast.inits.filterMap fun front => (follow tree front).toOption

theorem mem_through :
    place ∈ tree.through path
      ↔ ∃ front, front <+: (Text.splitAt '/' path.toList).dropLast ∧ follow tree front = .ok place := by
  have hoption : ∀ front, (follow tree front).toOption = some place ↔ follow tree front = .ok place := by
    intro front
    cases follow tree front with
    | ok found => simp [Except.toOption]
    | error fault => simp [Except.toOption]
  simp only [through, List.mem_filterMap, List.mem_inits, hoption]

theorem Leads.place?_eq (h : Leads tree path directory name) :
    tree.place? path = some (directory ++ [name]) := by
  obtain ⟨before, hpieces, hfollow⟩ := h.pieces
  have hne : name.toList.isEmpty = false := by
    rw [List.isEmpty_eq_false_iff]
    intro hnil
    have hname := h.isName
    rw [hnil] at hname
    cases hname
  have hdirectory : follow tree (before ++ [[]]) = .ok directory :=
    follow_concat.mpr ⟨directory, hfollow, step_nil.mpr ⟨rfl, h.isDirectory⟩⟩
  have htarget : target tree path = .ok ⟨directory, some name, false⟩ := by
    rw [target, hpieces]
    simp only [Except.bind, List.reverse_append, List.reverse_singleton, List.singleton_append,
      List.dropWhile_cons, hne, Bool.false_eq_true, if_false, List.reverse_reverse, hdirectory, h.isName,
      String.ofList_toList, h.short, List.getLast?_concat, Option.any_some]
  rw [place?, htarget]

/-- Writing a text puts a file at the place of the path, where no directory was. -/
theorem writeText_of_leads {text : String} (hleads : Leads tree path directory name)
    (h : writeText tree path text = .ok later) :
    later = tree.put (directory ++ [name]) (.file text) ∧ tree.standing? (directory ++ [name]) ≠ some none := by
  obtain ⟨outer, last, hwritten, hfree, rfl⟩ := writeText_eq_ok h
  have hplace : outer ++ [last] = directory ++ [name] :=
    Option.some.inj (hwritten.place?_eq.symm.trans hleads.place?_eq)
  rw [hplace] at hfree ⊢
  refine ⟨rfl, fun hdirectory => ?_⟩
  obtain ⟨entries, hentries⟩ := standing?_eq_directory.mp hdirectory
  exact hfree entries hentries

/-! ## New directories -/

/-- A tree that got directories on certain ways, and nothing else. -/
structure Grows (way : List (List Char) → Prop) (tree later : FileTree) : Prop
    extends Extends (fun _ => False) tree later where
  noFile : ∀ {place : Position} {text : String}, later.standing? place = some (some text) →
    tree.standing? place = some (some text)
  onWay : ∀ {place : Position}, later.standing? place = some none →
    tree.standing? place = some none ∨ ∃ front, way front ∧ follow later front = .ok place

namespace Grows

variable {way : List (List Char) → Prop}

theorem refl (tree : FileTree) : Grows way tree tree where
  toExtends := Extends.refl tree
  noFile h := h
  onWay h := Or.inl h

theorem trans (h : Grows way tree later) (h' : Grows way later last) : Grows way tree last where
  toExtends := h.toExtends.trans h'.toExtends
  noFile hfile := h.noFile (h'.noFile hfile)
  onWay hdirectory := by
    rcases h'.onWay hdirectory with hlater | hway
    · rcases h.onWay hlater with htree | ⟨front, hfront, hfollow⟩
      · exact Or.inl htree
      · exact Or.inr ⟨front, hfront, follow_of_extends h'.toExtends hfollow⟩
    · exact Or.inr hway

/-- The files are the same before and after. -/
theorem standing?_eq_file_iff (h : Grows way tree later) {text : String} :
    later.standing? place = some (some text) ↔ tree.standing? place = some (some text) :=
  ⟨h.noFile, fun hfile => standing?_eq_file.mpr (h.file (standing?_eq_file.mp hfile) fun hfalse => hfalse)⟩

theorem standing?_of_directory (h : Grows way tree later) (hplace : tree.standing? place = some none) :
    later.standing? place = some none := by
  obtain ⟨entries, hentries⟩ := standing?_eq_directory.mp hplace
  obtain ⟨more, hmore, -⟩ := h.directory hentries
  exact standing?_eq_directory.mpr ⟨more, hmore⟩

end Grows

/-- **Making a directory** adds one that its path leads to. -/
theorem grows_makeDirectory {way : List (List Char) → Prop} (h : makeDirectory tree path = .ok later)
    (hway : ∀ front, front <+: Text.splitAt '/' path.toList → way front) : Grows way tree later := by
  have hextends : Extends (fun _ => False) tree later := extends_makeDirectory h
  obtain ⟨place, hplace, h⟩ := except_bind_eq_ok.mp h
  split at h
  · rename_i name hname
    dsimp only at h
    split at h
    · cases h
    · rename_i hfree
      cases h
      obtain ⟨pieces, front, hpieces, hfront, -, -, hfollow, ⟨entries, hentries⟩, hisName, hshort⟩ :=
        exists_front_of_target hplace hname
      rw [eq_splitAt_of_pieces hpieces] at hfront
      have hnone : tree.standing? (place.directory ++ [name]) ≠ some none := by
        rw [standing?, hfree]
        simp
      have hput := standing?_put hentries hnone get?_empty_cons
      refine ⟨hextends, ?_, ?_⟩
      · intro position text hposition
        rw [hput] at hposition
        split at hposition
        · cases hposition
        · exact hposition
      · intro position hposition
        rw [hput] at hposition
        split at hposition
        · rename_i hnew
          subst hnew
          refine Or.inr ⟨front ++ [name.toList], hway _ hfront, follow_concat.mpr ⟨place.directory, ?_, ?_⟩⟩
          · exact follow_of_extends hextends hfollow
          · obtain ⟨more, hmore, -⟩ := hextends.directory hentries
            exact (step_name hmore hisName hshort).mpr ⟨rfl, _, get?_put_self hentries name _⟩
        · exact Or.inl hposition
  · cases h

/-- The root is never made. -/
theorem makeDirectory_root (tree : FileTree) : makeDirectory tree "/" = .error .exists := rfl

/-- Only the empty path misses something before it is followed. -/
theorem ne_notFound_of_pieces {fault : FileFault} (h : pieces path = .error fault) (hne : path ≠ "") :
    fault ≠ .notFound := by
  rintro rfl
  unfold pieces at h
  split at h
  · cases h
  · split at h
    · rename_i hempty
      exact hne (String.isEmpty_iff.mp hempty)
    · split at h
      · cases h
      · cases h

/-- **What is there** is not made, and the directory that it is in is not missed. -/
theorem makeDirectory_of_follow (h : follow tree (Text.splitAt '/' path.toList) = .ok place)
    (hne : path ≠ "") :
    ∃ fault, makeDirectory tree path = .error fault ∧ fault ≠ .notFound := by
  rw [makeDirectory, target]
  cases hpieces : pieces path with
  | error fault => exact ⟨fault, rfl, ne_notFound_of_pieces hpieces hne⟩
  | ok found =>
    obtain rfl := eq_splitAt_of_pieces hpieces
    cases hreverse : (Text.splitAt '/' path.toList).reverse.dropWhile List.isEmpty with
    | nil =>
      refine ⟨.exists, ?_, FileFault.noConfusion⟩
      simp only [Except.bind, hreverse]
    | cons last before =>
      -- the pieces before the last one lead to a directory, and the last one leads on from there
      have hlast : before.reverse ++ [last] <+: Text.splitAt '/' path.toList :=
        concat_prefix_of_dropWhile hreverse
      obtain ⟨next, hnext⟩ := follow_of_prefix hlast h
      obtain ⟨here, hhere, hstep⟩ := follow_concat.mp hnext
      obtain ⟨more, hmore⟩ := step_eq_ok hstep
      have hdirectory : follow tree (before.reverse ++ [[]]) = .ok here :=
        follow_concat.mpr ⟨here, hhere, step_nil.mpr ⟨rfl, more, hmore⟩⟩
      simp only [Except.bind, hreverse, hdirectory]
      cases hpiece : Path.ofPiece last with
      | none => exact ⟨.exists, rfl, FileFault.noConfusion⟩
      | some component =>
        cases component with
        | normal text =>
          obtain rfl := Path.ofPiece_eq_normal hpiece
          dsimp only
          by_cases hshort : nameLimit < (String.ofList text).utf8ByteSize
          · exact ⟨.nameTooLong, by rw [if_pos hshort], FileFault.noConfusion⟩
          · rw [← String.toList_ofList (l := text)] at hpiece hstep
            obtain ⟨-, found, hfound⟩ := (step_name hmore hpiece hshort).mp hstep
            refine ⟨.exists, ?_, FileFault.noConfusion⟩
            rw [if_neg hshort]
            simp only [hfound]
        | _ => exact ⟨.exists, rfl, FileFault.noConfusion⟩

end ClassCli.FileTree
