import ClassCli.FileTree
import ClassCli.Proofs.Attempt
import ClassCli.Proofs.Entries
import ClassCli.Proofs.Path
import ClassCli.Workspace

/-!
# Trees that change

A change puts something where no directory is. Directories keep all their names, so that a path that leads
somewhere keeps leading there, and a file stays as it is unless it is the one that is written. A program
runs on a workspace and leaves another one: what it does to the tree follows from what its steps do, whether
the run succeeds or not.

In a tree without links the components of a path alone decide where it leads, if it leads anywhere: a name goes
down, and two points go up. Paths with the same components thus lead to the same place. The converse fails, since
a path can start in the current directory by name, or go down and up again.

* **`Extends`** — what one tree has, another one has too, certain files aside.
* **`extends_put`** — a change extends the tree, the changed position aside.
* **`readText_writeText`** — a path leads to the text that was written there.
* **`LeadsTo.eq_landing`** — a path leads to the position that its components spell.
* **`SameFile`** — two paths that lead to the same position.
* **`Workspace.run`** — the outcome of a program and the workspace after it.
* **`Workspace.Keeps`** — every run of a computation extends the tree, certain files aside.
-/

namespace ClassCli.FileTree

/-! ## Positions -/

theorem get?_append (tree : FileTree) (front back : Position) :
    tree.get? (front ++ back) = (tree.get? front).bind (·.get? back) := by
  induction front generalizing tree with
  | nil => rw [List.nil_append, get?_nil, Option.bind_some]
  | cons name rest ih =>
    cases tree with
    | file text => rfl
    | directory entries =>
      rw [List.cons_append, get?, get?]
      cases Entries.get? name entries with
      | none => rfl
      | some inner => exact ih inner

theorem get?_put_self {tree : FileTree} {directory : Position} {entries : Entries FileTree}
    (h : tree.get? directory = some (.directory entries)) (name : String) (new : FileTree) :
    (tree.put (directory ++ [name]) new).get? (directory ++ [name]) = some new := by
  induction directory generalizing tree with
  | nil =>
    rw [get?_nil, Option.some.injEq] at h
    rw [h, List.nil_append, put, get?, Entries.get?_put_self, put_nil]
    exact get?_nil new
  | cons first rest ih =>
    cases tree with
    | file text => cases h
    | directory outer =>
      rw [get?] at h
      rw [List.cons_append, put, get?, Entries.get?_put_self]
      cases hfirst : Entries.get? first outer with
      | none =>
        rw [hfirst] at h
        cases h
      | some inner =>
        rw [hfirst] at h
        exact ih h

/-! ## Extensions -/

/-- What one tree has, a later one has too: every directory with its names, and every file, those at
certain positions aside. -/
structure Extends (changed : Position → Prop) (tree later : FileTree) : Prop where
  directory : ∀ {position : Position} {entries : Entries FileTree},
    tree.get? position = some (.directory entries) →
    ∃ more, later.get? position = some (.directory more)
      ∧ ∀ name, Entries.has name entries = true → Entries.has name more = true
  file : ∀ {position : Position} {text : String}, tree.get? position = some (.file text) →
    ¬changed position → later.get? position = some (.file text)

namespace Extends

variable {changed : Position → Prop} {tree later last : FileTree}

theorem refl (tree : FileTree) : Extends changed tree tree where
  directory h := ⟨_, h, fun _ hname => hname⟩
  file h _ := h

theorem trans (h : Extends changed tree later) (h' : Extends changed later last) :
    Extends changed tree last where
  directory hd := by
    obtain ⟨more, hmore, hnames⟩ := h.directory hd
    obtain ⟨others, hothers, hnames'⟩ := h'.directory hmore
    exact ⟨others, hothers, fun name hname => hnames' name (hnames name hname)⟩
  file hf hc := h'.file (h.file hf hc) hc

theorem mono {other : Position → Prop} (h : Extends changed tree later)
    (hc : ∀ position, changed position → other position) : Extends other tree later where
  directory := h.directory
  file hf ho := h.file hf fun hchanged => ho (hc _ hchanged)

end Extends

/-- What stands below a directory after a change: what was there, or what the change makes of the entry
that it goes into. -/
theorem get?_put_cons (outer : Entries FileTree) (name : String) (rest : Position) (new : FileTree)
    (other : String) (below : Position) :
    (put (.directory outer) (name :: rest) new).get? (other :: below)
      = if other = name then (put ((Entries.get? name outer).getD empty) rest new).get? below
        else (FileTree.directory outer).get? (other :: below) := by
  rw [put, get?]
  by_cases hother : other = name
  · rw [if_pos hother, hother, Entries.get?_put_self]
  · rw [if_neg hother, Entries.get?_put_of_ne hother, get?]

theorem get?_cons_eq_some {outer : Entries FileTree} {name : String} {below : Position}
    {found : FileTree} (h : (FileTree.directory outer).get? (name :: below) = some found) :
    ∃ inner, Entries.get? name outer = some inner ∧ inner.get? below = some found := by
  rw [get?] at h
  split at h
  · rename_i inner hinner
    exact ⟨inner, hinner, h⟩
  · cases h

/-- **A change extends the tree**, the changed position aside, if no directory is there. -/
theorem extends_put {tree : FileTree} {place : Position}
    (h : ∀ entries, tree.get? place ≠ some (.directory entries)) (new : FileTree) :
    Extends (· = place) tree (tree.put place new) := by
  induction place generalizing tree with
  | nil =>
    cases tree with
    | directory entries => exact absurd rfl (h entries)
    | file text =>
      refine ⟨?_, ?_⟩
      · rintro (_ | ⟨name, rest⟩) entries hd
        · cases hd
        · cases hd
      · rintro (_ | ⟨name, rest⟩) found hf hne
        · exact absurd rfl hne
        · cases hf
  | cons name rest ih =>
    cases tree with
    | file text => exact Extends.refl _
    | directory outer =>
      -- behind the name the change is the same one, one step further down
      have hinner : ∀ inner, Entries.get? name outer = some inner →
          Extends (· = rest) inner (put ((Entries.get? name outer).getD empty) rest new) := by
        intro inner hfound
        rw [hfound]
        refine ih fun entries hd => h entries ?_
        rw [get?, hfound]
        exact hd
      refine ⟨?_, ?_⟩
      · rintro (_ | ⟨other, below⟩) entries hd
        · rw [get?_nil, Option.some.injEq, FileTree.directory.injEq] at hd
          rw [put, get?_nil, ← hd]
          exact ⟨_, rfl, fun other hother => Entries.has_put hother name _⟩
        · rw [get?_put_cons]
          split
          · rename_i hother
            obtain ⟨inner, hfound, hbelow⟩ := get?_cons_eq_some hd
            exact (hinner inner (hother ▸ hfound)).directory hbelow
          · exact ⟨entries, hd, fun _ hhas => hhas⟩
      · rintro (_ | ⟨other, below⟩) text hf hne
        · cases hf
        · rw [get?_put_cons]
          split
          · rename_i hother
            obtain ⟨inner, hfound, hbelow⟩ := get?_cons_eq_some hf
            exact (hinner inner (hother ▸ hfound)).file hbelow fun heq => hne (by rw [hother, heq])
          · exact hf

/-! ## Paths -/

theorem foldlM_mono {σ α ε : Type} {f g : σ → α → Except ε σ}
    (hstep : ∀ state x next, f state x = .ok next → g state x = .ok next) {items : List α}
    {state result : σ} (h : items.foldlM f state = .ok result) : items.foldlM g state = .ok result := by
  induction items generalizing state with
  | nil => exact h
  | cons x rest ih =>
    rw [List.foldlM_cons, except_bind_eq_ok] at h ⊢
    obtain ⟨next, hnext, h⟩ := h
    exact ⟨next, hstep state x next hnext, ih h⟩

variable {changed : Position → Prop} {tree later : FileTree}

/-- Going along one piece of a path starts in a directory. -/
theorem step_eq_ok {here next : Position} {piece : List Char} (h : step tree here piece = .ok next) :
    ∃ entries, tree.get? here = some (.directory entries) := by
  unfold step at h
  split at h
  · rename_i entries hentries
    exact ⟨entries, hentries⟩
  · cases h
  · cases h

theorem step_of_extends (hextends : Extends changed tree later) {here next : Position}
    {piece : List Char} (h : step tree here piece = .ok next) : step later here piece = .ok next := by
  obtain ⟨entries, hentries⟩ := step_eq_ok h
  obtain ⟨more, hmore, hnames⟩ := hextends.directory hentries
  rw [step, hentries] at h
  rw [step, hmore]
  dsimp only at h ⊢
  -- only a name asks what the directory holds, and the directory still holds it
  cases hpiece : Path.ofPiece piece with
  | none =>
    rw [hpiece] at h
    exact h
  | some component =>
    rw [hpiece] at h
    cases component with
    | normal name =>
      dsimp only at h ⊢
      split at h
      · cases h
      · rename_i hlength
        split at h
        · rename_i hhas
          rw [if_neg hlength, if_pos (hnames _ hhas)]
          exact h
        · cases h
    | _ => exact h

/-- **A path keeps leading where it led.** -/
theorem follow_of_extends (hextends : Extends changed tree later) {pieces : List (List Char)}
    {place : Position} (h : follow tree pieces = .ok place) : follow later pieces = .ok place :=
  foldlM_mono (fun _ _ _ => step_of_extends hextends) h

theorem follow_concat {pieces : List (List Char)} {piece : List Char} {place : Position} :
    follow tree (pieces ++ [piece]) = .ok place
      ↔ ∃ here, follow tree pieces = .ok here ∧ step tree here piece = .ok place := by
  rw [follow, List.foldlM_append, except_bind_eq_ok]
  simp only [List.foldlM_cons, List.foldlM_nil, bind_pure, follow]

theorem step_nil {here place : Position} :
    step tree here [] = .ok place
      ↔ here = place ∧ ∃ entries, tree.get? here = some (.directory entries) := by
  constructor
  · intro h
    obtain ⟨entries, hentries⟩ := step_eq_ok h
    rw [step, hentries] at h
    cases h
    exact ⟨rfl, entries, hentries⟩
  · rintro ⟨rfl, entries, hentries⟩
    rw [step, hentries]
    rfl

/-- Going along a name leads from a directory to the entry of that name. -/
theorem step_name {here place : Position} {name : String} {entries : Entries FileTree}
    (hhere : tree.get? here = some (.directory entries))
    (hname : Path.ofPiece name.toList = some (.normal name.toList))
    (hshort : ¬nameLimit < name.utf8ByteSize) :
    step tree here name.toList = .ok place
      ↔ place = here ++ [name] ∧ ∃ found, tree.get? (here ++ [name]) = some found := by
  have hfound : (∃ found, tree.get? (here ++ [name]) = some found) ↔ Entries.has name entries = true := by
    rw [get?_append, hhere, Option.bind_some, get?, Entries.has, Option.isSome_iff_exists]
    cases Entries.get? name entries with
    | none => simp
    | some inner => simp
  rw [hfound, step, hhere, hname]
  simp only [String.ofList_toList, if_neg hshort]
  split
  · rename_i hhas
    simp only [Except.ok.injEq, hhas, and_true]
    exact eq_comm
  · rename_i hhas
    simp only [reduceCtorEq, hhas, and_false]

theorem eq_splitAt_of_pieces {path : String} {found : List (List Char)} (h : pieces path = .ok found) :
    found = Text.splitAt '/' path.toList := by
  unfold pieces at h
  split at h
  · cases h
  · split at h
    · cases h
    · split at h
      · cases h
      · exact (Except.ok.inj h).symm

/-- A path whose last piece is a name in a directory. -/
structure Leads (tree : FileTree) (path : String) (directory : Position) (name : String) : Prop where
  pieces : ∃ before, FileTree.pieces path = .ok (before ++ [name.toList])
    ∧ follow tree before = .ok directory
  isDirectory : ∃ entries, tree.get? directory = some (.directory entries)
  isName : Path.ofPiece name.toList = some (.normal name.toList)
  short : ¬nameLimit < name.utf8ByteSize

namespace Leads

variable {path name text : String} {directory : Position}

theorem of_extends (h : Leads tree path directory name) (hextends : Extends changed tree later) :
    Leads later path directory name where
  pieces := by
    obtain ⟨before, hpieces, hfollow⟩ := h.pieces
    exact ⟨before, hpieces, follow_of_extends hextends hfollow⟩
  isDirectory := by
    obtain ⟨entries, hentries⟩ := h.isDirectory
    obtain ⟨more, hmore, -⟩ := hextends.directory hentries
    exact ⟨more, hmore⟩
  isName := h.isName
  short := h.short

/-- The last piece of the path is the name. -/
theorem getLast? (h : Leads tree path directory name) :
    (Text.splitAt '/' path.toList).getLast? = some name.toList := by
  obtain ⟨before, hpieces, -⟩ := h.pieces
  rw [← eq_splitAt_of_pieces hpieces, List.getLast?_concat]

/-- The path leads to what stands at the position of the name. -/
theorem find_eq_ok (h : Leads tree path directory name) {found : FileTree} :
    tree.find path = .ok found ↔ tree.get? (directory ++ [name]) = some found := by
  obtain ⟨before, hpieces, hfollow⟩ := h.pieces
  obtain ⟨entries, hentries⟩ := h.isDirectory
  have hplace : ∀ place, follow tree (before ++ [name.toList]) = .ok place
      ↔ place = directory ++ [name] ∧ ∃ found, tree.get? (directory ++ [name]) = some found := by
    intro place
    rw [follow_concat, ← step_name hentries h.isName h.short]
    constructor
    · rintro ⟨here, hhere, hstep⟩
      rw [hfollow, Except.ok.injEq] at hhere
      rw [hhere]
      exact hstep
    · intro hstep
      exact ⟨directory, hfollow, hstep⟩
  rw [find, hpieces]
  constructor
  · intro hfind
    obtain ⟨_, ⟨⟩, hfind⟩ := except_bind_eq_ok.mp hfind
    obtain ⟨place, hstep, hfind⟩ := except_bind_eq_ok.mp hfind
    obtain ⟨rfl, -⟩ := (hplace place).mp hstep
    split at hfind
    · rename_i other hother
      cases hfind
      exact hother
    · cases hfind
  · intro hfound
    refine except_bind_eq_ok.mpr ⟨_, rfl, except_bind_eq_ok.mpr ⟨directory ++ [name], ?_, ?_⟩⟩
    · exact (hplace _).mpr ⟨rfl, found, hfound⟩
    · rw [hfound]

theorem readText (h : Leads tree path directory name)
    (hfile : tree.get? (directory ++ [name]) = some (.file text)) :
    tree.readText path = .ok text := by
  rw [FileTree.readText, h.find_eq_ok.mpr hfile]

end Leads

/-! ## Writing -/

/-- The last piece that is not empty is the last one of a path that does not end in a slash. -/
theorem eq_concat_of_dropWhile {pieces before : List (List Char)} {last : List Char}
    (h : pieces.reverse.dropWhile List.isEmpty = last :: before)
    (hslash : pieces.getLast?.any List.isEmpty = false) : pieces = before.reverse ++ [last] := by
  cases hall : pieces.reverse with
  | nil =>
    rw [hall] at h
    cases h
  | cons first others =>
    have hnonempty : first.isEmpty = false := by
      rw [← List.head?_reverse, hall] at hslash
      exact hslash
    rw [hall, List.dropWhile_cons_of_neg (by simp [hnonempty])] at h
    obtain ⟨rfl, rfl⟩ := List.cons.inj h
    rw [← List.reverse_reverse pieces, hall, List.reverse_cons]

theorem concat_prefix_of_dropWhile {pieces before : List (List Char)} {last : List Char}
    (h : pieces.reverse.dropWhile List.isEmpty = last :: before) : before.reverse ++ [last] <+: pieces := by
  have hsuffix : last :: before <:+ pieces.reverse := h ▸ List.dropWhile_suffix _
  have hprefix := List.reverse_prefix.mpr hsuffix
  rw [List.reverse_reverse, List.reverse_cons] at hprefix
  exact hprefix

/-- What a path would put somewhere has the name of the last piece that is not empty, and the pieces before
it lead to the directory. -/
theorem exists_front_of_target {path name : String} {place : Target} (h : target tree path = .ok place)
    (hname : place.name? = some name) :
    ∃ pieces front, FileTree.pieces path = .ok pieces ∧ front ++ [name.toList] <+: pieces
      ∧ place.slash = pieces.getLast?.any List.isEmpty
      ∧ (place.slash = false → pieces = front ++ [name.toList])
      ∧ follow tree front = .ok place.directory
      ∧ (∃ entries, tree.get? place.directory = some (.directory entries))
      ∧ Path.ofPiece name.toList = some (.normal name.toList) ∧ ¬nameLimit < name.utf8ByteSize := by
  unfold target at h
  obtain ⟨pieces, hpieces, h⟩ := except_bind_eq_ok.mp h
  cases hreverse : pieces.reverse.dropWhile List.isEmpty with
  | nil =>
    rw [hreverse] at h
    cases h
    cases hname
  | cons last before =>
    rw [hreverse] at h
    obtain ⟨directory, hdirectory, h⟩ := except_bind_eq_ok.mp h
    obtain ⟨here, hfollow, hstep⟩ := follow_concat.mp hdirectory
    obtain ⟨rfl, hentries⟩ := step_nil.mp hstep
    dsimp only at h
    split at h
    · rename_i found hlast
      split at h
      · cases h
      · rename_i hlength
        cases h
        cases hname
        have hfound := Path.ofPiece_eq_normal hlast
        have hfront := concat_prefix_of_dropWhile hreverse
        rw [← hfound] at hlast hfront
        refine ⟨pieces, before.reverse, hpieces, ?_, rfl, fun hslash => ?_, hfollow, hentries, ?_, hlength⟩
        · rw [String.toList_ofList]
          exact hfront
        · rw [String.toList_ofList, hfound]
          exact eq_concat_of_dropWhile hreverse hslash
        · rw [String.toList_ofList]
          exact hlast
    · cases h
      cases hname

theorem target_eq_ok {path name : String} {place : Target} (h : target tree path = .ok place)
    (hname : place.name? = some name) :
    (∃ entries, tree.get? place.directory = some (.directory entries))
      ∧ (place.slash = false → Leads tree path place.directory name) := by
  obtain ⟨pieces, front, hpieces, -, -, hwhole, hfollow, hentries, hisName, hshort⟩ :=
    exists_front_of_target h hname
  refine ⟨hentries, fun hslash => ⟨⟨front, ?_, hfollow⟩, hentries, hisName, hshort⟩⟩
  rw [hpieces, hwhole hslash]

/-- **Writing a text** puts a file where a path leads to, in a directory and not in the place of one. -/
theorem writeText_eq_ok {path text : String} (h : writeText tree path text = .ok later) :
    ∃ directory name, Leads tree path directory name
      ∧ (∀ entries, tree.get? (directory ++ [name]) ≠ some (.directory entries))
      ∧ later = tree.put (directory ++ [name]) (.file text) := by
  obtain ⟨place, hplace, h⟩ := except_bind_eq_ok.mp h
  split at h
  · rename_i name hname hslash
    dsimp only at h
    split at h
    · cases h
    · rename_i hfree
      cases h
      exact ⟨place.directory, name, (target_eq_ok hplace hname).2 hslash, hfree, rfl⟩
  · cases h

/-- Making a directory changes no file. -/
theorem extends_makeDirectory {path : String} (h : makeDirectory tree path = .ok later) :
    Extends changed tree later := by
  obtain ⟨place, hplace, h⟩ := except_bind_eq_ok.mp h
  split at h
  · rename_i name hname
    dsimp only at h
    split at h
    · cases h
    · rename_i hfree
      cases h
      have hput := extends_put (fun entries hd => by rw [hfree] at hd; cases hd) empty
      refine ⟨hput.directory, fun hf _ => hput.file hf ?_⟩
      rintro rfl
      rw [hfree] at hf
      cases hf
  · cases h

/-- Writing changes no file of another name. -/
theorem extends_writeText {path text name : String} (h : writeText tree path text = .ok later)
    (hname : (Text.splitAt '/' path.toList).getLast? = some name.toList) :
    Extends (·.getLast? = some name) tree later := by
  obtain ⟨directory, last, hleads, hfree, rfl⟩ := writeText_eq_ok h
  obtain rfl : last = name := by
    rw [hleads.getLast?, Option.some.injEq, String.toList_inj] at hname
    exact hname
  refine (extends_put hfree _).mono ?_
  rintro position rfl
  exact List.getLast?_concat

theorem leads_of_writeText {path text : String} (h : writeText tree path text = .ok later) :
    ∃ directory name, Leads later path directory name
      ∧ later.get? (directory ++ [name]) = some (.file text) := by
  obtain ⟨directory, name, hleads, hfree, rfl⟩ := writeText_eq_ok h
  obtain ⟨entries, hentries⟩ := hleads.isDirectory
  exact ⟨directory, name, hleads.of_extends (extends_put hfree _), get?_put_self hentries name _⟩

/-- **What is written is read.** -/
theorem readText_writeText {path text : String} (h : writeText tree path text = .ok later) :
    later.readText path = .ok text := by
  obtain ⟨directory, name, hleads, hfile⟩ := leads_of_writeText h
  exact hleads.readText hfile

/-- **What is written stays** while files of other names change. -/
theorem readText_of_writeText {path text name : String} {last : FileTree}
    (h : writeText tree path text = .ok later)
    (hname : (Text.splitAt '/' path.toList).getLast? = some name.toList)
    (hextends : Extends changed later last)
    (hchanged : ∀ position, changed position → position.getLast? ≠ some name) :
    last.readText path = .ok text := by
  obtain ⟨directory, found, hleads, hfile⟩ := leads_of_writeText h
  obtain rfl : found = name := by
    rw [hleads.getLast?, Option.some.injEq, String.toList_inj] at hname
    exact hname
  have hstays := hextends.file hfile fun hc => hchanged _ hc List.getLast?_concat
  exact (hleads.of_extends hextends).readText hstays

/-! ## Where paths lead -/

section Landing

open ClassCli.Path (Component components ofFirst ofPiece)

variable {tree : FileTree} {path : String} {place : Position}

/-- A path leads to a position. -/
def LeadsTo (tree : FileTree) (path : String) (place : Position) : Prop :=
  ∃ pieces, FileTree.pieces path = .ok pieces ∧ follow tree pieces = .ok place

/-- Where a component leads from a position. -/
def descend (here : Position) : Component → Position
  | .parent => here.dropLast
  | .normal name => here ++ [String.ofList name]
  | _ => here

/-- The position that the components of a path spell. -/
def landing (path : String) : Position := (components path).foldl descend []

/-- A step leads where the component of its piece does. -/
theorem step_eq_descend {here next : Position} {piece : List Char} (h : step tree here piece = .ok next) :
    next = (ofPiece piece).toList.foldl descend here := by
  obtain ⟨entries, hentries⟩ := step_eq_ok h
  rw [step, hentries] at h
  dsimp only at h
  split at h
  · rename_i hparent
    rw [hparent]
    exact (Except.ok.inj h).symm
  · rename_i name hname
    rw [hname]
    split at h
    · cases h
    · split at h
      · exact (Except.ok.inj h).symm
      · cases h
  · rename_i hparent hname
    cases hpiece : ofPiece piece with
    | none => exact (Except.ok.inj h).symm
    | some component =>
      cases component with
      | root => exact (Except.ok.inj h).symm
      | current => exact (Except.ok.inj h).symm
      | parent => exact absurd hpiece hparent
      | normal name => exact absurd hpiece (hname name)

/-- Pieces lead where their components do. -/
theorem foldlM_step_eq_descend {pieces : List (List Char)} {here : Position}
    (h : pieces.foldlM (step tree) here = .ok place) :
    place = (pieces.filterMap ofPiece).foldl descend here := by
  induction pieces generalizing here with
  | nil => exact (Except.ok.inj h).symm
  | cons piece rest ih =>
    rw [List.foldlM_cons] at h
    obtain ⟨next, hnext, h⟩ := except_bind_eq_ok.mp h
    rw [List.filterMap_cons, ih h, step_eq_descend hnext]
    cases ofPiece piece with
    | none => rfl
    | some component => rfl

/-- The first piece leads where the first component does; the top and the current directory are where a path starts. -/
theorem foldl_ofFirst (piece : List Char) (alone : Bool) :
    (ofFirst piece alone).toList.foldl descend [] = (ofPiece piece).toList.foldl descend [] := by
  unfold ofFirst
  split
  · split
    · rfl
    · rfl
  · rfl
  · rfl

/-- **A path leads where its components spell**, if it leads anywhere. -/
theorem LeadsTo.eq_landing (h : LeadsTo tree path place) : place = landing path := by
  obtain ⟨pieces, hpieces, hfollow⟩ := h
  rw [foldlM_step_eq_descend hfollow, eq_splitAt_of_pieces hpieces, landing, components]
  split
  · rename_i hnil
    rw [hnil]
    rfl
  · rename_i first rest hsplit
    rw [hsplit, List.foldl_append, foldl_ofFirst, List.filterMap_cons]
    cases ofPiece first with
    | none => rfl
    | some component => rfl

/-- The path of a file leads to a position. -/
theorem leadsTo_of_hasFile (h : tree.hasFile path = true) : LeadsTo tree path (landing path) := by
  unfold hasFile at h
  split at h
  · rename_i text hfind
    obtain ⟨pieces, hpieces, hfind⟩ := except_bind_eq_ok.mp hfind
    obtain ⟨place, hfollow, -⟩ := except_bind_eq_ok.mp hfind
    have hleads : LeadsTo tree path place := ⟨pieces, hpieces, hfollow⟩
    rwa [← hleads.eq_landing]
  · cases h

/-- Two paths lead to the same position. -/
def SameFile (tree : FileTree) (p q : String) : Prop := ∃ place, LeadsTo tree p place ∧ LeadsTo tree q place

theorem SameFile.landing_eq {p q : String} (h : SameFile tree p q) : landing p = landing q := by
  obtain ⟨place, hp, hq⟩ := h
  rw [← hp.eq_landing, ← hq.eq_landing]

theorem SameFile.symm {p q : String} (h : SameFile tree p q) : SameFile tree q p := by
  obtain ⟨place, hp, hq⟩ := h
  exact ⟨place, hq, hp⟩

theorem SameFile.trans {p q r : String} (h : SameFile tree p q) (h' : SameFile tree q r) : SameFile tree p r := by
  obtain ⟨place, hp, hq⟩ := h
  obtain ⟨other, hq', hr⟩ := h'
  rw [hq'.eq_landing, ← hq.eq_landing] at hr
  exact ⟨place, hp, hr⟩

/-- **Two files are the same** if their paths spell the same position. -/
theorem sameFile_iff {p q : String} (hp : tree.hasFile p = true) (hq : tree.hasFile q = true) :
    SameFile tree p q ↔ landing p = landing q := by
  constructor
  · exact SameFile.landing_eq
  · intro h
    refine ⟨landing p, leadsTo_of_hasFile hp, ?_⟩
    rw [h]
    exact leadsTo_of_hasFile hq

/-- Files whose paths have the same components are the same. -/
theorem sameFile_of_same {p q : String} (hp : tree.hasFile p = true) (hq : tree.hasFile q = true)
    (h : Path.same p q = true) : SameFile tree p q := by
  rw [sameFile_iff hp hq, landing, landing, beq_iff_eq.mp h]

end Landing

end ClassCli.FileTree

namespace ClassCli.Workspace

open FileTree (Extends Position)

variable {α β : Type}

/-- The outcome of a program and the workspace after it. -/
def run (x : ExceptT Fault (StateM Workspace) α) (w : Workspace) : Except Fault α × Workspace :=
  StateT.run x.run w

theorem run_lift (x : StateM Workspace α) (w : Workspace) :
    run (ExceptT.lift x) w = (.ok (StateT.run x w).1, (StateT.run x w).2) := rfl

/-- A sequence succeeds exactly if both parts do, the second one on the workspace after the first. -/
theorem run_bind_eq_ok {x : ExceptT Fault (StateM Workspace) α}
    {f : α → ExceptT Fault (StateM Workspace) β} {w last : Workspace} {result : β} :
    run (x >>= f) w = (.ok result, last)
      ↔ ∃ value next, run x w = (.ok value, next) ∧ run (f value) next = (.ok result, last) :=
  run_exceptT_bind_eq_ok

theorem run_change (f : FileTree → Except FileFault FileTree) (w : Workspace) :
    StateT.run (change f) w = match f w.tree with
      | .ok tree => (.ok (), { w with tree := tree })
      | .error fault => (.error fault, w) := by
  unfold change
  show StateT.run (match f w.tree with | .ok tree => _ | .error fault => _) w = _
  cases f w.tree with
  | ok tree => rfl
  | error fault => rfl

/-- Whether every run of a computation extends the tree, certain files aside. -/
def Keeps (changed : Position → Prop) (x : StateM Workspace α) : Prop :=
  ∀ w, Extends changed w.tree (StateT.run x w).2.tree

namespace Keeps

variable {changed : Position → Prop}

theorem pure (value : α) : Keeps changed (Pure.pure value : StateM Workspace α) :=
  fun w => Extends.refl w.tree

theorem bind {x : StateM Workspace α} {f : α → StateM Workspace β} (hx : Keeps changed x)
    (hf : ∀ value, Keeps changed (f value)) : Keeps changed (x >>= f) :=
  fun w => (hx w).trans (hf _ _)

theorem look (f : FileTree → α) : Keeps changed (Workspace.look f) :=
  fun w => Extends.refl w.tree

/-- A change of the tree that may fail. -/
theorem change {f : FileTree → Except FileFault FileTree}
    (h : ∀ tree later, f tree = .ok later → Extends changed tree later) :
    Keeps changed (Workspace.change f) := by
  intro w
  rw [run_change]
  split
  · rename_i tree htree
    exact h _ _ htree
  · exact Extends.refl _

end Keeps

end ClassCli.Workspace
