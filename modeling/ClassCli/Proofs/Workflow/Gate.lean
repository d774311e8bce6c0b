import ClassCli.Proofs.Workflow.Filling
import ClassCli.Proofs.Workflow.TwoPasses

/-!
# The gate before files

A program is written as three files. Nothing is replaced without leave: whoever stands at the gate is asked
about each file that is there already, in order, and the file stays as it is if the answer is no. All other
files stay as they are.

What is there already is what was there before the run, and directories that the run itself has made because
the path of a file leads through the place of that file, and back from it.

* **`drafts`** — the files of a program.
* **`taken`**, **`Gated`** — which files are asked about, and what is there after the run.
* **`gated_of_writeFiles`** — writing the files of a program keeps to the gate.
* **`runs_gated`** — so do the two runs that write a program.
-/

namespace ClassCli

open FileTree (Extends Leads Position Straight follow)

namespace Workflow

open Interface (Collection)
open Synthesis (Generated)
open Workspace (deciding host run)

variable {rule : String → Bool} {format : List String → StateM Workspace Unit}

/-! ## The files of a program -/

/-- The paths of the files of a program in the order in which they are written, each with its text. -/
def Layout.files (layout : Layout) (code : Generated) : List (String × String) :=
  [(layout.setupParser, code.setupParser.text), (layout.entryPoint, code.entryPoint.text),
    (layout.packageMarker, "")]

/-- The files of a program in a directory. -/
def drafts (layout : Layout) (code : Generated) (home : Position) : List Draft :=
  [⟨layout.setupParser, home ++ ["utils"], "parser.py", code.setupParser.text⟩,
    ⟨layout.entryPoint, home, "__main__.py", code.entryPoint.text⟩,
    ⟨layout.packageMarker, home, "__init__.py", ""⟩]

theorem nodup_drafts (layout : Layout) (code : Generated) (home : Position) :
    ((drafts layout code home).map Draft.place).Nodup := by
  simp [drafts, Draft.place, List.append_assoc]

/-- The names of the files can be names. -/
theorem names_short : ∀ name ∈ ["parser.py", "__main__.py", "__init__.py"], '/' ∉ name.toList
    ∧ Path.ofPiece name.toList = some (.normal name.toList)
    ∧ ¬FileTree.nameLimit < name.utf8ByteSize := by decide

/-- The pieces of the path of the setup file. -/
theorem splitAt_setupParser {directory : String} {front : List (List Char)}
    (hjoin : ∀ name : String, '/' ∉ name.toList →
      Text.splitAt '/' (Path.join directory name).toList = front ++ [name.toList]) :
    Text.splitAt '/' (Layout.inDirectory directory).setupParser.toList
      = front ++ ["utils".toList] ++ ["parser.py".toList] := by
  rw [← hjoin "utils" (by decide)]
  exact Path.splitAt_join_join directory (by decide) (by decide) (by decide)

/-- The directory of the setup file leads to a directory with that name after it was made, and so does the
output directory. -/
theorem follow_of_makeUtils {directory : String} {front : List (List Char)} {w made : Workspace}
    (hjoin : ∀ name : String, '/' ∉ name.toList →
      Text.splitAt '/' (Path.join directory name).toList = front ++ [name.toList])
    (h : run (makeUtils (host (deciding rule) format) (Layout.inDirectory directory)) w = (.ok (), made)) :
    Prepares (· <+: front ++ ["utils".toList])
        (makeUtils (host (deciding rule) format) (Layout.inDirectory directory)).run
      ∧ ∃ home, follow made.tree front = .ok home
        ∧ (∃ entries, made.tree.get? home = some (.directory entries))
        ∧ follow made.tree (front ++ ["utils".toList]) = .ok (home ++ ["utils"])
        ∧ ∃ entries, made.tree.get? (home ++ ["utils"]) = some (.directory entries) := by
  obtain ⟨utils, hparent, hutils⟩ :=
    Path.exists_parent?_eq (splitAt_setupParser hjoin) (by decide) (by decide)
  have hmake : makeUtils (host (deciding rule) format) (Layout.inDirectory directory)
      = createDirectory (host (deciding rule) format) utils := by
    rw [makeUtils, hparent]
  rw [hmake] at h ⊢
  have hlast : (Text.splitAt '/' utils.toList).getLast?.any List.isEmpty = false := by
    rw [hutils, List.getLast?_concat]
    decide
  refine ⟨prepares_createDirectory fun above habove => hutils ▸ habove, ?_⟩
  obtain ⟨entries, hfind⟩ := find_of_createDirectory hlast h
  obtain ⟨pieces, hpieces, hfind⟩ := except_bind_eq_ok.mp hfind
  obtain ⟨place, hplace, hfind⟩ := except_bind_eq_ok.mp hfind
  rw [FileTree.eq_splitAt_of_pieces hpieces, hutils] at hplace
  obtain ⟨home, hhome, hstep⟩ := FileTree.follow_concat.mp hplace
  obtain ⟨more, hmore⟩ := FileTree.step_eq_ok hstep
  obtain ⟨rfl, -⟩ := (FileTree.step_name hmore (by decide) (by decide)).mp hstep
  refine ⟨home, hhome, ⟨more, hmore⟩, hplace, entries, ?_⟩
  split at hfind
  · rename_i found hfound
    cases hfind
    exact hfound
  · cases hfind

/-- The directories of the files of a program are there once the directory of the setup file was made. -/
theorem ready_of_mem_drafts {directory : String} {front : List (List Char)} {code : Generated}
    {home : Position} {tree : FileTree} {d : Draft}
    (hjoin : ∀ name : String, '/' ∉ name.toList →
      Text.splitAt '/' (Path.join directory name).toList = front ++ [name.toList])
    (hhome : follow tree front = .ok home) (houter : ∃ entries, tree.get? home = some (.directory entries))
    (hutils : follow tree (front ++ ["utils".toList]) = .ok (home ++ ["utils"]))
    (hinner : ∃ entries, tree.get? (home ++ ["utils"]) = some (.directory entries))
    (hd : d ∈ drafts (Layout.inDirectory directory) code home) : d.Ready tree := by
  have hname : d.name ∈ ["parser.py", "__main__.py", "__init__.py"] := List.mem_map_of_mem hd
  obtain ⟨hslash, hisName, hshort⟩ := names_short d.name hname
  rw [drafts, List.mem_cons, List.mem_cons, List.mem_singleton] at hd
  refine ⟨?_, ?_, hisName, hshort⟩
  · rcases hd with rfl | rfl | rfl
    · exact ⟨_, splitAt_setupParser hjoin, hutils⟩
    · exact ⟨_, hjoin "__main__.py" hslash, hhome⟩
    · exact ⟨_, hjoin "__init__.py" hslash, hhome⟩
  · rcases hd with rfl | rfl | rfl
    · exact hinner
    · exact houter
    · exact houter

/-- **The files of a program** are filled in after the directory of the setup file has been made. -/
theorem filled_of_writeFiles {directory : String} {front : List (List Char)} {code : Generated}
    {w last : Workspace}
    (hjoin : ∀ name : String, '/' ∉ name.toList →
      Text.splitAt '/' (Path.join directory name).toList = front ++ [name.toList])
    (h : run (writeFiles (host (deciding rule) format) (Layout.inDirectory directory) code) w
      = (.ok (), last)) :
    ∃ home made, FileTree.Grows (· <+: front ++ ["utils".toList]) w.tree made.tree ∧ made.asked = w.asked
      ∧ follow made.tree (front ++ ["utils".toList]) = .ok (home ++ ["utils"])
      ∧ (∀ d ∈ drafts (Layout.inDirectory directory) code home, d.Ready made.tree)
      ∧ Filled rule (drafts (Layout.inDirectory directory) code home) made last := by
  obtain ⟨⟨⟩, made, hmade, hrest⟩ := Workspace.run_bind_eq_ok.mp h
  obtain ⟨⟨⟩, setup, hsetup, hrest⟩ := Workspace.run_bind_eq_ok.mp hrest
  obtain ⟨⟨⟩, entry, hentry, hmarker⟩ := Workspace.run_bind_eq_ok.mp hrest
  obtain ⟨hprepares, home, hhome, houter, hutils, hinner⟩ := follow_of_makeUtils hjoin hmade
  obtain ⟨hgrows, hasked⟩ := hprepares w
  have hrun : (StateT.run (makeUtils (host (deciding rule) format)
      (Layout.inDirectory directory)).run w).2 = made := congrArg Prod.snd hmade
  rw [hrun] at hgrows hasked
  have hready : ∀ d ∈ drafts (Layout.inDirectory directory) code home, d.Ready made.tree :=
    fun d hd => ready_of_mem_drafts hjoin hhome houter hutils hinner hd
  refine ⟨home, made, hgrows, hasked, hutils, hready, ?_⟩
  simp only [drafts, List.forall_mem_cons] at hready
  obtain ⟨hreadySetup, hreadyEntry, hreadyMarker, -⟩ := hready
  obtain ⟨_, hsetup⟩ := run_discard_eq_ok hsetup
  obtain ⟨hfitsSetup, rfl⟩ := run_createFile_deciding hreadySetup hsetup
  obtain ⟨_, hentry⟩ := run_discard_eq_ok hentry
  obtain ⟨hfitsEntry, rfl⟩ :=
    run_createFile_deciding (hreadyEntry.of_extends hfitsSetup.extends_fill) hentry
  obtain ⟨_, hmarker⟩ := run_discard_eq_ok hmarker
  obtain ⟨hfitsMarker, rfl⟩ := run_createFile_deciding
    ((hreadyMarker.of_extends hfitsSetup.extends_fill).of_extends hfitsEntry.extends_fill) hmarker
  exact .cons hfitsSetup (.cons hfitsEntry (.cons hfitsMarker (.nil _)))

/-! ## What is asked about -/

/-- Whether something is in the place of a file when the file is to be written, in a run from one tree to
another: something was there before, or the path of the file itself leads through it. -/
def taken (before after : FileTree) (path : String) : Bool :=
  (after.place? path).any fun place =>
    (before.get? place).isSome || (after.through path).contains place

/-- What is at the place of a file when its turn comes: directories were made before, and of those only
the ones that the path of the file leads through can be in its way. -/
theorem isSome_standing?_eq_taken {way : List (List Char) → Prop} {d : Draft} {w made last : Workspace}
    {changed : Position → Prop} (hgrows : FileTree.Grows way w.tree made.tree)
    (hextends : Extends changed made.tree last.tree) (hready : d.Ready made.tree)
    (hleads : Leads last.tree d.path d.directory d.name)
    (hway : ∀ front, way front → follow last.tree front = .ok d.place →
      front <+: (Text.splitAt '/' d.path.toList).dropLast) :
    (made.tree.standing? d.place).isSome = taken w.tree last.tree d.path := by
  rw [taken, hleads.place?_eq, Option.any_some, Bool.eq_iff_iff, Bool.or_eq_true, List.contains_iff_mem,
    FileTree.mem_through]
  constructor
  · intro hsome
    obtain ⟨found, hfound⟩ := Option.isSome_iff_exists.mp hsome
    have hbefore : ∀ {inner : Option String}, w.tree.standing? d.place = some inner →
        (w.tree.get? d.place).isSome = true := by
      intro inner hinner
      rw [← FileTree.isSome_standing?, hinner]
      rfl
    cases found with
    | some text => exact Or.inl (hbefore (hgrows.noFile hfound))
    | none =>
      rcases hgrows.onWay hfound with hdirectory | ⟨front, hfront, hfollow⟩
      · exact Or.inl (hbefore hdirectory)
      · have hlater := FileTree.follow_of_extends hextends hfollow
        exact Or.inr ⟨front, hway front hfront hlater, hlater⟩
  · rintro (hbefore | ⟨front, hfront, hfollow⟩)
    · rw [← FileTree.isSome_standing?] at hbefore
      obtain ⟨found, hfound⟩ := Option.isSome_iff_exists.mp hbefore
      cases found with
      | some text => exact Option.isSome_iff_exists.mpr ⟨_, hgrows.standing?_eq_file_iff.mpr hfound⟩
      | none => exact Option.isSome_iff_exists.mpr ⟨_, hgrows.standing?_of_directory hfound⟩
    · -- the path could be followed before, and it led to the same place
      obtain ⟨pieces, hpath, hpieces⟩ := hready.path
      rw [hpath, List.dropLast_concat] at hfront
      obtain ⟨here, hhere⟩ := FileTree.follow_of_prefix hfront hpieces
      obtain rfl : here = d.place :=
        Except.ok.inj ((FileTree.follow_of_extends hextends hhere).symm.trans hfollow)
      obtain ⟨found, hfound⟩ := FileTree.exists_of_follow hhere
      rw [FileTree.isSome_standing?, hfound]
      rfl

/-- The directories of the files: the output directory, and in it the one of the setup file. -/
theorem dropLast_of_mem_drafts {directory : String} {front : List (List Char)} {code : Generated}
    {home : Position} {d : Draft}
    (hjoin : ∀ name : String, '/' ∉ name.toList →
      Text.splitAt '/' (Path.join directory name).toList = front ++ [name.toList])
    (hd : d ∈ drafts (Layout.inDirectory directory) code home) :
    (Text.splitAt '/' d.path.toList).dropLast = front ++ ["utils".toList]
      ∨ (Text.splitAt '/' d.path.toList).dropLast = front ∧ d.place ≠ home ++ ["utils"] := by
  have hinner : ∀ name : String, '/' ∉ name.toList →
      (Text.splitAt '/' (Path.join directory name).toList).dropLast = front := by
    intro name hname
    rw [hjoin name hname, List.dropLast_concat]
  rw [drafts, List.mem_cons, List.mem_cons, List.mem_singleton] at hd
  rcases hd with rfl | rfl | rfl
  · refine Or.inl ?_
    rw [splitAt_setupParser hjoin, List.dropLast_concat]
  · exact Or.inr ⟨hinner "__main__.py" (by decide), by simp [Draft.place]⟩
  · exact Or.inr ⟨hinner "__init__.py" (by decide), by simp [Draft.place]⟩

/-- Directories that were made for the setup file are in the way of a file only if its path leads through
them. -/
theorem prefix_of_way {directory : String} {front above : List (List Char)} {code : Generated}
    {home : Position} {tree : FileTree} {d : Draft}
    (hjoin : ∀ name : String, '/' ∉ name.toList →
      Text.splitAt '/' (Path.join directory name).toList = front ++ [name.toList])
    (hutils : follow tree (front ++ ["utils".toList]) = .ok (home ++ ["utils"]))
    (hd : d ∈ drafts (Layout.inDirectory directory) code home)
    (habove : above <+: front ++ ["utils".toList]) (hfollow : follow tree above = .ok d.place) :
    above <+: (Text.splitAt '/' d.path.toList).dropLast := by
  rcases dropLast_of_mem_drafts hjoin hd with hdirectory | ⟨hdirectory, hplace⟩
  · rw [hdirectory]
    exact habove
  · rw [hdirectory]
    rcases List.prefix_concat_iff.mp habove with rfl | hfront
    · exact absurd (Except.ok.inj (hfollow.symm.trans hutils)) hplace
    · exact hfront

/-- **A path without steps upwards** does not lead through the place of its own file, so that only what was
there before is asked about. -/
theorem taken_of_straight {d : Draft} {before after : FileTree} {changed : Position → Prop}
    (hextends : Extends changed before after) (hleads : Leads after d.path d.directory d.name)
    (hstraight : Straight (Text.splitAt '/' d.path.toList).dropLast) :
    taken before after d.path = (Workspace.kindIn d.path before).isSome := by
  obtain ⟨front, hpieces, hfollow⟩ := hleads.pieces
  have hpath := FileTree.eq_splitAt_of_pieces hpieces
  rw [← hpath, List.dropLast_concat] at hstraight
  have hthrough : d.place ∉ after.through d.path := by
    rw [FileTree.mem_through, ← hpath, List.dropLast_concat]
    rintro ⟨above, habove, hplace⟩
    have hprefix := (FileTree.prefix_of_follow hstraight habove hplace hfollow).length_le
    rw [Draft.place, List.length_append, List.length_singleton] at hprefix
    omega
  have hplace : d.directory ++ [d.name] = d.place := rfl
  rw [taken, hleads.place?_eq, Option.any_some, hplace, Bool.eq_iff_iff, Bool.or_eq_true,
    List.contains_iff_mem, isSome_kindIn, Option.isSome_iff_exists]
  constructor
  · rintro (⟨found, hfound⟩ | hmem)
    · -- what is above something is a directory, so the path led there before
      have hdirectories : ∀ above, above <+: d.directory →
          ∃ entries, before.get? above = some (.directory entries) := by
        rintro above ⟨back, hback⟩
        rw [← hplace, ← hback, List.append_assoc] at hfound
        cases back with
        | nil => exact FileTree.isDirectory_above hfound
        | cons next rest => exact FileTree.isDirectory_above hfound
      have hleadsBefore : Leads before d.path d.directory d.name :=
        ⟨⟨front, hpieces, FileTree.follow_of_directories hstraight hfollow hdirectories⟩,
          hdirectories _ (List.prefix_refl _), hleads.isName, hleads.short⟩
      exact ⟨found, hleadsBefore.find_eq_ok.mpr hfound⟩
    · exact absurd hmem hthrough
  · rintro ⟨found, hfind⟩
    obtain ⟨pieces, hsame, hfind⟩ := except_bind_eq_ok.mp hfind
    obtain rfl := Except.ok.inj (hsame.symm.trans hpieces)
    obtain ⟨place, hbefore, hfind⟩ := except_bind_eq_ok.mp hfind
    obtain ⟨here, hhere, hstep⟩ :=
      FileTree.follow_concat.mp (FileTree.follow_of_extends hextends hbefore)
    obtain rfl := Except.ok.inj (hhere.symm.trans hfollow)
    obtain ⟨entries, hentries⟩ := hleads.isDirectory
    obtain ⟨rfl, -⟩ := (FileTree.step_name hentries hleads.isName hleads.short).mp hstep
    split at hfind
    · rename_i other hother
      exact Or.inl ⟨other, hother⟩
    · cases hfind

/-- The file at a place is the same in two trees, or there is none in either. -/
def SameFile (before after : FileTree) (place : Position) : Prop :=
  ∀ text, after.get? place = some (.file text) ↔ before.get? place = some (.file text)

/-- **What a gate keeps to**: from one workspace to another it was asked about each file that was there
already, in order; every file has its text, unless it was there already and the rule declined; and no other
file has changed. -/
structure Gated (rule : String → Bool) (files : List (String × String)) (w last : Workspace) : Prop where
  asked : last.asked = w.asked ++ (files.map Prod.fst).filter (taken w.tree last.tree)
  file : ∀ entry ∈ files, ∃ place, last.tree.place? entry.1 = some place
    ∧ if taken w.tree last.tree entry.1 && !rule entry.1 then SameFile w.tree last.tree place
      else last.tree.get? place = some (.file entry.2)
  others : ∀ place, (∀ entry ∈ files, last.tree.place? entry.1 ≠ some place) →
    SameFile w.tree last.tree place

theorem sameFile_of_standing? {way : List (List Char) → Prop} {w made last : FileTree} {place : Position}
    (hgrows : FileTree.Grows way w made) (h : last.standing? place = made.standing? place) :
    SameFile w last place := by
  intro text
  rw [← FileTree.standing?_eq_file, ← FileTree.standing?_eq_file, h]
  exact hgrows.standing?_eq_file_iff

/-- **Files that are filled in are gated** if nothing but directories was made before, and if what is then at
their places counts as taken. -/
theorem gated_of_filled {way : List (List Char) → Prop} {drafts : List Draft} {w made last : Workspace}
    (hgrows : FileTree.Grows way w.tree made.tree) (hasked : made.asked = w.asked)
    (hdistinct : (drafts.map Draft.place).Nodup) (hfilled : Filled rule drafts made last)
    (htaken : ∀ d ∈ drafts, (made.tree.standing? d.place).isSome = taken w.tree last.tree d.path) :
    Gated rule (drafts.map fun d => (d.path, d.text)) w last where
  asked := by
    rw [hfilled.asked hdistinct, hasked, List.map_map, List.filter_congr htaken, List.filter_map]
    rfl
  file := by
    intro entry hentry
    obtain ⟨d, hd, rfl⟩ := List.mem_map.mp hentry
    refine ⟨d.place, (hfilled.leads hd).place?_eq, ?_⟩
    have hplace := hfilled.standing?_of_mem hdistinct hd
    rw [htaken d hd] at hplace
    dsimp only
    split
    · rename_i hkept
      rw [if_pos hkept] at hplace
      exact sameFile_of_standing? hgrows hplace
    · rename_i hwritten
      rw [if_neg hwritten] at hplace
      exact FileTree.standing?_eq_file.mp hplace
  others := by
    intro place hother
    refine sameFile_of_standing? hgrows (hfilled.standing?_of_not_mem ?_)
    intro hmem
    obtain ⟨d, hd, rfl⟩ := List.mem_map.mp hmem
    exact hother _ (List.mem_map_of_mem hd) (hfilled.leads hd).place?_eq

/-- An output directory that is named without steps upwards gives files whose paths have none. -/
theorem straight_of_mem_drafts {directory : String} {front : List (List Char)} {code : Generated}
    {home : Position} {d : Draft} (hfront : front <+: Text.splitAt '/' directory.toList)
    (hjoin : ∀ name : String, '/' ∉ name.toList →
      Text.splitAt '/' (Path.join directory name).toList = front ++ [name.toList])
    (hd : d ∈ drafts (Layout.inDirectory directory) code home)
    (hparent : .parent ∉ Path.components directory) :
    Straight (Text.splitAt '/' d.path.toList).dropLast := by
  have hstraight : Straight (front ++ ["utils".toList]) := by
    intro piece hpiece hup
    rcases List.mem_append.mp hpiece with hmem | hmem
    · exact hparent (Path.parent_mem_components (hfront.subset hmem) hup)
    · rw [List.mem_singleton.mp hmem] at hup
      exact absurd hup (by decide)
  rcases dropLast_of_mem_drafts hjoin hd with hdirectory | ⟨hdirectory, -⟩
  · rw [hdirectory]
    exact hstraight
  · rw [hdirectory]
    exact hstraight.of_prefix (List.prefix_append _ _)

/-- **The files of a program are gated**, and only what was there before is asked about if the output
directory is named without steps upwards. -/
theorem gated_of_writeFiles {directory : String} {code : Generated} {w last : Workspace}
    (h : run (writeFiles (host (deciding rule) format) (Layout.inDirectory directory) code) w
      = (.ok (), last)) :
    Gated rule ((Layout.inDirectory directory).files code) w last
      ∧ (.parent ∉ Path.components directory → ∀ entry ∈ (Layout.inDirectory directory).files code,
        taken w.tree last.tree entry.1 = (Workspace.kindIn entry.1 w.tree).isSome) := by
  obtain ⟨front, hfront, hjoin⟩ := Path.exists_front_join directory
  obtain ⟨home, made, hgrows, hasked, hutils, hready, hfilled⟩ := filled_of_writeFiles hjoin h
  have hdistinct := nodup_drafts (Layout.inDirectory directory) code home
  have hfiles : (Layout.inDirectory directory).files code
      = (drafts (Layout.inDirectory directory) code home).map fun d => (d.path, d.text) := rfl
  have htaken : ∀ d ∈ drafts (Layout.inDirectory directory) code home,
      (made.tree.standing? d.place).isSome = taken w.tree last.tree d.path := by
    intro d hd
    have hlater := FileTree.follow_of_extends hfilled.extends_tree hutils
    exact isSome_standing?_eq_taken hgrows hfilled.extends_tree (hready d hd) (hfilled.leads hd)
      fun above habove hfollow => prefix_of_way hjoin hlater hd habove hfollow
  rw [hfiles]
  refine ⟨gated_of_filled hgrows hasked hdistinct hfilled htaken, ?_⟩
  intro hparent entry hentry
  obtain ⟨d, hd, rfl⟩ := List.mem_map.mp hentry
  have hextends := (hgrows.toExtends.mono fun _ hfalse => hfalse.elim).trans hfilled.extends_tree
  exact taken_of_straight hextends (hfilled.leads hd) (straight_of_mem_drafts hfront hjoin hd hparent)

/-! ## Runs -/

/-- Whether no run of a computation changes the tree or asks anybody. -/
def Silent {α : Type} (x : StateM Workspace α) : Prop :=
  ∀ w, (StateT.run x w).2.tree = w.tree ∧ (StateT.run x w).2.asked = w.asked

theorem closed_silent : Closed (m := StateM Workspace) fun _ x => Silent x where
  pure _ _ := ⟨rfl, rfl⟩
  bind hx hf w := ⟨(hf _ _).1.trans (hx w).1, (hf _ _).2.trans (hx w).2⟩

theorem silent_tell {confirm : String → StateM Workspace Bool} (notice : Notice) :
    Silent ((host confirm format).tell notice) := by
  intro w
  refine ⟨rfl, ?_⟩
  show (w.transcript ++ [Event.noticed notice]).filterMap _ = w.asked
  rw [List.filterMap_append]
  exact List.append_nil w.asked

theorem silent_read {confirm : String → StateM Workspace Bool} (path : String) :
    Silent ((host confirm format).readText path) :=
  fun _ => ⟨rfl, rfl⟩

/-- What a run has done that wrote the program of a collection to a directory, with a rule at the gate. -/
def WrittenThrough (rule : String → Bool) (configuration : Configuration) (collection : Collection)
    (directory : String) (layout : Layout) (w last : Workspace) : Prop :=
  layout = Layout.inDirectory directory
    ∧ ∃ code, (Synthesis.generate configuration.surroundings collection layout.setupParser).run.value
        = .ok code
      ∧ Gated rule (layout.files code) w last
      ∧ (.parent ∉ Path.components directory → ∀ entry ∈ layout.files code,
        taken w.tree last.tree entry.1 = (Workspace.kindIn entry.1 w.tree).isSome)

/-- What was done after a silent computation was done from its beginning. -/
theorem WrittenThrough.of_silent {α : Type} {configuration : Configuration} {collection : Collection}
    {directory : String} {layout : Layout} {x : ExceptT Fault (StateM Workspace) α}
    {outcome : Except Fault α} {w next last : Workspace} (hx : Silent x.run)
    (hrun : run x w = (outcome, next))
    (h : WrittenThrough rule configuration collection directory layout next last) :
    WrittenThrough rule configuration collection directory layout w last := by
  have hnext : next = (StateT.run x.run w).2 := (congrArg Prod.snd hrun).symm
  obtain ⟨htree, hasked⟩ := hx w
  rw [← hnext] at htree hasked
  obtain ⟨hlayout, code, hcode, hgated, hstraight⟩ := h
  rw [htree] at hstraight
  refine ⟨hlayout, code, hcode, ⟨?_, ?_, ?_⟩, hstraight⟩
  · rw [← hasked, ← htree]
    exact hgated.asked
  · rw [← htree]
    exact hgated.file
  · rw [← htree]
    exact hgated.others

/-- **A program is written through the gate.** -/
theorem writtenThrough_of_writeGenerated {configuration : Configuration} (hpretty : configuration.pretty = false)
    {collection : Collection} {directory : String} {layout : Layout} {w last : Workspace}
    (h : run (writeGenerated (host (deciding rule) format) configuration collection directory) w
      = (.ok layout, last)) :
    WrittenThrough rule configuration collection directory layout w last := by
  rw [writeGenerated_eq] at h
  obtain ⟨code, settled, hcode, hrest⟩ := Workspace.run_bind_eq_ok.mp h
  obtain ⟨⟨⟩, written, hwritten, hrest⟩ := Workspace.run_bind_eq_ok.mp hrest
  obtain ⟨⟨⟩, formatted, hformatted, hreturn⟩ := Workspace.run_bind_eq_ok.mp hrest
  cases hreturn
  have hformat : formatFiles (host (deciding rule) format) configuration (Layout.inDirectory directory)
      = pure () := by
    rw [formatFiles, hpretty]
    rfl
  rw [hformat] at hformatted
  cases hformatted
  obtain ⟨hgated, hstraight⟩ := gated_of_writeFiles hwritten
  exact WrittenThrough.of_silent (closed_silent.settle silent_tell _) hcode
    ⟨rfl, code, congrArg Prod.fst hcode, hgated, hstraight⟩

/-- **The runs that write a program keep to the gate**: each of the three files holds what was generated,
unless it was there already and the gate declined, and then it is as it was; the gate was asked once about
each file that was there already, in order; no other file has changed. What counts as there already is what
was there before the run, or what the path of the file leads through, and the latter takes steps upwards in
the output directory. -/
theorem runs_gated {configuration : Configuration} (hpretty : configuration.pretty = false)
    {held after : Collection} {w last : Workspace} {layout : Layout} {directory : String} :
    (∀ file : String,
        session (writeCode (host (deciding rule) format) configuration file directory) held w
          = ((.ok layout, after), last) →
        WrittenThrough rule configuration after directory layout w last)
      ∧ ∀ sources : List String,
        session (generateParser (host (deciding rule) format) configuration sources directory) held w
          = ((.ok layout, after), last) →
        WrittenThrough rule configuration after directory layout w last := by
  constructor
  · intro file h
    obtain ⟨collection, _, loaded, hfirst, hrest⟩ := session_bind_eq_ok.mp h
    obtain ⟨hload, -⟩ := session_lift_eq_ok.mp hfirst
    obtain ⟨⟨⟩, _, _, hset, hlast⟩ := session_bind_eq_ok.mp hrest
    cases hset
    obtain ⟨hwritten, rfl⟩ := session_lift_eq_ok.mp hlast
    exact WrittenThrough.of_silent (closed_silent.load silent_read file) hload
      (writtenThrough_of_writeGenerated hpretty hwritten)
  · intro sources h
    obtain ⟨collection, _, parsed, hparse, hrest⟩ := session_bind_eq_ok.mp h
    obtain ⟨rfl, extracted, hextract, hkeep⟩ := session_parseCode_eq_ok hparse
    cases hkeep
    obtain ⟨hwritten, rfl⟩ := session_lift_eq_ok.mp hrest
    exact WrittenThrough.of_silent (closed_silent.extractFiles configuration silent_read silent_tell sources)
      hextract (writtenThrough_of_writeGenerated hpretty hwritten)

/-- A workspace with a source, a kept collection and a program that was changed by hand. -/
def changedWorkspace : Workspace where
  tree := .directory [("job.py", .file plainSource),
    ("kept.json", .file "\x7b\"modules\": [\x7b\"name\": \"Job\", \"location\": \"job.py\"\x7d]\x7d"),
    ("cli", .directory [("__main__.py", .file "# mine\n"), ("__init__.py", .file "")])]

/-- The gate that lets nothing but package markers be replaced. -/
def markersOnly (path : String) : Bool := Path.fileName? path == some "__init__.py".toList

/-- The host with that gate. -/
abbrev guardedHost : Host (StateM Workspace) := host (deciding markersOnly) fun _ => pure ()

/-- What the run over the source leaves. -/
def regenerated (directory : String) (w : Workspace) : (Except Fault Layout × Collection) × Workspace :=
  session (generateParser guardedHost plainConfiguration ["job.py"] directory) {} w

/-- What the run over the kept collection leaves. -/
def rewritten (w : Workspace) : (Except Fault Layout × Collection) × Workspace :=
  session (writeCode guardedHost plainConfiguration "kept.json" "cli") {} w

/-- What was changed by hand is kept, and the gate was asked about both files that were there. -/
theorem runs_gated_changedWorkspace :
    plainConfiguration.pretty = false
      ∧ (regenerated "cli" changedWorkspace).1 = (.ok (Layout.inDirectory "cli"), plainJob)
      ∧ WrittenThrough markersOnly plainConfiguration plainJob "cli" (Layout.inDirectory "cli")
        changedWorkspace (regenerated "cli" changedWorkspace).2
      ∧ (rewritten changedWorkspace).1
        = (.ok (Layout.inDirectory "cli"), ⟨[{ name := "Job", location := "job.py" }]⟩)
      ∧ WrittenThrough markersOnly plainConfiguration ⟨[{ name := "Job", location := "job.py" }]⟩ "cli"
        (Layout.inDirectory "cli") changedWorkspace (rewritten changedWorkspace).2
      ∧ (regenerated "cli" changedWorkspace).2.asked = ["cli/__main__.py", "cli/__init__.py"]
      ∧ (regenerated "cli" changedWorkspace).2.tree.readText "cli/__main__.py" = .ok "# mine\n" := by
  have hregenerated : (regenerated "cli" changedWorkspace).1
      = (.ok (Layout.inDirectory "cli"), plainJob) := by decide +kernel
  have hrewritten : (rewritten changedWorkspace).1
      = (.ok (Layout.inDirectory "cli"), ⟨[{ name := "Job", location := "job.py" }]⟩) := by decide +kernel
  refine ⟨rfl, hregenerated, ?_, hrewritten, ?_, by decide +kernel, by decide +kernel⟩
  · exact (runs_gated rfl).2 ["job.py"] (eq_of_fst hregenerated)
  · exact (runs_gated rfl).1 "kept.json" (eq_of_fst hrewritten)

/-- A file that was not there before the run is asked about and not written, if the output directory leads
through its place: the run has made a directory there. -/
theorem runs_gated_through_file :
    (regenerated "a/__main__.py/.." (sourceWorkspace plainSource)).1
        = (.ok (Layout.inDirectory "a/__main__.py/.."), plainJob)
      ∧ Workspace.kindIn (Layout.inDirectory "a/__main__.py/..").entryPoint
        (sourceWorkspace plainSource).tree = none
      ∧ (sourceWorkspace plainSource).tree.get? ["a", "__main__.py"] = none
      ∧ (regenerated "a/__main__.py/.." (sourceWorkspace plainSource)).2.asked
        = [(Layout.inDirectory "a/__main__.py/..").entryPoint]
      ∧ (regenerated "a/__main__.py/.." (sourceWorkspace plainSource)).2.tree.readText
        (Layout.inDirectory "a/__main__.py/..").entryPoint = .error .isDirectory := by
  refine ⟨by decide +kernel, by decide +kernel, rfl, by decide +kernel, by decide +kernel⟩

end Workflow

end ClassCli
