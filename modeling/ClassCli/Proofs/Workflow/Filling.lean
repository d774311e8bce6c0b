import ClassCli.Proofs.Workflow.Directories

/-!
# Files that are filled in

A file whose directory is there is written in one step. If something is at its place already, whoever stands
at the gate is asked first, and the file stays as it is if the answer is no. Several files are filled in one
after the other; as long as their places differ each of them depends only on what was at its own place.

* **`Draft`**, **`fill`** — a file that is to be written, and what a gate with a rule makes of it.
* **`run_createFile_deciding`** — writing a file is filling it in.
* **`Filled`** — filling in one file after the other.
* **`Filled.standing?_of_mem`**, **`Filled.asked`** — what is there in the end, and who was asked about what.
-/

namespace ClassCli

open FileTree (Extends Leads Position follow)

namespace Workflow

open Host (onPath)
open Workspace (deciding host run)

variable {rule : String → Bool} {format : List String → StateM Workspace Unit}

/-! ## One file -/

/-- A file that is to be written: its path, the place that the path leads to, and its text. -/
structure Draft where
  path : String
  directory : Position
  name : String
  text : String

namespace Draft

/-- Where the file is. -/
def place (d : Draft) : Position := d.directory ++ [d.name]

/-- The directory of the file is there, and the path leads to the file in it. -/
structure Ready (d : Draft) (tree : FileTree) : Prop where
  path : ∃ front, Text.splitAt '/' d.path.toList = front ++ [d.name.toList]
    ∧ follow tree front = .ok d.directory
  isDirectory : ∃ entries, tree.get? d.directory = some (.directory entries)
  isName : Path.ofPiece d.name.toList = some (.normal d.name.toList)
  short : ¬FileTree.nameLimit < d.name.utf8ByteSize

variable {d : Draft} {tree later : FileTree} {changed : Position → Prop}

theorem Ready.of_extends (h : d.Ready tree) (hextends : Extends changed tree later) : d.Ready later where
  path := by
    obtain ⟨front, hpath, hfollow⟩ := h.path
    exact ⟨front, hpath, FileTree.follow_of_extends hextends hfollow⟩
  isDirectory := by
    obtain ⟨entries, hentries⟩ := h.isDirectory
    obtain ⟨more, hmore, -⟩ := hextends.directory hentries
    exact ⟨more, hmore⟩
  isName := h.isName
  short := h.short

theorem Ready.leads (h : d.Ready tree) {found : List (List Char)}
    (hpieces : FileTree.pieces d.path = .ok found) : Leads tree d.path d.directory d.name where
  pieces := by
    obtain ⟨front, hpath, hfollow⟩ := h.path
    rw [FileTree.eq_splitAt_of_pieces hpieces, hpath] at hpieces
    exact ⟨front, hpieces, hfollow⟩
  isDirectory := h.isDirectory
  isName := h.isName
  short := h.short

end Draft

/-- What becomes of a workspace when a file is written and a rule decides about those that are there. -/
def fill (rule : String → Bool) (w : Workspace) (d : Draft) : Workspace where
  tree :=
    if (w.tree.standing? d.place).isSome && !rule d.path then w.tree
    else w.tree.put d.place (.file d.text)
  input := w.input
  transcript :=
    if (w.tree.standing? d.place).isSome then w.transcript ++ [.asked d.path] else w.transcript

/-- The path of a file leads to its place, and a directory there is not replaced. -/
structure Fits (rule : String → Bool) (w : Workspace) (d : Draft) : Prop where
  leads : Leads w.tree d.path d.directory d.name
  declined : w.tree.standing? d.place = some none → rule d.path = false

theorem isSome_kindIn {path : String} {tree : FileTree} :
    (Workspace.kindIn path tree).isSome = true ↔ ∃ found, tree.find path = .ok found := by
  unfold Workspace.kindIn
  split
  · rename_i text htext
    simp [htext]
  · rename_i entries hentries
    simp [hentries]
  · rename_i fault hfault
    simp [hfault]

theorem pieces_of_find {path : String} {tree found : FileTree} (h : tree.find path = .ok found) :
    ∃ pieces, FileTree.pieces path = .ok pieces := by
  obtain ⟨pieces, hpieces, -⟩ := except_bind_eq_ok.mp h
  exact ⟨pieces, hpieces⟩

theorem run_mayWrite_deciding (path : String) (w : Workspace) :
    run (mayWrite (host (deciding rule) format) path) w
      = if (Workspace.kindIn path w.tree).isSome then
          (.ok (rule path), { w with transcript := w.transcript ++ [.asked path] })
        else (.ok true, w) := by
  rw [run_mayWrite]
  cases Workspace.kindIn path w.tree with
  | none => rfl
  | some kind => rfl

/-- Something is found at the end of a path exactly if something is at the place that the path leads to. -/
theorem isSome_kindIn_of_leads {d : Draft} {tree : FileTree} (h : Leads tree d.path d.directory d.name) :
    (Workspace.kindIn d.path tree).isSome = (tree.standing? d.place).isSome := by
  rw [Bool.eq_iff_iff, isSome_kindIn, FileTree.isSome_standing?, Option.isSome_iff_exists]
  exact exists_congr fun found => h.find_eq_ok

/-- With leave to write, a file whose directory is there is put in its place. -/
theorem put_of_writeText {d : Draft} {w last : Workspace} {written : Bool} (hready : d.Ready w.tree)
    (h : run (do
        makeParent (host (deciding rule) format) d.path
        onPath d.path ((host (deciding rule) format).writeText d.path d.text)
        return true) w = (.ok written, last)) :
    Leads w.tree d.path d.directory d.name ∧ w.tree.standing? d.place ≠ some none
      ∧ last = { w with tree := w.tree.put d.place (.file d.text) } := by
  obtain ⟨front, hpath, hfollow⟩ := hready.path
  have hparents : follow w.tree (Text.splitAt '/' d.path.toList).dropLast = .ok d.directory := by
    rw [hpath, List.dropLast_concat]
    exact hfollow
  obtain ⟨⟨⟩, between, hparent, hrest⟩ := Workspace.run_bind_eq_ok.mp h
  rw [run_makeParent_of_follow hparents hparent] at hrest
  obtain ⟨⟨⟩, final, hwrite, hreturn⟩ := Workspace.run_bind_eq_ok.mp hrest
  cases hreturn
  have hchange : StateT.run (Workspace.change (·.writeText d.path d.text)) w = (.ok (), last) :=
    run_onPath_eq_ok.mp hwrite
  rw [Workspace.run_change] at hchange
  split at hchange
  · rename_i later hlater
    cases hchange
    obtain ⟨place, hplace, -⟩ := except_bind_eq_ok.mp hlater
    obtain ⟨pieces, hpieces, -⟩ := except_bind_eq_ok.mp hplace
    have hleads := hready.leads hpieces
    obtain ⟨rfl, hfree⟩ := FileTree.writeText_of_leads hleads hlater
    exact ⟨hleads, hfree, rfl⟩
  · cases hchange

/-- **Writing a file is filling it in**, if its directory is there. -/
theorem run_createFile_deciding {d : Draft} {w last : Workspace} {written : Bool} (hready : d.Ready w.tree)
    (h : run (createFile (host (deciding rule) format) d.path d.text) w = (.ok written, last)) :
    Fits rule w d ∧ last = fill rule w d := by
  rw [createFile_eq] at h
  obtain ⟨may, next, hmay, h⟩ := Workspace.run_bind_eq_ok.mp h
  rw [run_mayWrite_deciding] at hmay
  cases hkind : (Workspace.kindIn d.path w.tree).isSome with
  | true =>
    obtain ⟨found, hfound⟩ := isSome_kindIn.mp hkind
    obtain ⟨pieces, hpieces⟩ := pieces_of_find hfound
    have hleads := hready.leads hpieces
    have hsome := (isSome_kindIn_of_leads hleads).symm.trans hkind
    rw [if_pos hkind] at hmay
    cases hmay
    cases hrule : rule d.path with
    | false =>
      rw [hrule] at h
      cases h
      refine ⟨⟨hleads, fun _ => hrule⟩, ?_⟩
      simp [fill, hsome, hrule]
    | true =>
      rw [hrule, if_pos rfl] at h
      obtain ⟨-, hfree, rfl⟩ :=
        put_of_writeText (w := { w with transcript := w.transcript ++ [.asked d.path] }) hready h
      refine ⟨⟨hleads, fun hdirectory => absurd hdirectory hfree⟩, ?_⟩
      simp [fill, hsome, hrule]
  | false =>
    rw [if_neg (Bool.eq_false_iff.mp hkind)] at hmay
    cases hmay
    rw [if_pos rfl] at h
    obtain ⟨hleads, hfree, rfl⟩ := put_of_writeText hready h
    have hnone := (isSome_kindIn_of_leads hleads).symm.trans hkind
    refine ⟨⟨hleads, fun hdirectory => absurd hdirectory hfree⟩, ?_⟩
    simp [fill, hnone]

theorem tree_fill (w : Workspace) (d : Draft) :
    (fill rule w d).tree = if (w.tree.standing? d.place).isSome && !rule d.path then w.tree
      else w.tree.put d.place (.file d.text) := rfl

theorem asked_fill (w : Workspace) (d : Draft) :
    (fill rule w d).asked = w.asked ++ if (w.tree.standing? d.place).isSome then [d.path] else [] := by
  have htranscript : (fill rule w d).transcript = if (w.tree.standing? d.place).isSome then
      w.transcript ++ [.asked d.path] else w.transcript := rfl
  rw [Workspace.asked, htranscript]
  split
  · rw [List.filterMap_append]
    rfl
  · rw [List.append_nil]
    rfl

namespace Fits

variable {w : Workspace} {d : Draft}

/-- What was declined stays; otherwise there is no directory at the place. -/
theorem kept_or_free (h : Fits rule w d) :
    (fill rule w d).tree = w.tree ∧ ((w.tree.standing? d.place).isSome && !rule d.path) = true
      ∨ (fill rule w d).tree = w.tree.put d.place (.file d.text) ∧ w.tree.standing? d.place ≠ some none
        ∧ ((w.tree.standing? d.place).isSome && !rule d.path) = false := by
  rw [tree_fill]
  cases hkept : (w.tree.standing? d.place).isSome && !rule d.path with
  | true => exact Or.inl ⟨rfl, rfl⟩
  | false =>
    refine Or.inr ⟨rfl, fun hdirectory => ?_, rfl⟩
    rw [hdirectory, h.declined hdirectory] at hkept
    cases hkept

theorem standing?_fill_of_ne (h : Fits rule w d) {place : Position} (hne : place ≠ d.place) :
    (fill rule w d).tree.standing? place = w.tree.standing? place := by
  obtain ⟨entries, hentries⟩ := h.leads.isDirectory
  rcases h.kept_or_free with ⟨htree, -⟩ | ⟨htree, hfree, -⟩
  · rw [htree]
  · rw [htree, Draft.place, FileTree.standing?_put hentries hfree (FileTree.get?_file_cons d.text)]
    exact if_neg hne

theorem standing?_fill_self (h : Fits rule w d) :
    (fill rule w d).tree.standing? d.place
      = if (w.tree.standing? d.place).isSome && !rule d.path then w.tree.standing? d.place
        else some (some d.text) := by
  obtain ⟨entries, hentries⟩ := h.leads.isDirectory
  rcases h.kept_or_free with ⟨htree, hkept⟩ | ⟨htree, hfree, hwritten⟩
  · rw [htree, if_pos hkept]
  · rw [htree, hwritten, if_neg Bool.false_ne_true, Draft.place,
      FileTree.standing?_put hentries hfree (FileTree.get?_file_cons d.text), if_pos rfl]
    rfl

theorem extends_fill (h : Fits rule w d) : Extends (· = d.place) w.tree (fill rule w d).tree := by
  rcases h.kept_or_free with ⟨htree, -⟩ | ⟨htree, hfree, -⟩
  · rw [htree]
    exact Extends.refl _
  · rw [htree]
    exact FileTree.extends_put
      (fun entries hentries => hfree (FileTree.standing?_eq_directory.mpr ⟨entries, hentries⟩)) _

end Fits

/-! ## One file after the other -/

/-- Files that fit are filled in one after the other. -/
inductive Filled (rule : String → Bool) : List Draft → Workspace → Workspace → Prop
  | nil (w : Workspace) : Filled rule [] w w
  | cons {w last : Workspace} {d : Draft} {rest : List Draft} (fits : Fits rule w d)
      (filled : Filled rule rest (fill rule w d) last) : Filled rule (d :: rest) w last

namespace Filled

variable {drafts : List Draft} {w last : Workspace}

theorem extends_tree (h : Filled rule drafts w last) :
    Extends (· ∈ drafts.map Draft.place) w.tree last.tree := by
  induction h with
  | nil w => exact Extends.refl _
  | cons fits filled ih =>
    refine (fits.extends_fill.mono ?_).trans (ih.mono ?_)
    · rintro place rfl
      exact List.mem_cons_self
    · intro place hplace
      exact List.mem_cons_of_mem _ hplace

/-- What is at no place of a file stays. -/
theorem standing?_of_not_mem (h : Filled rule drafts w last) {place : Position}
    (hplace : place ∉ drafts.map Draft.place) : last.tree.standing? place = w.tree.standing? place := by
  induction h with
  | nil w => rfl
  | cons fits filled ih =>
    rw [List.map_cons, List.mem_cons, not_or] at hplace
    rw [ih hplace.2, fits.standing?_fill_of_ne hplace.1]

/-- **At the place of a file** its text is in the end, unless something was there and was not to be
replaced. -/
theorem standing?_of_mem (h : Filled rule drafts w last) (hdistinct : (drafts.map Draft.place).Nodup)
    {d : Draft} (hd : d ∈ drafts) :
    last.tree.standing? d.place
      = if (w.tree.standing? d.place).isSome && !rule d.path then w.tree.standing? d.place
        else some (some d.text) := by
  induction h with
  | nil w => exact absurd hd List.not_mem_nil
  | @cons w last first rest fits filled ih =>
    rw [List.map_cons, List.nodup_cons] at hdistinct
    rcases List.mem_cons.mp hd with rfl | hrest
    · rw [filled.standing?_of_not_mem hdistinct.1, fits.standing?_fill_self]
    · have hne : d.place ≠ first.place := fun heq =>
        hdistinct.1 (heq ▸ List.mem_map_of_mem hrest)
      rw [ih hdistinct.2 hrest, fits.standing?_fill_of_ne hne]

/-- **Who is asked about what**: about each file that is there, in order. -/
theorem asked (h : Filled rule drafts w last) (hdistinct : (drafts.map Draft.place).Nodup) :
    last.asked = w.asked
      ++ (drafts.filter fun d => (w.tree.standing? d.place).isSome).map Draft.path := by
  induction h with
  | nil w => exact (List.append_nil _).symm
  | @cons w last first rest fits filled ih =>
    rw [List.map_cons, List.nodup_cons] at hdistinct
    have hsame : (rest.filter fun d => ((fill rule w first).tree.standing? d.place).isSome)
        = rest.filter fun d => (w.tree.standing? d.place).isSome := by
      refine List.filter_congr fun d hd => ?_
      have hne : d.place ≠ first.place := fun heq => hdistinct.1 (heq ▸ List.mem_map_of_mem hd)
      rw [fits.standing?_fill_of_ne hne]
    rw [ih hdistinct.2, asked_fill, hsame, List.filter_cons, List.append_assoc]
    split
    · rfl
    · rfl

theorem leads (h : Filled rule drafts w last) {d : Draft} (hd : d ∈ drafts) :
    Leads last.tree d.path d.directory d.name := by
  induction h with
  | nil w => exact absurd hd List.not_mem_nil
  | cons fits filled ih =>
    rcases List.mem_cons.mp hd with rfl | hrest
    · exact (fits.leads.of_extends fits.extends_fill).of_extends filled.extends_tree
    · exact ih hrest

end Filled

end Workflow

end ClassCli
