import ClassCli.Proofs.FileTree.Changes
import ClassCli.Proofs.Workflow.Files

/-!
# Directories that are made

Before a file is written the directories that it is in are made. When that has gone well the path of the
directory leads to one; nothing has come to the tree but directories that the path leads through, nobody has
been asked, and nothing has changed at all if the directory was there.

* **`Prepares`** — computations that make directories on certain ways, and ask nobody.
* **`prepares_createDirectory`** — making a directory is such a computation.
* **`find_of_createDirectory`** — the path of a directory that was made leads to one.
* **`run_makeParent_of_follow`** — nothing is made if it is there.
-/

namespace ClassCli

/-- The paths that somebody was asked about, in order. -/
def Workspace.asked (w : Workspace) : List String :=
  w.transcript.filterMap fun
    | .asked path => some path
    | _ => none

namespace Workflow

open FileTree (Grows Position follow)
open Workspace (host run)

variable {confirm : String → StateM Workspace Bool} {format : List String → StateM Workspace Unit}
  {way : List (List Char) → Prop} {α : Type}

/-! ## Computations that make directories -/

/-- Whether every run of a computation adds directories on certain ways, changes nothing else in the tree
and asks nobody. -/
def Prepares (way : List (List Char) → Prop) (x : StateM Workspace α) : Prop :=
  ∀ w, Grows way w.tree (StateT.run x w).2.tree ∧ (StateT.run x w).2.asked = w.asked

theorem closed_prepares : Closed (m := StateM Workspace) fun _ x => Prepares way x where
  pure _ _ := ⟨Grows.refl _, rfl⟩
  bind hx hf w := ⟨(hx w).1.trans (hf _ _).1, (hf _ _).2.trans (hx w).2⟩

theorem prepares_look (f : FileTree → α) : Prepares way (Workspace.look f) :=
  fun _ => ⟨Grows.refl _, rfl⟩

theorem run_makeDirectory (path : String) (w : Workspace) :
    StateT.run ((host confirm format).makeDirectory path) w = match w.tree.makeDirectory path with
      | .ok tree => (.ok (), { w with tree := tree })
      | .error fault => (.error fault, w) :=
  Workspace.run_change (·.makeDirectory path) w

theorem prepares_makeDirectory {path : String}
    (hway : ∀ front, front <+: Text.splitAt '/' path.toList → way front) :
    Prepares way ((host confirm format).makeDirectory path) := by
  intro w
  rw [run_makeDirectory]
  cases hmake : w.tree.makeDirectory path with
  | ok later => exact ⟨FileTree.grows_makeDirectory hmake hway, rfl⟩
  | error fault => exact ⟨Grows.refl _, rfl⟩

/-- **Making a directory** adds directories that its path leads through. -/
theorem prepares_createDirectory {path : String}
    (hway : ∀ front, front <+: Text.splitAt '/' path.toList → way front) :
    Prepares way (createDirectory (host confirm format) path).run := by
  refine closed_prepares.createDirectory (fun _ => prepares_look _) fun above habove => ?_
  rcases Path.splitAt_of_mem_lineage habove with rfl | hprefix
  · intro w
    exact ⟨Grows.refl _, rfl⟩
  · exact prepares_makeDirectory fun front hfront => hway front (hfront.trans hprefix)

/-! ## What is there afterwards -/

theorem run_orPresent (path : String) (fault : FileFault) (w : Workspace) :
    StateT.run (orPresent (host confirm format) path (.error fault)) w
      = (if Workspace.kindIn path w.tree == some .directory then .ok () else .error fault, w) := by
  have hpresent : StateT.run (orPresent (host confirm format) path (.error fault)) w
      = StateT.run (if Workspace.kindIn path w.tree == some .directory then pure (.ok ())
          else pure (.error fault) : StateM Workspace (Except FileFault Unit)) w := rfl
  rw [hpresent]
  split
  · rfl
  · rfl

theorem find_of_kindIn {path : String} {tree : FileTree}
    (h : Workspace.kindIn path tree = some .directory) :
    ∃ entries, tree.find path = .ok (.directory entries) := by
  unfold Workspace.kindIn at h
  split at h
  · cases h
  · rename_i entries hentries
    exact ⟨entries, hentries⟩
  · cases h

/-- The path of a directory that was made leads to it, unless it ends in a slash. -/
theorem find_of_makeDirectory {path : String} {tree later : FileTree}
    (h : tree.makeDirectory path = .ok later)
    (hslash : (Text.splitAt '/' path.toList).getLast?.any List.isEmpty = false) :
    ∃ entries, later.find path = .ok (.directory entries) := by
  have hextends : FileTree.Extends (fun _ => False) tree later := FileTree.extends_makeDirectory h
  obtain ⟨place, hplace, h⟩ := except_bind_eq_ok.mp h
  split at h
  · rename_i name hname
    dsimp only at h
    split at h
    · cases h
    · cases h
      obtain ⟨pieces, front, hpieces, -, hends, -, -, ⟨entries, hentries⟩, -⟩ :=
        FileTree.exists_front_of_target hplace hname
      rw [FileTree.eq_splitAt_of_pieces hpieces, hslash] at hends
      have hleads := (FileTree.target_eq_ok hplace hname).2 hends
      exact ⟨[], (hleads.of_extends hextends).find_eq_ok.mpr (FileTree.get?_put_self hentries name _)⟩
  · cases h

/-- Making the first of several directories: if the one that it is in is missing, that one is made and the
first is tried again. -/
theorem run_makeLineage_cons (path : String) (above : List String) (w : Workspace) :
    StateT.run (makeLineage (host confirm format) (path :: above)) w
      = match w.tree.makeDirectory path with
        | .ok tree => (.ok (), { w with tree := tree })
        | .error .notFound =>
          match StateT.run (makeLineage (host confirm format) above) w with
          | (.ok (), v) => StateT.run
              ((host confirm format).makeDirectory path >>= orPresent (host confirm format) path) v
          | (.error fault, v) => (.error fault, v)
        | .error fault => StateT.run (orPresent (host confirm format) path (.error fault)) w := by
  rw [makeLineage, StateT.run_bind, run_makeDirectory]
  cases w.tree.makeDirectory path with
  | ok later => rfl
  | error fault =>
    cases fault with
    | notFound =>
      show StateT.run (makeLineage (host confirm format) above >>= _) w = _
      rw [StateT.run_bind]
      rcases StateT.run (makeLineage (host confirm format) above) w with ⟨outcome, v⟩
      cases outcome with
      | ok value => rfl
      | error fault => rfl
    | _ => rfl

/-- What is taken for made although it could not be made is a directory. -/
theorem find_of_orPresent {path : String} {w last : Workspace} {fault : FileFault}
    (h : StateT.run (orPresent (host confirm format) path (.error fault)) w = (.ok (), last)) :
    ∃ entries, last.tree.find path = .ok (.directory entries) := by
  rw [run_orPresent] at h
  obtain ⟨hkind, rfl⟩ := Prod.mk.inj h
  split at hkind
  · rename_i hdirectory
    exact find_of_kindIn (eq_of_beq hdirectory)
  · cases hkind

/-- An attempt to make a directory that succeeds leaves one. -/
theorem find_of_attempt {path : String} {w last : Workspace}
    (hslash : (Text.splitAt '/' path.toList).getLast?.any List.isEmpty = false)
    (h : StateT.run ((host confirm format).makeDirectory path >>= orPresent (host confirm format) path) w
      = (.ok (), last)) :
    ∃ entries, last.tree.find path = .ok (.directory entries) := by
  rw [StateT.run_bind, run_makeDirectory] at h
  cases hmake : w.tree.makeDirectory path with
  | ok later =>
    rw [hmake] at h
    cases h
    exact find_of_makeDirectory hmake hslash
  | error fault =>
    rw [hmake] at h
    exact find_of_orPresent h

/-- **The path of a directory that was made leads to one.** -/
theorem find_of_createDirectory {path : String} {w last : Workspace}
    (hslash : (Text.splitAt '/' path.toList).getLast?.any List.isEmpty = false)
    (h : run (createDirectory (host confirm format) path) w = (.ok (), last)) :
    ∃ entries, last.tree.find path = .ok (.directory entries) := by
  have hne : path ≠ "" := by
    rintro rfl
    exact absurd hslash (by decide)
  obtain ⟨above, habove⟩ := Path.lineage_eq_cons hne
  have hlineage : StateT.run (makeLineage (host confirm format) (path :: above)) w = (.ok (), last) := by
    rw [← habove]
    exact run_onPath_eq_ok.mp h
  -- whatever was done before, the last attempt made the directory or found it
  rw [run_makeLineage_cons] at hlineage
  split at hlineage
  · rename_i later hmake
    cases hlineage
    exact find_of_makeDirectory hmake hslash
  · split at hlineage
    · exact find_of_attempt hslash hlineage
    · cases hlineage
  · exact find_of_orPresent hlineage

/-- Nothing is made if the directory cannot be made, and not because the one that it is in is missing. -/
theorem run_createDirectory_of_error {path : String} {w last : Workspace} {fault : FileFault}
    {outcome : Except Fault Unit} (hne : path ≠ "") (hfault : w.tree.makeDirectory path = .error fault)
    (hfound : fault ≠ .notFound)
    (h : run (createDirectory (host confirm format) path) w = (outcome, last)) : last = w := by
  obtain ⟨above, habove⟩ := Path.lineage_eq_cons hne
  have hlineage : last = (StateT.run (makeLineage (host confirm format) (path :: above)) w).2 := by
    rw [← habove]
    exact (congrArg Prod.snd h).symm
  rw [hlineage, run_makeLineage_cons, hfault]
  cases fault with
  | notFound => exact absurd rfl hfound
  | _ => exact congrArg Prod.snd (run_orPresent path _ w)

/-- **Nothing is made of a directory that is there.** -/
theorem run_makeParent_of_follow {path : String} {w last : Workspace} {place : Position}
    {outcome : Except Fault Unit}
    (hfollow : follow w.tree (Text.splitAt '/' path.toList).dropLast = .ok place)
    (h : run (makeParent (host confirm format) path) w = (outcome, last)) : last = w := by
  unfold makeParent at h
  split at h
  · rename_i directory hdirectory
    split at h
    · exact (congrArg Prod.snd h).symm
    · rename_i hempty
      have hne : directory ≠ "" := fun heq => hempty (String.isEmpty_iff.mpr heq)
      rcases Path.splitAt_of_parent?_eq hdirectory with heq | rfl | hprefix
      · exact absurd heq hne
      · exact run_createDirectory_of_error hne (FileTree.makeDirectory_root _) FileFault.noConfusion h
      · obtain ⟨here, hhere⟩ := FileTree.follow_of_prefix hprefix hfollow
        obtain ⟨fault, hfault, hfound⟩ := FileTree.makeDirectory_of_follow hhere hne
        exact run_createDirectory_of_error hne hfault hfound h
  · exact (congrArg Prod.snd h).symm

end Workflow

end ClassCli
