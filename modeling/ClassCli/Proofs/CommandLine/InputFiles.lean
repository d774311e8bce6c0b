import Mathlib.Data.List.Pairwise
import ClassCli.CommandLine.Inputs
import ClassCli.Proofs.Attempt
import ClassCli.Proofs.FileTree
import ClassCli.Workspace

/-!
# Files of several inputs

Every input stands for files: itself, the source files in a directory, or what fits a pattern. The files come input by
input, those of one input in ascending order, and a file is left out if a path with the same components is there
already. So a file comes twice exactly if inputs find it under paths with different components.

* **`Matches`** — the files that an input stands for.
* **`Contribution`**, **`Collects`** — what each input adds to the files of those before it.
* **`expand_collects`** — the files of several inputs.
* **`expand_repeats`** — a file under two paths.
-/

namespace ClassCli

open FileTree (SameFile)

/-- The host that answers questions about a tree and does nothing. -/
def FileTree.reader (tree : FileTree) : Host Id where
  kind? path := Workspace.kindIn path tree
  readText path := tree.readText path
  writeText _ _ := .ok ()
  makeDirectory _ := .ok ()
  names path := tree.names path
  inside path := Workspace.insideOf path tree
  confirm _ := .ok false
  format _ := ()
  tell _ := ()
  print _ := ()

/-! ## Questions about a workspace -/

section Questions

variable {confirm : String → StateM Workspace Bool} {format : List String → StateM Workspace Unit} {w : Workspace}

theorem run_hasFile (path : String) :
    StateT.run ((Workspace.host confirm format).hasFile path) w = ((w.tree.reader.hasFile path).run, w) := rfl

theorem run_hasDirectory (path : String) :
    StateT.run ((Workspace.host confirm format).hasDirectory path) w = ((w.tree.reader.hasDirectory path).run, w) := rfl

namespace Glob

variable {α β : Type}

theorem run_keepM {test : α → StateM Workspace Bool} {answer : α → Id Bool}
    (h : ∀ x, StateT.run (test x) w = ((answer x).run, w)) (xs : List α) :
    StateT.run (keepM test xs) w = ((keepM answer xs).run, w) := by
  induction xs with
  | nil => rfl
  | cons x xs ih =>
    rw [keepM, keepM, StateT.run_bind, h x]
    show StateT.run (keepM test xs >>= _) w = _
    rw [StateT.run_bind, ih]
    rfl

theorem run_gather {f : α → StateM Workspace (List β)} {answer : α → Id (List β)}
    (h : ∀ x, StateT.run (f x) w = ((answer x).run, w)) (xs : List α) :
    StateT.run (gather f xs) w = ((gather answer xs).run, w) := by
  induction xs with
  | nil => rfl
  | cons x xs ih =>
    rw [gather, gather, StateT.run_bind, h x]
    show StateT.run (gather f xs >>= _) w = _
    rw [StateT.run_bind, ih]
    rfl

theorem run_entriesIn (pattern : Pattern) (directory : String) :
    StateT.run (entriesIn (Workspace.host confirm format) pattern directory) w
      = ((entriesIn w.tree.reader pattern directory).run, w) := rfl

theorem run_entryNamed (name directory : String) :
    StateT.run (entryNamed (Workspace.host confirm format) name directory) w
      = ((entryNamed w.tree.reader name directory).run, w) := by
  unfold entryNamed
  split
  · rfl
  · rfl

/-- **A search only asks questions.** -/
theorem run_search (deep : Bool) (patterns : List Pattern) (path : String) :
    StateT.run (search (Workspace.host confirm format) deep patterns path) w
      = ((search w.tree.reader deep patterns path).run, w) := by
  induction patterns generalizing deep path with
  | nil =>
    cases deep with
    | false => rfl
    | true =>
      rw [search, search]
      exact run_keepM run_hasDirectory _
  | cons pattern rest ih =>
    rw [search, search]
    split
    · exact ih true path
    · cases deep with
      | true => exact run_gather (ih false) _
      | false =>
        cases hplain : pattern.plain? with
        | some name =>
          show StateT.run (entryNamed (Workspace.host confirm format) (String.ofList name) path >>= _) w = _
          rw [StateT.run_bind, run_entryNamed]
          exact run_gather (ih false) _
        | none =>
          show StateT.run (entriesIn (Workspace.host confirm format) pattern path >>= _) w = _
          rw [StateT.run_bind, run_entriesIn]
          exact run_gather (ih false) _

theorem run_paths (glob : Glob) :
    StateT.run (glob.paths (Workspace.host confirm format)) w = ((glob.paths w.tree.reader).run, w) := by
  rw [paths, paths, StateT.run_bind, run_search]
  show StateT.run (if glob.directoriesOnly then _ else _ : StateM Workspace (List String)) w = _
  split
  · exact run_keepM run_hasDirectory _
  · rfl

/-- What is kept of a list. -/
theorem mem_keepM {test : α → Id Bool} {x : α} {xs : List α} :
    x ∈ (keepM test xs).run ↔ x ∈ xs ∧ (test x).run = true := by
  induction xs with
  | nil => simp [keepM]
  | cons y ys ih =>
    have hcons : (keepM test (y :: ys)).run
        = if (test y).run then y :: (keepM test ys).run else (keepM test ys).run := rfl
    rw [hcons]
    split
    · rename_i hkeep
      rw [List.mem_cons, List.mem_cons, ih]
      constructor
      · rintro (rfl | ⟨hx, htest⟩)
        · exact ⟨Or.inl rfl, hkeep⟩
        · exact ⟨Or.inr hx, htest⟩
      · rintro ⟨rfl | hx, htest⟩
        · exact Or.inl rfl
        · exact Or.inr ⟨hx, htest⟩
    · rename_i hdrop
      rw [List.mem_cons, ih]
      constructor
      · exact fun ⟨hx, htest⟩ => ⟨Or.inr hx, htest⟩
      · rintro ⟨rfl | hx, htest⟩
        · exact absurd htest hdrop
        · exact ⟨hx, htest⟩

end Glob

end Questions

namespace CommandLine

variable {tree : FileTree} {input path : String} {inputs earlier files found : List String}
  {confirm : String → StateM Workspace Bool} {format : List String → StateM Workspace Unit} {w last : Workspace}

/-! ## The files of one input -/

/-- **The files that an input stands for**: a file for itself, a directory for the source files in it, and any other
text, if it is a pattern, for the files that the search for the pattern finds. -/
inductive Matches (tree : FileTree) : String → String → Prop
  | file {input : String} : tree.hasFile input = true → Matches tree input input
  | source {input name : String} : Workspace.kindIn input tree = some .directory → name ∈ tree.names input →
      Path.extension? (Path.join input name) = some sourceExtension → tree.hasFile (Path.join input name) = true →
      Matches tree input (Path.join input name)
  | fitting {input path : String} {glob : Glob} : Workspace.kindIn input tree = none → Glob.ofText input = .ok glob →
      path ∈ (glob.paths tree.reader).run → tree.hasFile path = true → Matches tree input path

theorem kindIn_eq_file : Workspace.kindIn path tree = some .file ↔ tree.hasFile path = true := by
  unfold Workspace.kindIn FileTree.hasFile
  cases tree.find path with
  | ok found => cases found <;> simp
  | error fault => simp

theorem hasFile_reader : (tree.reader.hasFile path).run = tree.hasFile path := by
  rw [Bool.eq_iff_iff, ← kindIn_eq_file]
  exact beq_iff_eq

theorem Matches.hasFile (h : Matches tree input path) : tree.hasFile path = true := by
  cases h with
  | file hfile => exact hfile
  | source _ _ _ hfile => exact hfile
  | fitting _ _ _ hfile => exact hfile

/-- The files of one input, or why it has none. -/
def filesIn (tree : FileTree) (input : String) : Except Failure (List String) :=
  match Workspace.kindIn input tree with
  | some .file => .ok [input]
  | some .directory => .ok (sourcesIn tree.reader input).run
  | none =>
    match Glob.ofText input with
    | .ok glob => .ok (filesFitting tree.reader glob).run
    | .error fault => .error (.invalidPattern input fault)

theorem run_sourcesIn (directory : String) :
    StateT.run (sourcesIn (Workspace.host confirm format) directory) w
      = ((sourcesIn w.tree.reader directory).run, w) :=
  Glob.run_keepM run_hasFile _

theorem run_filesFitting (glob : Glob) :
    StateT.run (filesFitting (Workspace.host confirm format) glob) w = ((filesFitting w.tree.reader glob).run, w) := by
  rw [filesFitting, StateT.run_bind, Glob.run_paths]
  exact Glob.run_keepM run_hasFile _

/-- **The files of one input** are found by questions only. -/
theorem run_filesOf (input : String) :
    StateT.run (filesOf (Workspace.host confirm format) input).run w = (filesIn w.tree input, w) := by
  have hlift (x : StateM Workspace (List String)) :
      StateT.run (ExceptT.lift x : ExceptT Failure (StateM Workspace) (List String)).run w
        = (.ok (StateT.run x w).1, (StateT.run x w).2) := rfl
  have hkind : StateT.run (filesOf (Workspace.host confirm format) input).run w
      = StateT.run (match Workspace.kindIn input w.tree with
        | some .file => return [input]
        | some .directory => ExceptT.lift (sourcesIn (Workspace.host confirm format) input)
        | none => match Glob.ofText input with
          | .ok glob => ExceptT.lift (filesFitting (Workspace.host confirm format) glob)
          | .error fault => throw (.invalidPattern input fault) :
            ExceptT Failure (StateM Workspace) (List String)).run w := rfl
  rw [hkind, filesIn]
  cases Workspace.kindIn input w.tree with
  | some kind =>
    cases kind with
    | file => rfl
    | directory => rw [hlift, run_sourcesIn]
  | none =>
    cases Glob.ofText input with
    | ok glob => rw [hlift, run_filesFitting]
    | error fault => rfl

theorem mem_sourcesIn {directory : String} :
    path ∈ (sourcesIn tree.reader directory).run ↔ ∃ name ∈ tree.names directory, path = Path.join directory name
      ∧ Path.extension? path = some sourceExtension ∧ tree.hasFile path = true := by
  have hsources : (sourcesIn tree.reader directory).run
      = (Glob.keepM tree.reader.hasFile (((tree.names directory).map (Path.join directory)).filter fun path =>
        Path.extension? path == some sourceExtension)).run := rfl
  rw [hsources, Glob.mem_keepM, hasFile_reader, List.mem_filter, List.mem_map, beq_iff_eq]
  constructor
  · rintro ⟨⟨⟨name, hname, rfl⟩, hextension⟩, hfile⟩
    exact ⟨name, hname, rfl, hextension, hfile⟩
  · rintro ⟨name, hname, rfl, hextension, hfile⟩
    exact ⟨⟨⟨name, hname, rfl⟩, hextension⟩, hfile⟩

theorem mem_filesFitting {glob : Glob} :
    path ∈ (filesFitting tree.reader glob).run ↔ path ∈ (glob.paths tree.reader).run ∧ tree.hasFile path = true := by
  have hfitting : (filesFitting tree.reader glob).run
      = (Glob.keepM tree.reader.hasFile (glob.paths tree.reader).run).run := rfl
  rw [hfitting, Glob.mem_keepM, hasFile_reader]

/-- **What is found** are the files that the input stands for. -/
theorem mem_of_filesIn (h : filesIn tree input = .ok found) : path ∈ found ↔ Matches tree input path := by
  unfold filesIn at h
  split at h
  · rename_i hkind
    cases h
    rw [List.mem_singleton]
    constructor
    · rintro rfl
      exact .file (kindIn_eq_file.mp hkind)
    · intro hmatches
      cases hmatches with
      | file => rfl
      | source hdirectory => cases hkind.symm.trans hdirectory
      | fitting hnone => cases hkind.symm.trans hnone
  · rename_i hkind
    cases h
    rw [mem_sourcesIn]
    constructor
    · rintro ⟨name, hname, rfl, hextension, hfile⟩
      exact .source hkind hname hextension hfile
    · intro hmatches
      cases hmatches with
      | file hfile => cases hkind.symm.trans (kindIn_eq_file.mpr hfile)
      | source _ hname hextension hfile => exact ⟨_, hname, rfl, hextension, hfile⟩
      | fitting hnone => cases hkind.symm.trans hnone
  · rename_i hkind
    split at h
    · rename_i glob hglob
      cases h
      rw [mem_filesFitting]
      constructor
      · rintro ⟨hpath, hfile⟩
        exact .fitting hkind hglob hpath hfile
      · intro hmatches
        cases hmatches with
        | file hfile => cases hkind.symm.trans (kindIn_eq_file.mpr hfile)
        | source hdirectory => cases hkind.symm.trans hdirectory
        | fitting _ hother hpath hfile =>
          cases hglob.symm.trans hother
          exact ⟨hpath, hfile⟩
    · cases h

/-! ## The files of several inputs -/

/-- What is left out has the components of a path that is there. -/
theorem foldl_addNew (files found : List String) :
    ∃ added, found.foldl addNew files = files ++ added ∧ added.Sublist found
      ∧ added.Pairwise (fun p q => Path.same p q = false)
      ∧ (∀ p ∈ files, ∀ q ∈ added, Path.same p q = false)
      ∧ ∀ path ∈ found, ∃ file ∈ files ++ added, Path.same file path = true := by
  induction found generalizing files with
  | nil => exact ⟨[], by simp, .slnil, .nil, by simp, by simp⟩
  | cons path rest ih =>
    by_cases hthere : files.any (Path.same path) = true
    · obtain ⟨added, hadded, hsub, hdistinct, hnew, hall⟩ := ih files
      refine ⟨added, ?_, hsub.cons path, hdistinct, hnew, ?_⟩
      · rw [List.foldl_cons, addNew, if_pos hthere, hadded]
      · obtain ⟨file, hfile, hsame⟩ := List.any_eq_true.mp hthere
        exact List.forall_mem_cons.mpr ⟨⟨file, List.mem_append_left _ hfile, Path.same_comm.trans hsame⟩, hall⟩
    · obtain ⟨added, hadded, hsub, hdistinct, hnew, hall⟩ := ih (files ++ [path])
      have hother : ∀ file ∈ files, Path.same file path = false := by
        intro file hfile
        rw [Path.same_comm, Bool.eq_false_iff]
        exact fun hsame => hthere (List.any_eq_true.mpr ⟨file, hfile, hsame⟩)
      refine ⟨path :: added, ?_, hsub.cons_cons path, ?_, ?_, ?_⟩
      · rw [List.foldl_cons, addNew, if_neg hthere, hadded, List.append_assoc, List.singleton_append]
      · refine List.pairwise_cons.mpr ⟨?_, hdistinct⟩
        exact fun q hq => hnew path (List.mem_append_right _ (List.mem_singleton_self path)) q hq
      · intro p hp q hq
        rcases List.mem_cons.mp hq with rfl | hq
        · exact hother p hp
        · exact hnew p (List.mem_append_left _ hp) q hq
      · rw [List.append_assoc, List.singleton_append] at hall
        refine List.forall_mem_cons.mpr ⟨⟨path, ?_, Path.same_iff.mpr rfl⟩, hall⟩
        exact List.mem_append_right _ List.mem_cons_self

/-- **What an input adds** to the files of earlier inputs: files that it stands for, in ascending order, and only such
as no earlier input stands for under a path with the same components. -/
structure Contribution (tree : FileTree) (earlier : List String) (input : String) (part : List String) : Prop where
  found : ∀ path ∈ part, Matches tree input path
  ascending : part.Pairwise Path.Before
  first : ∀ path ∈ part, ∀ other ∈ earlier, ∀ file, Matches tree other file → Path.same file path = false
  complete : ∀ path, Matches tree input path → (∃ file ∈ part, Path.same file path = true)
    ∨ ∃ other ∈ earlier, ∃ file, Matches tree other file ∧ Path.same file path = true

/-- What inputs add to the files of earlier ones, input by input. -/
inductive Collects (tree : FileTree) : List String → List String → List (List String) → Prop
  | nil {earlier : List String} : Collects tree earlier [] []
  | cons {earlier inputs part : List String} {input : String} {parts : List (List String)} :
      Contribution tree earlier input part → Collects tree (earlier ++ [input]) inputs parts →
      Collects tree earlier (input :: inputs) (part :: parts)

/-- The files of earlier inputs are there, and nothing else. -/
structure Holds (tree : FileTree) (earlier files : List String) : Prop where
  found : ∀ file ∈ files, ∃ input ∈ earlier, Matches tree input file
  complete : ∀ input ∈ earlier, ∀ path, Matches tree input path → ∃ file ∈ files, Path.same file path = true

/-- **One input adds** what it contributes. -/
theorem exists_contribution (hfiles : Holds tree earlier files) (h : filesIn tree input = .ok found) :
    ∃ part, (Path.inOrder found).foldl addNew files = files ++ part ∧ Contribution tree earlier input part
      ∧ Holds tree (earlier ++ [input]) (files ++ part) := by
  obtain ⟨part, hpart, hsub, hdistinct, hnew, hall⟩ := foldl_addNew files (Path.inOrder found)
  have hmatches : ∀ path ∈ part, Matches tree input path := fun path hpath =>
    (mem_of_filesIn h).mp (Path.mem_inOrder.mp (hsub.subset hpath))
  have hthere : ∀ path, Matches tree input path → ∃ file ∈ files ++ part, Path.same file path = true :=
    fun path hpath => hall path (Path.mem_inOrder.mpr ((mem_of_filesIn h).mpr hpath))
  refine ⟨part, hpart, ⟨hmatches, ?_, ?_, ?_⟩, ?_, ?_⟩
  · have hsorted := (Path.pairwise_inOrder found).sublist hsub
    exact (hsorted.and hdistinct).imp fun hboth => Path.before_of_notAfter hboth.1 hboth.2
  · intro path hpath other hother file hfile
    obtain ⟨there, hin, hsame⟩ := hfiles.complete other hother file hfile
    rw [Bool.eq_false_iff]
    intro hequal
    have hfresh := hnew there hin path hpath
    rw [Path.same_iff.mpr ((Path.same_iff.mp hsame).trans (Path.same_iff.mp hequal))] at hfresh
    cases hfresh
  · intro path hpath
    obtain ⟨file, hfile, hsame⟩ := hthere path hpath
    rcases List.mem_append.mp hfile with hold | hadded
    · obtain ⟨other, hother, hfound⟩ := hfiles.found file hold
      exact Or.inr ⟨other, hother, file, hfound, hsame⟩
    · exact Or.inl ⟨file, hadded, hsame⟩
  · intro file hfile
    rcases List.mem_append.mp hfile with hold | hadded
    · obtain ⟨other, hother, hfound⟩ := hfiles.found file hold
      exact ⟨other, List.mem_append_left _ hother, hfound⟩
    · exact ⟨input, List.mem_append_right _ (List.mem_singleton_self input), hmatches file hadded⟩
  · intro other hother path hpath
    rcases List.mem_append.mp hother with hold | hlast
    · obtain ⟨file, hfile, hsame⟩ := hfiles.complete other hold path hpath
      exact ⟨file, List.mem_append_left _ hfile, hsame⟩
    · rw [List.mem_singleton.mp hlast] at hpath
      exact hthere path hpath

/-- Adding the files of an input changes no file. -/
theorem run_addInput_eq_ok {result : List String}
    (h : StateT.run (addInput (Workspace.host confirm format) files input).run w = (.ok result, last)) :
    last.tree = w.tree ∧ ∃ found, filesIn w.tree input = .ok found
      ∧ result = (Path.inOrder found).foldl addNew files := by
  obtain ⟨found, next, hfound, h⟩ := run_exceptT_bind_eq_ok.mp h
  rw [run_filesOf, Prod.mk.injEq] at hfound
  obtain ⟨hfound, rfl⟩ := hfound
  split at h
  · cases h
    exact ⟨rfl, found, hfound, rfl⟩
  · cases h
    exact ⟨rfl, found, hfound, rfl⟩

/-- **Several inputs add** their contributions one after the other. -/
theorem collects_of_foldlM {result : List String} (hfiles : Holds w.tree earlier files)
    (h : StateT.run (inputs.foldlM (addInput (Workspace.host confirm format)) files).run w = (.ok result, last)) :
    ∃ parts, result = files ++ parts.flatten ∧ Collects w.tree earlier inputs parts := by
  induction inputs generalizing earlier files w with
  | nil =>
    cases h
    exact ⟨[], by simp, .nil⟩
  | cons input rest ih =>
    rw [List.foldlM_cons] at h
    obtain ⟨middle, next, hmiddle, h⟩ := run_exceptT_bind_eq_ok.mp h
    obtain ⟨htree, found, hfound, rfl⟩ := run_addInput_eq_ok hmiddle
    obtain ⟨part, hpart, hcontribution, hholds⟩ := exists_contribution hfiles hfound
    rw [hpart] at h
    rw [← htree] at hholds hcontribution
    obtain ⟨parts, hparts, hcollects⟩ := ih hholds h
    rw [htree] at hcollects hcontribution
    exact ⟨part :: parts, by rw [hparts, List.flatten_cons, List.append_assoc], .cons hcontribution hcollects⟩

namespace Collects

variable {parts : List (List String)}

/-- Every file is of one of the inputs, and of no earlier one. -/
theorem matches_of_mem (h : Collects tree earlier inputs parts) :
    ∀ path ∈ parts.flatten, (∃ input ∈ inputs, Matches tree input path)
      ∧ ∀ other ∈ earlier, ∀ file, Matches tree other file → Path.same file path = false := by
  induction h with
  | nil => simp
  | @cons earlier inputs part input parts hpart _ ih =>
    intro path hpath
    rcases List.mem_append.mp hpath with hfirst | hrest
    · exact ⟨⟨input, List.mem_cons_self, hpart.found path hfirst⟩, hpart.first path hfirst⟩
    · obtain ⟨⟨other, hother, hfound⟩, hnew⟩ := ih path hrest
      exact ⟨⟨other, List.mem_cons_of_mem _ hother, hfound⟩, fun other hother =>
        hnew other (List.mem_append_left _ hother)⟩

/-- The files of all inputs are there. -/
theorem complete (h : Collects tree earlier inputs parts) :
    ∀ input ∈ inputs, ∀ path, Matches tree input path → (∃ file ∈ parts.flatten, Path.same file path = true)
      ∨ ∃ other ∈ earlier, ∃ file, Matches tree other file ∧ Path.same file path = true := by
  induction h with
  | nil => simp
  | @cons earlier inputs part input parts hpart _ ih =>
    have hin {path : String} : (∃ file ∈ part, Path.same file path = true) →
        ∃ file ∈ (part :: parts).flatten, Path.same file path = true :=
      fun ⟨file, hfile, hsame⟩ => ⟨file, List.mem_append_left _ hfile, hsame⟩
    refine List.forall_mem_cons.mpr ⟨fun path hpath => (hpart.complete path hpath).imp hin id, ?_⟩
    intro other hother path hpath
    rcases ih other hother path hpath with ⟨file, hfile, hsame⟩ | ⟨before, hbefore, file, hfile, hsame⟩
    · exact Or.inl ⟨file, List.mem_append_right _ hfile, hsame⟩
    · rcases List.mem_append.mp hbefore with hearlier | hlast
      · exact Or.inr ⟨before, hearlier, file, hfile, hsame⟩
      · rw [List.mem_singleton.mp hlast] at hfile
        have hcomponents := Path.same_iff.mp hsame
        rcases hpart.complete file hfile with ⟨first, hfirst, hthere⟩ | ⟨other, hother, first, hfirst, hthere⟩
        · exact Or.inl (hin ⟨first, hfirst, Path.same_iff.mpr ((Path.same_iff.mp hthere).trans hcomponents)⟩)
        · exact Or.inr ⟨other, hother, first, hfirst,
            Path.same_iff.mpr ((Path.same_iff.mp hthere).trans hcomponents)⟩

/-- No two files have the same components. -/
theorem pairwise (h : Collects tree earlier inputs parts) :
    parts.flatten.Pairwise fun p q => Path.same p q = false := by
  induction h with
  | nil => exact .nil
  | @cons earlier inputs part input parts hpart hrest ih =>
    rw [List.flatten_cons, List.pairwise_append]
    refine ⟨hpart.ascending.imp Path.not_same_of_before, ih, ?_⟩
    intro p hp q hq
    exact (hrest.matches_of_mem q hq).2 input (List.mem_append_right _ (List.mem_singleton_self input)) p (hpart.found p hp)

end Collects

/-- **The files of several inputs**: every file that an input stands for is there, input by input, each with those
files in ascending order that no earlier one stands for; and no file is there twice exactly if the inputs find none
under paths with different components. -/
theorem expand_collects
    (h : StateT.run (expand (Workspace.host confirm format) inputs).run w = (.ok files, last)) :
    (∀ input ∈ inputs, ∀ path, Matches w.tree input path → ∃ file ∈ files, SameFile w.tree file path)
      ∧ (∃ parts, files = parts.flatten ∧ Collects w.tree [] inputs parts)
      ∧ (files.Pairwise (fun p q => ¬SameFile w.tree p q)
        ↔ ∀ p q, (∃ input ∈ inputs, Matches w.tree input p) → (∃ input ∈ inputs, Matches w.tree input q) →
          SameFile w.tree p q → Path.components p = Path.components q) := by
  obtain ⟨result, next, hresult, h⟩ := run_exceptT_bind_eq_ok.mp h
  obtain rfl : result = files := by
    split at h
    · cases h
    · cases h
      rfl
  have hnothing : Holds w.tree [] [] := ⟨by simp, by simp⟩
  obtain ⟨parts, hparts, hcollects⟩ := collects_of_foldlM hnothing hresult
  rw [List.nil_append] at hparts
  subst hparts
  have hthere : ∀ path, (∃ input ∈ inputs, Matches w.tree input path) →
      ∃ file ∈ parts.flatten, Path.components file = Path.components path ∧ SameFile w.tree file path := by
    rintro path ⟨input, hinput, hpath⟩
    rcases hcollects.complete input hinput path hpath with ⟨file, hfile, hsame⟩ | ⟨other, hother, -⟩
    · obtain ⟨⟨other, -, hfound⟩, -⟩ := hcollects.matches_of_mem file hfile
      exact ⟨file, hfile, Path.same_iff.mp hsame,
        FileTree.sameFile_of_same hfound.hasFile hpath.hasFile hsame⟩
    · cases hother
  refine ⟨?_, ⟨parts, rfl, hcollects⟩, ?_⟩
  · intro input hinput path hpath
    obtain ⟨file, hfile, -, hsame⟩ := hthere path ⟨input, hinput, hpath⟩
    exact ⟨file, hfile, hsame⟩
  · constructor
    · intro hdistinct p q hp hq hsame
      obtain ⟨file, hfile, hcomponents, hleads⟩ := hthere p hp
      obtain ⟨other, hother, hcomponents', hleads'⟩ := hthere q hq
      have hequal : SameFile w.tree file other := (hleads.trans hsame).trans hleads'.symm
      have : Std.Symm fun p q => ¬SameFile w.tree p q := ⟨fun p q hne hback => hne hback.symm⟩
      by_cases hne : file = other
      · rw [← hcomponents, ← hcomponents', hne]
      · exact absurd hequal (hdistinct.forall hfile hother hne)
    · intro honce
      refine hcollects.pairwise.imp_of_mem fun {p q} hp hq hne hsame => ?_
      have hcomponents := honce p q (hcollects.matches_of_mem p hp).1 (hcollects.matches_of_mem q hq).1 hsame
      rw [Path.same_iff.mpr hcomponents] at hne
      cases hne

/-- A file at the top and two in a directory, one of which is no source. -/
def twoSourcesBelow : Workspace where
  tree := .directory [("main.py", .file "class Main: pass"),
    ("lib", .directory [("b.py", .file "class B: pass"), ("a.py", .file "class A: pass"), ("notes.txt", .file "")])]

/-- The host of a workspace on which nothing is asked or formatted. -/
def quietHost : Host (StateM Workspace) := Workspace.host (fun _ => pure true) (fun _ => pure ())

/-- A file, its directory and a pattern: a file that was found before stays where it is, and the others of the directory
come in ascending order. -/
theorem expand_collects_twoSourcesBelow :
    let inputs := ["lib//b.py", "lib", "**/[am]*.py"]
    let files := ["lib//b.py", "lib/a.py", "main.py"]
    let outcome := StateT.run (expand quietHost inputs).run twoSourcesBelow
    outcome = (.ok files, outcome.2)
      ∧ (∀ input ∈ inputs, ∀ path, Matches twoSourcesBelow.tree input path →
        ∃ file ∈ files, SameFile twoSourcesBelow.tree file path)
      ∧ (∃ parts, files = parts.flatten ∧ Collects twoSourcesBelow.tree [] inputs parts)
      ∧ files.Pairwise (fun p q => ¬SameFile twoSourcesBelow.tree p q)
      ∧ ∀ p q, (∃ input ∈ inputs, Matches twoSourcesBelow.tree input p) →
        (∃ input ∈ inputs, Matches twoSourcesBelow.tree input q) →
        SameFile twoSourcesBelow.tree p q → Path.components p = Path.components q := by
  intro inputs files outcome
  have hfiles : outcome.1 = .ok files := by decide +kernel
  have houtcome : outcome = (.ok files, outcome.2) := Prod.ext hfiles rfl
  have hlandings : files.Pairwise fun p q => FileTree.landing p ≠ FileTree.landing q := by decide +kernel
  have hdistinct : files.Pairwise fun p q => ¬SameFile twoSourcesBelow.tree p q :=
    hlandings.imp fun hne hsame => hne hsame.landing_eq
  obtain ⟨hthere, hparts, honce⟩ := expand_collects houtcome
  exact ⟨houtcome, hthere, hparts, hdistinct, honce.mp hdistinct⟩

/-- A single file. -/
def oneSource : Workspace where
  tree := .directory [("a.py", .file "class A: pass")]

/-- **A file comes twice** if one path to it starts in the current directory by name and the other one does not. -/
theorem expand_repeats :
    let outcome := StateT.run (expand quietHost ["a.py", "./a.py"]).run oneSource
    outcome = (.ok ["a.py", "./a.py"], outcome.2) ∧ SameFile oneSource.tree "a.py" "./a.py" := by
  intro outcome
  have hfiles : outcome.1 = .ok ["a.py", "./a.py"] := by decide +kernel
  refine ⟨Prod.ext hfiles rfl, (FileTree.sameFile_iff ?_ ?_).mpr ?_⟩
  · decide +kernel
  · decide +kernel
  · decide +kernel

end CommandLine

end ClassCli
