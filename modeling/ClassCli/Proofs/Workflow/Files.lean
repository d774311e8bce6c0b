import ClassCli.Proofs.FileTree
import ClassCli.Proofs.Text.Splitting
import ClassCli.Workflow

/-!
# Host operations and files that are written

A program does with its host what it does with the operations of the host, in some order. So what holds of
each operation, and of every sequence of computations that it holds of, holds of the whole program. The
parts of a run are gone through once here, for every such property.

A file is written in one step, after the directories that it is in have been made. Making directories
changes no file, and writing one changes no file of another name. The files of a generated program are
written one after the other: when all of them have been written, each holds its text.

* **`Closed`** — properties that a sequence has if its parts have them.
* **`Closed.createDirectory`**, **`Closed.extractFiles`**, **`Closed.load`** — programs that have a property
  because the operations have it.
* **`writeText_of_createFile`** — a file that was written was written to the tree.
* **`keeps_createFile`** — all other files are kept if nobody is asked.
* **`run_writeGenerated_eq_ok`** — generation, writing and formatting in turn.
* **`readText_of_writeFiles`** — the files hold what was generated.
-/

namespace ClassCli.Workflow

open FileTree (Extends Position)
open Host (onPath)
open Interface (Collection)
open Synthesis (Generated)
open Workspace (Keeps host run)

section Properties

variable {m : Type → Type} [Monad m] {α β : Type}

/-- A property of computations that doing nothing has, and a sequence if its parts have it. -/
structure Closed (P : (α : Type) → m α → Prop) : Prop where
  pure : ∀ {α : Type} (value : α), P α (Pure.pure value)
  bind : ∀ {α β : Type} {x : m α} {f : α → m β}, P α x → (∀ value, P β (f value)) → P β (x >>= f)

namespace Closed

variable {P : (α : Type) → m α → Prop} {host : Host m}

/-! ## Programs -/

/-- A sequence of programs, of which the first one may fail. -/
theorem andThen (h : Closed P) {x : ExceptT Fault m α} {f : α → ExceptT Fault m β} (hx : P _ x.run)
    (hf : ∀ value, P _ (f value).run) : P _ (x >>= f).run := by
  have hbind : (x >>= f).run = x.run >>= ExceptT.bindCont f := rfl
  rw [hbind]
  refine h.bind hx fun outcome => ?_
  cases outcome with
  | ok value => exact hf value
  | error fault => exact h.pure _

theorem onPath (h : Closed P) {path : String} {x : m (Except FileFault α)} (hx : P _ x) :
    P _ (onPath path x).run :=
  h.bind hx fun _ => h.pure _

theorem tellAll (h : Closed P) (htell : ∀ notice, P _ (host.tell notice)) (notices : List Notice) :
    P _ (host.tellAll notices) := by
  induction notices with
  | nil => exact h.pure _
  | cons notice rest ih => exact h.bind (htell notice) fun _ => ih

theorem settle (h : Closed P) (htell : ∀ notice, P _ (host.tell notice)) (x : Attempt α) :
    P _ (host.settle x).run :=
  h.bind (h.tellAll htell x.run.notices) fun _ => h.pure _

/-! ## Directories -/

theorem orPresent (h : Closed P) (hkind : ∀ path, P _ (host.kind? path)) (path : String)
    (outcome : Except FileFault Unit) : P _ (orPresent host path outcome) := by
  cases outcome with
  | ok value => exact h.pure _
  | error fault =>
    refine h.bind (h.bind (hkind path) fun _ => h.pure _) fun present => ?_
    cases present with
    | true => exact h.pure _
    | false => exact h.pure _

/-- Making directories: every one of the paths is tried. -/
theorem makeLineage (h : Closed P) (hkind : ∀ path, P _ (host.kind? path)) {paths : List String}
    (hmake : ∀ path ∈ paths, P _ (host.makeDirectory path)) : P _ (makeLineage host paths) := by
  induction paths with
  | nil => exact h.pure _
  | cons path above ih =>
    have hpath := hmake path List.mem_cons_self
    have habove := ih fun other hother => hmake other (List.mem_cons_of_mem path hother)
    rw [Workflow.makeLineage]
    refine h.bind hpath fun outcome => ?_
    split
    · refine h.bind habove fun outcome => ?_
      cases outcome with
      | ok value => exact h.bind hpath (h.orPresent hkind path)
      | error fault => exact h.pure _
    · exact h.orPresent hkind path _

theorem createDirectory (h : Closed P) (hkind : ∀ path, P _ (host.kind? path)) {path : String}
    (hmake : ∀ above ∈ Path.lineage path, P _ (host.makeDirectory above)) :
    P _ (createDirectory host path).run :=
  h.onPath (h.makeLineage hkind hmake)

/-! ## Collections -/

variable (configuration : Configuration)

theorem extractFile (h : Closed P) (hread : ∀ path, P _ (host.readText path))
    (htell : ∀ notice, P _ (host.tell notice)) (collection : Collection) (source : String) :
    P _ (extractFile host configuration collection source).run := by
  have houtline : P _ (readOutline host source).run := by
    refine h.andThen (h.onPath (hread source)) fun text => ?_
    split
    · exact h.pure _
    · exact h.pure _
  exact h.andThen houtline fun outline => h.settle htell _

/-- Extracting a collection only reads and tells, however many sources there are. -/
theorem extractFiles (h : Closed P) (hread : ∀ path, P _ (host.readText path))
    (htell : ∀ notice, P _ (host.tell notice)) (sources : List String) :
    P _ (extractFiles host configuration sources).run := by
  suffices hfold : ∀ collection : Collection,
      P _ (sources.foldlM (Workflow.extractFile host configuration) collection).run from hfold {}
  induction sources with
  | nil => exact fun _ => h.pure _
  | cons source rest ih =>
    intro collection
    rw [List.foldlM_cons]
    exact h.andThen (h.extractFile configuration hread htell collection source) ih

/-- Loading a collection only reads. -/
theorem load (h : Closed P) (hread : ∀ path, P _ (host.readText path)) (path : String) :
    P _ (load host path).run :=
  h.andThen (h.pure _) fun _ => h.andThen (h.onPath (hread path)) fun _ => h.pure _

end Closed

end Properties

/-! ## Files that are written -/

variable {α : Type} {confirm : String → StateM Workspace Bool}
  {format : List String → StateM Workspace Unit}

theorem run_onPath_eq_ok {path : String} {x : StateM Workspace (Except FileFault α)}
    {w last : Workspace} {value : α} :
    run (onPath path x) w = (.ok value, last) ↔ StateT.run x w = (.ok value, last) := by
  have hrun : run (onPath path x) w
      = ((StateT.run x w).1.mapError (Fault.file path), (StateT.run x w).2) := rfl
  rw [hrun]
  cases StateT.run x w with
  | mk outcome next =>
    cases outcome with
    | ok found =>
      constructor
      · intro h
        cases h
        rfl
      · intro h
        cases h
        rfl
    | error fault =>
      constructor
      · intro h
        cases h
      · intro h
        cases h

theorem run_change_eq_ok {f : FileTree → Except FileFault FileTree} {w last : Workspace}
    (h : StateT.run (Workspace.change f) w = (.ok (), last)) : f w.tree = .ok last.tree := by
  rw [Workspace.run_change] at h
  split at h
  · rename_i tree htree
    cases h
    exact htree
  · cases h

/-- Makes the directory that a file is in. -/
def makeParent {m : Type → Type} [Monad m] (host : Host m) (path : String) : ExceptT Fault m Unit :=
  match Path.parent? path with
  | some directory => if directory.isEmpty then pure () else createDirectory host directory
  | none => pure ()

/-- Nobody is asked about a file that is not there. -/
theorem run_mayWrite (path : String) (w : Workspace) :
    run (mayWrite (host confirm format) path) w = match Workspace.kindIn path w.tree with
      | none => (.ok true, w)
      | some _ => (.ok (StateT.run (confirm path) w).1, (StateT.run (confirm path) w).2) := by
  have hkind : run (mayWrite (host confirm format) path) w = run (match Workspace.kindIn path w.tree with
      | none => pure true
      | some _ => onPath path ((host confirm format).confirm path)) w := rfl
  rw [hkind]
  cases Workspace.kindIn path w.tree with
  | none => rfl
  | some kind => rfl

/-- A file is written after its directory has been made. -/
theorem createFile_eq {m : Type → Type} [Monad m] [LawfulMonad m] (host : Host m) (path text : String) :
    createFile host path text = mayWrite host path >>= fun may =>
      if may then do
        makeParent host path
        onPath path (host.writeText path text)
        return true
      else return false := by
  unfold createFile makeParent
  cases Path.parent? path with
  | none => simp only [pure_bind]
  | some directory =>
    dsimp only
    cases directory.isEmpty with
    | true => simp only [if_true, pure_bind]
    | false => simp only [Bool.false_eq_true, if_false]

/-- A file that was written was written to the tree in the end. -/
theorem writeText_of_createFile {path text : String} {w last : Workspace}
    (h : run (createFile (host confirm format) path text) w = (.ok true, last)) :
    ∃ tree, FileTree.writeText tree path text = .ok last.tree := by
  rw [createFile_eq] at h
  obtain ⟨may, next, -, h⟩ := Workspace.run_bind_eq_ok.mp h
  cases may with
  | false => cases h
  | true =>
    rw [if_pos rfl] at h
    obtain ⟨⟨⟩, between, -, h⟩ := Workspace.run_bind_eq_ok.mp h
    obtain ⟨⟨⟩, final, hwrite, h⟩ := Workspace.run_bind_eq_ok.mp h
    cases h
    have hchange : StateT.run (Workspace.change (·.writeText path text)) between = (.ok (), last) :=
      run_onPath_eq_ok.mp hwrite
    exact ⟨between.tree, run_change_eq_ok hchange⟩

/-! ## What is kept -/

variable {changed : Position → Prop}

theorem closed_keeps : Closed (m := StateM Workspace) fun _ x => Keeps changed x :=
  ⟨Keeps.pure, Keeps.bind⟩

/-- The directory of a file is made by making directories. -/
theorem closed_makeParent {m : Type → Type} [Monad m] {P : (α : Type) → m α → Prop} {host : Host m}
    (h : Closed P) (hkind : ∀ path, P _ (host.kind? path)) {path : String}
    (hmake : ∀ directory, Path.parent? path = some directory →
      ∀ above ∈ Path.lineage directory, P _ (host.makeDirectory above)) :
    P _ (makeParent host path).run := by
  unfold makeParent
  split
  · rename_i directory hdirectory
    split
    · exact h.pure _
    · exact h.createDirectory hkind (hmake directory hdirectory)
  · exact h.pure _

/-- Making directories changes no file. -/
theorem keeps_makeParent (path : String) :
    Keeps changed (makeParent (host confirm format) path).run :=
  closed_makeParent closed_keeps (fun _ => Keeps.look _) fun _ _ _ _ =>
    Keeps.change fun _ _ h => FileTree.extends_makeDirectory h

/-! ## Hosts that nobody is asked on -/

/-- The host that replaces every file without asking. -/
def forcedHost (format : List String → StateM Workspace Unit) : Host (StateM Workspace) :=
  host (fun _ => pure true) format

theorem run_mayWrite_forced (path : String) (w : Workspace) :
    run (mayWrite (forcedHost format) path) w = (.ok true, w) := by
  rw [forcedHost, run_mayWrite]
  split
  · rfl
  · rfl

/-- A file is always written, if nothing goes wrong. -/
theorem run_createFile_eq_ok {path text : String} {w last : Workspace} {written : Bool} :
    run (createFile (forcedHost format) path text) w = (.ok written, last)
      → written = true := by
  intro h
  rw [createFile_eq] at h
  obtain ⟨may, next, hmay, h⟩ := Workspace.run_bind_eq_ok.mp h
  rw [run_mayWrite_forced] at hmay
  cases hmay
  rw [if_pos rfl] at h
  obtain ⟨⟨⟩, between, -, h⟩ := Workspace.run_bind_eq_ok.mp h
  obtain ⟨⟨⟩, final, -, h⟩ := Workspace.run_bind_eq_ok.mp h
  cases h
  rfl

/-- Writing a file changes no file of another name. -/
theorem keeps_createFile {path name : String} (text : String)
    (hname : (Text.splitAt '/' path.toList).getLast? = some name.toList) :
    Keeps (·.getLast? = some name) (createFile (forcedHost format) path text).run := by
  have hmay : Keeps (·.getLast? = some name) (mayWrite (forcedHost format) path).run := by
    intro w
    have hrun : StateT.run (mayWrite (forcedHost format) path).run w = (.ok true, w) :=
      run_mayWrite_forced path w
    rw [hrun]
    exact Extends.refl _
  rw [createFile_eq]
  refine closed_keeps.andThen hmay fun may => ?_
  cases may with
  | false => exact Keeps.pure _
  | true =>
    refine closed_keeps.andThen (keeps_makeParent path) fun _ =>
      closed_keeps.andThen ?_ fun _ => Keeps.pure _
    exact closed_keeps.onPath (Keeps.change fun _ _ h => FileTree.extends_writeText h hname)

/-! ## Names of files -/

/-- The last piece of a path in a directory is the name of the file. -/
theorem getLast?_join {name : String} (h : '/' ∉ name.toList) (base : String) :
    (Text.splitAt '/' (Path.join base name).toList).getLast? = some name.toList := by
  obtain ⟨front, -, hjoin⟩ := Path.exists_front_join base
  rw [hjoin name h, List.getLast?_concat]

theorem getLast?_setupParser (directory : String) :
    (Text.splitAt '/' (Layout.inDirectory directory).setupParser.toList).getLast?
      = some "parser.py".toList :=
  getLast?_join (by decide) _

theorem getLast?_entryPoint (directory : String) :
    (Text.splitAt '/' (Layout.inDirectory directory).entryPoint.toList).getLast?
      = some "__main__.py".toList :=
  getLast?_join (by decide) _

theorem getLast?_packageMarker (directory : String) :
    (Text.splitAt '/' (Layout.inDirectory directory).packageMarker.toList).getLast?
      = some "__init__.py".toList :=
  getLast?_join (by decide) _

/-! ## Writing -/

section Steps

variable {m : Type → Type} [Monad m]

/-- Makes the directory that the setup file is in. -/
def makeUtils (host : Host m) (layout : Layout) : ExceptT Fault m Unit :=
  match Path.parent? layout.setupParser with
  | some utils => createDirectory host utils
  | none => pure ()

/-- Writes the files of generated code. -/
def writeFiles (host : Host m) (layout : Layout) (code : Generated) : ExceptT Fault m Unit := do
  makeUtils host layout
  discard (createFile host layout.setupParser code.setupParser.text)
  discard (createFile host layout.entryPoint code.entryPoint.text)
  discard (createFile host layout.packageMarker "")

/-- Formats the files of a program if that is asked for. -/
def formatFiles (host : Host m) (configuration : Configuration) (layout : Layout) : m Unit :=
  if configuration.pretty then host.format [layout.setupParser, layout.entryPoint] else pure ()

/-- A program is generated, written and formatted. -/
theorem writeGenerated_eq [LawfulMonad m] (host : Host m) (configuration : Configuration)
    (collection : Collection) (directory : String) :
    writeGenerated host configuration collection directory = do
      let layout := Layout.inDirectory directory
      let code ← host.settle
        (Synthesis.generate configuration.surroundings collection layout.setupParser)
      writeFiles host layout code
      ExceptT.lift (formatFiles host configuration layout)
      return layout := by
  -- the two sides run the same steps and differ in how these are bracketed
  unfold writeGenerated writeFiles makeUtils
  refine congrArg (host.settle _ >>= ·) (funext fun code => ?_)
  dsimp only
  generalize Layout.inDirectory directory = layout
  have hformat : (if configuration.pretty = true then
        (liftM (host.format [layout.setupParser, layout.entryPoint]) : ExceptT Fault m Unit)
          >>= fun _ => pure layout
      else pure layout)
      = ExceptT.lift (formatFiles host configuration layout) >>= fun _ => pure layout := by
    rw [formatFiles]
    cases configuration.pretty with
    | true => rfl
    | false => simp only [Bool.false_eq_true, if_false, ExceptT.lift_pure, pure_bind]
  rw [hformat]
  cases Path.parent? layout.setupParser with
  | none => simp only [pure_bind, bind_assoc]
  | some utils => simp only [bind_assoc]

end Steps

theorem run_discard_eq_ok {α : Type} {x : ExceptT Fault (StateM Workspace) α} {w last : Workspace}
    (h : run (discard x) w = (.ok (), last)) : ∃ value, run x w = (.ok value, last) := by
  have hdiscard : discard x = x >>= fun _ => pure () := rfl
  rw [hdiscard] at h
  obtain ⟨value, next, hx, h⟩ := Workspace.run_bind_eq_ok.mp h
  cases h
  exact ⟨value, hx⟩

/-- A file that was written is there until another one of its name is. -/
theorem readText_of_createFile {path text name : String} {w next last : Workspace}
    (h : run (discard (createFile (forcedHost format) path text)) w = (.ok (), next))
    (hname : (Text.splitAt '/' path.toList).getLast? = some name.toList)
    {changed : Position → Prop} (hextends : Extends changed next.tree last.tree)
    (hchanged : ∀ position, changed position → position.getLast? ≠ some name) :
    last.tree.readText path = .ok text := by
  obtain ⟨written, hfile⟩ := run_discard_eq_ok h
  rw [run_createFile_eq_ok hfile] at hfile
  obtain ⟨tree, hwrite⟩ := writeText_of_createFile hfile
  exact FileTree.readText_of_writeText hwrite hname hextends hchanged

/-- Writing a file keeps the files of all other names. -/
theorem extends_of_createFile {path text name : String} {w next : Workspace}
    (h : run (discard (createFile (forcedHost format) path text)) w = (.ok (), next))
    (hname : (Text.splitAt '/' path.toList).getLast? = some name.toList) :
    Extends (·.getLast? = some name) w.tree next.tree := by
  obtain ⟨written, hfile⟩ := run_discard_eq_ok h
  have hkeeps : Extends (·.getLast? = some name) w.tree
      (run (createFile (forcedHost format) path text) w).2.tree := keeps_createFile text hname w
  rw [hfile] at hkeeps
  exact hkeeps

/-- **The files hold what was generated.** -/
theorem readText_of_writeFiles {directory : String} {code : Generated} {w last : Workspace}
    (h : run (writeFiles (forcedHost format) (Layout.inDirectory directory) code) w = (.ok (), last)) :
    last.tree.readText (Layout.inDirectory directory).setupParser = .ok code.setupParser.text
      ∧ last.tree.readText (Layout.inDirectory directory).entryPoint = .ok code.entryPoint.text := by
  obtain ⟨⟨⟩, made, -, h⟩ := Workspace.run_bind_eq_ok.mp h
  obtain ⟨⟨⟩, setup, hsetup, h⟩ := Workspace.run_bind_eq_ok.mp h
  obtain ⟨⟨⟩, entry, hentry, hmarker⟩ := Workspace.run_bind_eq_ok.mp h
  -- the setup file comes first, so the two files after it have to leave it alone
  have hentryKeeps := extends_of_createFile hentry (getLast?_entryPoint directory)
  have hmarkerKeeps := extends_of_createFile hmarker (getLast?_packageMarker directory)
  constructor
  · have hlater : Extends (fun position => position.getLast? = some "__main__.py"
        ∨ position.getLast? = some "__init__.py") setup.tree last.tree :=
      (hentryKeeps.mono fun _ => Or.inl).trans (hmarkerKeeps.mono fun _ => Or.inr)
    refine readText_of_createFile hsetup (getLast?_setupParser directory) hlater ?_
    rintro position (hname | hname)
    · rw [hname]
      decide
    · rw [hname]
      decide
  · refine readText_of_createFile hentry (getLast?_entryPoint directory) hmarkerKeeps ?_
    intro position hname
    rw [hname]
    decide

/-- **Generation, writing and formatting in turn.** Nothing is written if the code cannot be generated;
before anything is formatted the files hold the code. -/
theorem run_writeGenerated_eq_ok {configuration : Configuration} {collection : Collection}
    {directory : String} {layout : Layout} {w last : Workspace}
    (h : run (writeGenerated (forcedHost format) configuration collection directory) w
      = (.ok layout, last)) :
    layout = Layout.inDirectory directory
      ∧ ∃ code written,
        (Synthesis.generate configuration.surroundings collection layout.setupParser).run.value = .ok code
          ∧ written.tree.readText layout.setupParser = .ok code.setupParser.text
          ∧ written.tree.readText layout.entryPoint = .ok code.entryPoint.text
          ∧ last = (StateT.run (formatFiles (forcedHost format) configuration layout) written).2 := by
  rw [writeGenerated_eq] at h
  obtain ⟨code, settled, hcode, h⟩ := Workspace.run_bind_eq_ok.mp h
  obtain ⟨⟨⟩, written, hwritten, h⟩ := Workspace.run_bind_eq_ok.mp h
  obtain ⟨⟨⟩, formatted, hformatted, h⟩ := Workspace.run_bind_eq_ok.mp h
  cases h
  obtain ⟨hsetup, hentry⟩ := readText_of_writeFiles hwritten
  refine ⟨rfl, code, written, congrArg Prod.fst hcode, hsetup, hentry, ?_⟩
  rw [Workspace.run_lift] at hformatted
  exact (congrArg Prod.snd hformatted).symm

end ClassCli.Workflow
