import ClassCli.Proofs.Workflow.Kept
import ClassCli.Proofs.Workflow.Files

/-!
# Generating in two passes

A collection can be kept in a file and turned into a program later, or be turned into a program at once.
The second pass sees what is left of the collection, so that both ways give the same files if nothing of it
was lost: if its numbers are finite and its flags list their values in the order of the keys.

* **`session`** — the outcome of a computation that holds a collection.
* **`session_writeCode_of_parseCode`** — the second pass generates from what is left.
* **`two_passes_agree`** — two passes and one give the same files if nothing is lost.
-/

namespace ClassCli.Workflow

open Interface (Argument Collection Command Flag Module)
open Persistence (Format)
open Workspace (host run)

variable {α β : Type} {format : List String → StateM Workspace Unit}

/-! ## Sessions -/

/-- The outcome of a computation that holds a collection, the collection held after it, and the workspace
after it. -/
def session (x : Session (StateM Workspace) α) (held : Collection) (w : Workspace) :
    (Except Fault α × Collection) × Workspace :=
  StateT.run (StateT.run x.run held) w

theorem session_lift (x : ExceptT Fault (StateM Workspace) α) (held : Collection) (w : Workspace) :
    session (Session.lift x) held w = (((run x w).1, held), (run x w).2) := rfl

theorem session_set (c held : Collection) (w : Workspace) :
    session (set c) held w = ((.ok (), c), w) := rfl

theorem session_bind (x : Session (StateM Workspace) α) (f : α → Session (StateM Workspace) β)
    (held : Collection) (w : Workspace) :
    session (x >>= f) held w = match session x held w with
      | ((.ok value, between), next) => session (f value) between next
      | ((.error fault, between), next) => ((.error fault, between), next) := by
  have hbind : session (x >>= f) held w
      = session (ExceptT.mk (ExceptT.bindCont f (session x held w).1.1)) (session x held w).1.2
          (session x held w).2 := rfl
  rw [hbind]
  obtain ⟨⟨outcome, between⟩, next⟩ := session x held w
  cases outcome with
  | ok value => rfl
  | error fault => rfl

theorem session_bind_eq_ok {x : Session (StateM Workspace) α} {f : α → Session (StateM Workspace) β}
    {held after : Collection} {w last : Workspace} {result : β} :
    session (x >>= f) held w = ((.ok result, after), last)
      ↔ ∃ value between next, session x held w = ((.ok value, between), next)
        ∧ session (f value) between next = ((.ok result, after), last) := by
  rw [session_bind]
  constructor
  · intro h
    split at h
    · rename_i value between next hx
      exact ⟨value, between, next, hx, h⟩
    · cases h
  · rintro ⟨value, between, next, hx, h⟩
    rw [hx]
    exact h

theorem session_lift_eq_ok {x : ExceptT Fault (StateM Workspace) α} {held after : Collection}
    {w last : Workspace} {result : α} :
    session (Session.lift x) held w = ((.ok result, after), last)
      ↔ run x w = (.ok result, last) ∧ held = after := by
  rw [session_lift]
  obtain ⟨outcome, next⟩ := run x w
  simp only [Prod.mk.injEq]
  tauto

/-! ## The first pass -/

/-- Extracting a collection holds it and hands it over. -/
theorem session_parseCode_eq_ok {host : Host (StateM Workspace)} {configuration : Configuration}
    {files : List String} {output : Output} {held after c : Collection} {w last : Workspace}
    (h : session (parseCode host configuration files output) held w = ((.ok c, after), last)) :
    after = c ∧ ∃ extracted, run (extractFiles host configuration files) w = (.ok c, extracted)
      ∧ run (deliver host c output) extracted = (.ok (), last) := by
  obtain ⟨found, _, extracted, hextract, h⟩ := session_bind_eq_ok.mp h
  obtain ⟨hfound, rfl⟩ := session_lift_eq_ok.mp hextract
  obtain ⟨⟨⟩, _, _, hset, h⟩ := session_bind_eq_ok.mp h
  cases hset
  obtain ⟨⟨⟩, _, delivered, hdeliver, h⟩ := session_bind_eq_ok.mp h
  obtain ⟨hdelivered, rfl⟩ := session_lift_eq_ok.mp hdeliver
  cases h
  exact ⟨rfl, extracted, hfound, hdelivered⟩

/-- A collection is in the file that it was handed over to. -/
theorem readText_of_parseCode {configuration : Configuration} {files : List String} {path : String}
    {held after c : Collection} {w last : Workspace} {kind : Format}
    (h : session (parseCode (forcedHost format) configuration files (.file path)) held w
      = ((.ok c, after), last))
    (hkind : Persistence.formatOf path = .ok (some kind)) :
    last.tree.readText path = .ok (Persistence.render kind c) := by
  obtain ⟨-, extracted, -, hdeliver⟩ := session_parseCode_eq_ok h
  obtain ⟨written, hsave⟩ := run_discard_eq_ok hdeliver
  have hwritten : written = true := by
    obtain ⟨kind?, _, hfound, hcreate⟩ := Workspace.run_bind_eq_ok.mp hsave
    have hformat : Persistence.formatOf path = .ok kind? := congrArg Prod.fst hfound
    rw [hkind] at hformat
    cases hformat
    exact run_createFile_eq_ok hcreate
  rw [hwritten] at hsave
  obtain ⟨found, hfound, htext⟩ := readText_of_save hsave
  rw [hkind] at hfound
  cases hfound
  exact htext

/-! ## The second pass -/

/-- **The second pass** generates from what is left of the collection. -/
theorem session_writeCode_of_parseCode {configuration : Configuration} {files : List String}
    {path : String} {held after c : Collection} {w last : Workspace} {kind : Format}
    (h : session (parseCode (forcedHost format) configuration files (.file path)) held w
      = ((.ok c, after), last))
    (hkind : Persistence.formatOf path = .ok (some kind)) (hback : ReadBack kind c)
    (directory : String) :
    session (writeCode (forcedHost format) configuration path directory) after last
      = session (Session.lift (writeGenerated (forcedHost format) configuration c.asKept directory))
          c.asKept last := by
  have hload : run (load (forcedHost format) path) last = (.ok c.asKept, last) :=
    run_load hkind hback (readText_of_parseCode h hkind)
  rw [writeCode, session_bind, session_lift, hload]
  dsimp only
  rw [session_bind, session_set]

/-- Whether what a formatter makes of files depends on their texts alone. -/
def FormatsTexts (format : List String → StateM Workspace Unit) : Prop :=
  ∀ (paths : List String) (w v : Workspace),
    (∀ path ∈ paths, w.tree.readText path = v.tree.readText path) →
    ∀ path ∈ paths, (StateT.run (format paths) w).2.tree.readText path
      = (StateT.run (format paths) v).2.tree.readText path

theorem readText_of_formatFiles (hformat : FormatsTexts format) (configuration : Configuration)
    {layout : Layout} {w v : Workspace}
    (hsetup : w.tree.readText layout.setupParser = v.tree.readText layout.setupParser)
    (hentry : w.tree.readText layout.entryPoint = v.tree.readText layout.entryPoint) :
    ∀ path ∈ [layout.setupParser, layout.entryPoint],
      (StateT.run (formatFiles (forcedHost format) configuration layout) w).2.tree.readText path
        = (StateT.run (formatFiles (forcedHost format) configuration layout) v).2.tree.readText
            path := by
  have hpaths : ∀ path ∈ [layout.setupParser, layout.entryPoint],
      w.tree.readText path = v.tree.readText path := by
    rw [List.forall_mem_cons, List.forall_mem_singleton]
    exact ⟨hsetup, hentry⟩
  unfold formatFiles
  cases configuration.pretty with
  | true => exact hformat _ w v hpaths
  | false => exact hpaths

/-- **Two passes agree with one** if nothing of the collection is lost between them: both leave the same
texts in the files of the program. -/
theorem two_passes_agree {configuration : Configuration} {files : List String} {path directory : String}
    {kind : Format} {held between after once c : Collection} {w v kept last : Workspace}
    {layout layout' : Layout} (hformat : FormatsTexts format)
    (hkind : Persistence.formatOf path = .ok (some kind)) (hback : ReadBack kind c)
    (hfinite : c.Finite) (hordered : c.Each (fun _ => True) Flag.Ordered)
    (hone : session (generateParser (forcedHost format) configuration files directory) held w
      = ((.ok layout, once), v))
    (hparse : session (parseCode (forcedHost format) configuration files (.file path)) held w
      = ((.ok c, between), kept))
    (hwrite : session (writeCode (forcedHost format) configuration path directory) between kept
      = ((.ok layout', after), last)) :
    layout' = layout ∧ after = once
      ∧ last.tree.readText layout.setupParser = v.tree.readText layout.setupParser
      ∧ last.tree.readText layout.entryPoint = v.tree.readText layout.entryPoint := by
  -- the second pass generates from the collection that was kept, and nothing of it is lost
  rw [session_writeCode_of_parseCode hparse hkind hback,
    Collection.asKept_eq_self hfinite hordered] at hwrite
  obtain ⟨hsecond, rfl⟩ := session_lift_eq_ok.mp hwrite
  obtain ⟨hheld, extracted, hextracted, -⟩ := session_parseCode_eq_ok hparse
  obtain ⟨c', _, parsed, hparsed, hgenerated⟩ := session_bind_eq_ok.mp hone
  obtain ⟨rfl, extracted', hextracted', -⟩ := session_parseCode_eq_ok hparsed
  obtain ⟨hfirst, rfl⟩ := session_lift_eq_ok.mp hgenerated
  -- both passes extract from the same workspace, so the collection is the same
  rw [hextracted] at hextracted'
  cases hextracted'
  obtain ⟨rfl, code, written, hcode, hsetup, hentry, rfl⟩ := run_writeGenerated_eq_ok hfirst
  obtain ⟨rfl, code', written', hcode', hsetup', hentry', rfl⟩ := run_writeGenerated_eq_ok hsecond
  rw [hcode] at hcode'
  cases hcode'
  -- formatting makes the same of the same texts
  have htexts := readText_of_formatFiles hformat configuration (hsetup'.trans hsetup.symm)
    (hentry'.trans hentry.symm)
  exact ⟨rfl, rfl, htexts _ (by simp), htexts _ (by simp)⟩

/-! ## Workspaces with one class -/

/-- The host that never asks and that formats nothing. -/
abbrev plainHost : Host (StateM Workspace) := forcedHost fun _ => pure ()

/-- Settings that leave everything as it is. -/
def plainConfiguration : Configuration := { projectRoot := "/project" }

/-- A workspace with one source file. -/
def sourceWorkspace (source : String) : Workspace := { tree := .directory [("job.py", .file source)] }

/-- Generating a program from the source at once. -/
def onePass (source : String) : (Except Fault Layout × Collection) × Workspace :=
  session (generateParser plainHost plainConfiguration ["job.py"] "cli") {} (sourceWorkspace source)

/-- Keeping the collection of the source in a file. -/
def firstPass (source : String) : (Except Fault Collection × Collection) × Workspace :=
  session (parseCode plainHost plainConfiguration ["job.py"] (.file "ir.yaml")) {}
    (sourceWorkspace source)

/-- Generating the program from the file. -/
def secondPass (source : String) : (Except Fault Layout × Collection) × Workspace :=
  session (writeCode plainHost plainConfiguration "ir.yaml" "cli") (firstPass source).1.2
    (firstPass source).2

/-- The source of a class with one method. -/
def plainSource : String := "class Job:\n    def run(self):\n        '.'\n"

/-- The class as it is extracted. -/
def plainJob : Collection :=
  ⟨[{ name := "Job", location := "job.py", commands := [{ name := "run", help := "." }] }]⟩

theorem formatOf_ir : Persistence.formatOf "ir.yaml" = .ok (some .yaml) := by decide +kernel

theorem eq_of_fst {γ δ : Type} {x : γ × δ} {first : γ} (h : x.1 = first) : x = (first, x.2) :=
  Prod.ext h rfl

/-- What the second pass does if the first one kept a collection. -/
theorem secondPass_eq {source : String} {c : Collection} (h : (firstPass source).1 = (.ok c, c))
    (hback : ReadBack .yaml c) :
    secondPass source = session (Session.lift
      (writeGenerated plainHost plainConfiguration c.asKept "cli")) c.asKept (firstPass source).2 := by
  have hparse := eq_of_fst h
  rw [secondPass, h]
  exact session_writeCode_of_parseCode hparse formatOf_ir hback "cli"

/-- Nothing is lost of a class that takes no configuration. -/
theorem two_passes_agree_plainJob :
    (onePass plainSource).1 = (.ok (Layout.inDirectory "cli"), plainJob)
      ∧ (secondPass plainSource).1 = (.ok (Layout.inDirectory "cli"), plainJob)
      ∧ (secondPass plainSource).2.tree.readText (Layout.inDirectory "cli").entryPoint
        = (onePass plainSource).2.tree.readText (Layout.inDirectory "cli").entryPoint := by
  have hback : ReadBack .yaml plainJob := by decide +kernel
  have hfinite : plainJob.Finite := by decide +kernel
  have hordered : plainJob.Each (fun _ => True) Flag.Ordered := by
    simp [Collection.Each, Module.Each, Command.Each, plainJob]
  have hfirst : (firstPass plainSource).1 = (.ok plainJob, plainJob) := by decide +kernel
  have hone : (onePass plainSource).1 = (.ok (Layout.inDirectory "cli"), plainJob) := by
    decide +kernel
  have hsecond : (secondPass plainSource).1 = (.ok (Layout.inDirectory "cli"), plainJob) := by
    rw [secondPass_eq hfirst hback, Collection.asKept_eq_self hfinite hordered]
    decide +kernel
  have hparse : session (parseCode plainHost plainConfiguration ["job.py"] (.file "ir.yaml")) {}
      (sourceWorkspace plainSource) = ((.ok plainJob, plainJob), (firstPass plainSource).2) :=
    eq_of_fst hfirst
  have hgenerate : session (generateParser plainHost plainConfiguration ["job.py"] "cli") {}
      (sourceWorkspace plainSource)
        = ((.ok (Layout.inDirectory "cli"), plainJob), (onePass plainSource).2) :=
    eq_of_fst hone
  have hwrite : session (writeCode plainHost plainConfiguration "ir.yaml" "cli") plainJob
      (firstPass plainSource).2
        = ((.ok (Layout.inDirectory "cli"), plainJob), (secondPass plainSource).2) := by
    rw [← eq_of_fst hsecond, secondPass, hfirst]
  have hformat : FormatsTexts fun _ => pure () := fun _ _ _ h => h
  obtain ⟨-, -, -, hentry⟩ := two_passes_agree hformat formatOf_ir hback hfinite hordered hgenerate
    hparse hwrite
  exact ⟨hone, hsecond, hentry⟩

/-- The source of a class whose command takes a configuration. -/
def configuredSource : String :=
  "from argsmith.decorator import add_hydra\n\nclass Job:\n    @add_hydra\n    def run(self, cfg):\n        '.'\n"

/-- The entry point that is generated for a collection. -/
def plainEntry (c : Collection) : Except Fault String :=
  (Synthesis.generate plainConfiguration.surroundings c
    (Layout.inDirectory "cli").setupParser).run.value.map (·.entryPoint.text)

/-- The entry point holds what was generated for the collection. -/
theorem readText_plainEntry {c : Collection} {layout : Layout} {w last : Workspace}
    (h : run (writeGenerated plainHost plainConfiguration c "cli") w = (.ok layout, last)) :
    ∃ text, plainEntry c = .ok text
      ∧ last.tree.readText (Layout.inDirectory "cli").entryPoint = .ok text := by
  obtain ⟨rfl, code, written, hcode, -, hentry, rfl⟩ := run_writeGenerated_eq_ok h
  refine ⟨code.entryPoint.text, ?_, hentry⟩
  rw [plainEntry, hcode]
  rfl

/-- The settings of a command lose their order between two passes, and the entry point passes them on in
the order that is left. -/
theorem two_passes_disagree :
    (firstPass configuredSource).1 = (.ok configuredJob, configuredJob)
      ∧ ReadBack .yaml configuredJob
      ∧ (onePass configuredSource).1 = (.ok (Layout.inDirectory "cli"), configuredJob)
      ∧ (secondPass configuredSource).1 = (.ok (Layout.inDirectory "cli"), configuredJob.asKept)
      ∧ (secondPass configuredSource).2.tree.readText (Layout.inDirectory "cli").entryPoint
        ≠ (onePass configuredSource).2.tree.readText (Layout.inDirectory "cli").entryPoint := by
  have hback := readBack_configuredJob
  have hfirst : (firstPass configuredSource).1 = (.ok configuredJob, configuredJob) := by
    decide +kernel
  have hone : (onePass configuredSource).1 = (.ok (Layout.inDirectory "cli"), configuredJob) := by
    decide +kernel
  have hpass := secondPass_eq hfirst hback
  have hsecond : (secondPass configuredSource).1
      = (.ok (Layout.inDirectory "cli"), configuredJob.asKept) := by
    rw [hpass]
    decide +kernel
  have hentries : plainEntry configuredJob ≠ plainEntry configuredJob.asKept := by decide +kernel
  refine ⟨hfirst, hback, hone, hsecond, ?_⟩
  have hgenerate : session (generateParser plainHost plainConfiguration ["job.py"] "cli") {}
      (sourceWorkspace configuredSource)
        = ((.ok (Layout.inDirectory "cli"), configuredJob), (onePass configuredSource).2) :=
    eq_of_fst hone
  obtain ⟨c, _, parsed, hparsed, hwrite⟩ := session_bind_eq_ok.mp hgenerate
  obtain ⟨rfl, -⟩ := session_parseCode_eq_ok hparsed
  obtain ⟨hwritten, rfl⟩ := session_lift_eq_ok.mp hwrite
  have hagain := (session_lift_eq_ok.mp (hpass.symm.trans (eq_of_fst hsecond))).1
  obtain ⟨text, htext, hread⟩ := readText_plainEntry hwritten
  obtain ⟨other, hother, hreadOther⟩ := readText_plainEntry hagain
  rw [hread, hreadOther]
  intro hsame
  cases hsame
  exact hentries (htext.trans hother.symm)

end ClassCli.Workflow
