import ClassCli.Marker.Registry
import ClassCli.Proofs.Interface.Kept
import ClassCli.Proofs.Json.Held
import ClassCli.Proofs.Workflow.Files

/-!
# Collections in files

A collection is kept in a file as text. What the text is read back as is left to the format; given that a
format reads back the value it wrote, a collection that was saved is loaded again.

* **`ReadBack`** — whether a format reads back the value of a collection.
* **`run_load`** — what is loaded from the file of a collection.
* **`collections_come_back`** — collections come back from their dictionaries and from files.
-/

namespace ClassCli.Workflow

open Interface (Argument Collection Command Flag Module)
open Persistence (Format)
open Workspace (host run)

variable {confirm : String → StateM Workspace Bool} {format : List String → StateM Workspace Unit}

/-- Whether the text of a collection is read back as the value that was written. -/
def ReadBack (kind : Format) (c : Collection) : Prop :=
  Persistence.value kind (Persistence.render kind c) = .ok c.dictionary

instance (kind : Format) (c : Collection) : Decidable (ReadBack kind c) :=
  inferInstanceAs (Decidable (_ = _))

theorem read_render {kind : Format} {c : Collection} (h : ReadBack kind c) :
    Persistence.read kind (Persistence.render kind c) = .ok c.asKept := by
  rw [Persistence.read, h]
  show (Collection.ofJson c.dictionary).mapError Fault.data = _
  rw [Collection.ofJson_dictionary_eq]
  rfl

/-- **What is loaded** from a file that holds the text of a collection. -/
theorem run_load {path : String} {kind : Format} {c : Collection} {w : Workspace}
    (hkind : Persistence.formatOf path = .ok (some kind)) (hback : ReadBack kind c)
    (htext : w.tree.readText path = .ok (Persistence.render kind c)) :
    run (load (host confirm format) path) w = (.ok c.asKept, w) := by
  have hread : StateT.run ((host confirm format).readText path) w = (w.tree.readText path, w) := rfl
  have hfound : run (Host.onPath path ((host confirm format).readText path)) w
      = (.ok (Persistence.render kind c), w) := by
    rw [run_onPath_eq_ok, hread, htext]
  refine Workspace.run_bind_eq_ok.mpr ⟨kind, w, ?_, Workspace.run_bind_eq_ok.mpr ⟨_, w, hfound, ?_⟩⟩
  · show (Persistence.requiredFormat path, w) = _
    rw [Persistence.requiredFormat, hkind]
  · show (Persistence.read kind (Persistence.render kind c), w) = _
    rw [read_render hback]

/-- The text of a collection is in the file that it was saved in. -/
theorem readText_of_save {path : String} {c : Collection} {w last : Workspace}
    (h : run (save (host confirm format) c path) w = (.ok true, last)) :
    ∃ kind, Persistence.formatOf path = .ok (some kind)
      ∧ last.tree.readText path = .ok (Persistence.render kind c) := by
  obtain ⟨kind?, next, hkind, h⟩ := Workspace.run_bind_eq_ok.mp h
  have hformat : Persistence.formatOf path = .ok kind? := congrArg Prod.fst hkind
  cases kind? with
  | none => cases h
  | some kind =>
    obtain ⟨tree, hwrite⟩ := writeText_of_createFile h
    exact ⟨kind, hformat, FileTree.readText_writeText hwrite⟩

/-- **What is loaded after saving.** -/
theorem run_load_of_save {path : String} {c : Collection} {w last : Workspace}
    (h : run (save (host confirm format) c path) w = (.ok true, last))
    (hback : ∀ kind, Persistence.formatOf path = .ok (some kind) → ReadBack kind c) :
    run (load (host confirm format) path) last = (.ok c.asKept, last) := by
  obtain ⟨kind, hkind, htext⟩ := readText_of_save h
  exact run_load hkind (hback kind hkind) htext

/-- **Collections come back.** A finite collection is read back from its dictionary with all that it
says; one that was read is read back as it is, the order of the values in flags included; and a finite
collection that was saved is loaded again with all that it says. -/
theorem collections_come_back :
    (∀ c : Collection, c.Finite → c.Distinct →
      ∃ back, Collection.ofJson c.dictionary = .ok back ∧ c.Agrees back)
    ∧ (∀ (value : Json) (c : Collection), value.Representable → Collection.ofJson value = .ok c →
      Collection.ofJson c.dictionary = .ok c)
    ∧ ∀ (confirm : String → StateM Workspace Bool) (format : List String → StateM Workspace Unit)
        (path : String) (c : Collection) (w last : Workspace), c.Finite → c.Distinct →
      (∀ kind, Persistence.formatOf path = .ok (some kind) → ReadBack kind c) →
      run (save (host confirm format) c path) w = (.ok true, last) →
      ∃ back, run (load (host confirm format) path) last = (.ok back, last) ∧ c.Agrees back := by
  refine ⟨?_, ?_, ?_⟩
  · intro c hfinite hdistinct
    exact ⟨c.inNameOrder, Collection.ofJson_dictionary hfinite, Collection.agrees_inNameOrder hdistinct⟩
  · intro value c hvalue h
    exact Collection.ofJson_dictionary_of_ofJson hvalue h
  · intro confirm format path c w last hfinite hdistinct hback h
    refine ⟨c.inNameOrder, ?_, Collection.agrees_inNameOrder hdistinct⟩
    rw [run_load_of_save h hback, Collection.asKept_of_finite hfinite]

/-- A class whose command takes a configuration, as it is extracted. -/
def configuredJob : Collection :=
  ⟨[{ name := "Job", location := "job.py",
      commands := [
        { name := "run", help := ".",
          flags := [
            { name := Marker.hydraName,
              values := [("config_var_name", .str "cfg"), ("version_base", .none),
                ("config_path", .none), ("config_name", .none)] }] }] }]⟩

theorem readBack_configuredJob : ReadBack .yaml configuredJob := by
  decide +kernel

theorem finite_configuredJob : configuredJob.Finite := by
  decide +kernel

/-- The settings of the class are not in ascending order. They come back from a file all the same. -/
theorem collections_come_back_configuredJob :
    (∃ back, Collection.ofJson configuredJob.dictionary = .ok back ∧ configuredJob.Agrees back)
      ∧ Collection.ofJson configuredJob.inNameOrder.dictionary = .ok configuredJob.inNameOrder
      ∧ ∃ last back,
        run (save (forcedHost fun _ => pure ()) configuredJob "ir.yaml") {} = (.ok true, last)
          ∧ run (load (forcedHost fun _ => pure ()) "ir.yaml") last = (.ok back, last)
          ∧ configuredJob.Agrees back := by
  have hdistinct : configuredJob.Distinct := by
    simp [Collection.Distinct, Collection.Each, Module.Each, Command.Each, Flag.Distinct,
      configuredJob, Entries.keys]
  have hdictionary : configuredJob.dictionary = .object [("modules", .array [.object [
      ("args", .array []),
      ("commands", .array [.object [
        ("annotation_flags", .array [.object [("name", .string "add_hydra"), ("values", .object [
          ("config_name", .null), ("config_path", .null), ("config_var_name", .string "cfg"),
          ("version_base", .null)])]]),
        ("args", .array []), ("help", .string "."), ("name", .string "run")]]),
      ("help", .string ""), ("location", .string "job.py"), ("name", .string "Job")]])] := by
    decide +kernel
  have hvalue : configuredJob.dictionary.Representable := by
    rw [hdictionary]
    simp [Json.Representable, Json.RepresentableAll, Json.RepresentableEntries]
  have hread : Collection.ofJson configuredJob.dictionary = .ok configuredJob.inNameOrder :=
    Collection.ofJson_dictionary finite_configuredJob
  have hsave : (run (save (forcedHost fun _ => pure ()) configuredJob "ir.yaml") {}).1 = .ok true := by
    decide +kernel
  have hback : ∀ kind, Persistence.formatOf "ir.yaml" = .ok (some kind) →
      ReadBack kind configuredJob := by
    have hkind : Persistence.formatOf "ir.yaml" = .ok (some .yaml) := by decide +kernel
    intro kind h
    rw [hkind] at h
    cases h
    exact readBack_configuredJob
  obtain ⟨back, hload, hagrees⟩ := collections_come_back.2.2 _ _ "ir.yaml" configuredJob {} _
    finite_configuredJob hdistinct hback (Prod.ext hsave rfl)
  exact ⟨collections_come_back.1 configuredJob finite_configuredJob hdistinct,
    collections_come_back.2.1 _ _ hvalue hread, _, back, Prod.ext hsave rfl, hload, hagrees⟩

end ClassCli.Workflow
