import ClassCli.Proofs.Workflow.Files

/-!
# Runs that fail

A run reads, checks and generates everything before it writes the first file. Whatever is wrong with
sources, kept collections, paths or names is found by then, so that a run that fails with such a fault
has left all files and directories as they were. From the first file on, a run can only fail with faults
of files; one of these is that nobody could be asked whether a file may be replaced.

A session that extracts holds the new collection once all files have been extracted, and only then hands
it over. So a file that cannot be read, parsed or extracted leaves the collection from before the run,
whichever of the files it is and wherever the collection should have gone. What can fail after that is
saving: the name of the file is of no known format, the question whether it may be replaced cannot be put, or
the file or the directory it is in cannot be written. The new collection is held after each of these.

* **`Fault.ofInput`** — the faults that are found before anything is written.
* **`Steady`** — hosts on which reading and notices leave the files as they are.
* **`Still`**, **`Late`** — programs that leave the files as they are, and programs that fail only with other
  faults.
* **`untouched_of_ofInput`** — the three runs do the first before they do the second.
* **`FailsExtracting`** — the first file that fails, after those before it were extracted.
* **`FailsSaving`**, **`FailsWriting`** — what saving fails at.
* **`parseCode_fails_iff`** — the two ways in which a run fails, and what is held after each.
-/

namespace ClassCli

/-- Whether a fault lies in what a run was given: in sources, in a kept collection, in the name of a file
or in the names of a program. -/
def Fault.ofInput : Fault → Bool
  | .malformedSource .. | .missingDocumentation .. | .notJson | .data .. | .notYaml
  | .unsupportedFormat .. | .identifierFormat .. => true
  | .unknownConvention .. | .file .. => false

namespace Workflow

open Host (onPath)
open Interface (Collection)

variable {σ φ ε α β : Type}

/-! ## Runs that come to their end -/

/-- A run of a computation on a state comes to its end, with a result and another state. A run that does
not was broken off by an operation of the host. -/
def Ends (x : ExceptT ε (StateM σ) α) (w : σ) (result : α) (last : σ) : Prop :=
  StateT.run x.run w = (.ok result, last)

/-- A computation that has a result comes to its end. -/
theorem ends_of_outcome {x : ExceptT ε (StateM σ) α} {w : σ} {result : α}
    (h : (StateT.run x.run w).1 = .ok result) : Ends x w result (StateT.run x.run w).2 :=
  Prod.ext h rfl

theorem ends_pure {value result : α} {w last : σ} :
    Ends (pure value : ExceptT ε (StateM σ) α) w result last ↔ value = result ∧ w = last := by
  have hrun : StateT.run (pure value : ExceptT ε (StateM σ) α).run w = (.ok value, w) := rfl
  rw [Ends, hrun, Prod.mk.injEq, Except.ok.injEq]

/-- A value is handed on as it is, and as no other one. -/
theorem not_ends_pure {value result : α} {w last : σ} (h : value ≠ result) :
    ¬ Ends (pure value : ExceptT ε (StateM σ) α) w result last :=
  fun hends => h (ends_pure.mp hends).1

/-- One computation and then another. -/
theorem ends_bind {x : ExceptT ε (StateM σ) α} {f : α → ExceptT ε (StateM σ) β} {w last : σ}
    {result : β} :
    Ends (x >>= f) w result last
      ↔ ∃ value next, Ends x w value next ∧ Ends (f value) next result last :=
  run_exceptT_bind_eq_ok

/-- A sequence of programs fails in the first one, or in the second one after the first. -/
theorem ends_program_bind {x : ExceptT Fault (ExceptT ε (StateM σ)) α}
    {f : α → ExceptT Fault (ExceptT ε (StateM σ)) β} {w last : σ} {fault : Fault} :
    Ends (x >>= f).run w (.error fault) last
      ↔ Ends x.run w (.error fault) last
        ∨ ∃ value next, Ends x.run w (.ok value) next ∧ Ends (f value).run next (.error fault) last := by
  have hbind : (x >>= f).run = x.run >>= ExceptT.bindCont f := rfl
  rw [hbind, ends_bind]
  constructor
  · rintro ⟨outcome, next, hx, hf⟩
    cases outcome with
    | ok value => exact Or.inr ⟨value, next, hx, hf⟩
    | error found =>
      obtain ⟨hfault, rfl⟩ := ends_pure.mp hf
      cases hfault
      exact Or.inl hx
  · rintro (hx | ⟨value, next, hx, hf⟩)
    · exact ⟨.error fault, last, hx, ends_pure.mpr ⟨rfl, rfl⟩⟩
    · exact ⟨.ok value, next, hx, hf⟩

theorem run_lift_eq_bind (x : ExceptT ε (StateM σ) α) :
    (ExceptT.lift x : ExceptT Fault (ExceptT ε (StateM σ)) α).run = x >>= fun value => pure (.ok value) :=
  map_eq_pure_bind _ _

/-- What the host does is no fault of the program. -/
theorem not_ends_lift_error {x : ExceptT ε (StateM σ) α} {w last : σ} {fault : Fault} :
    ¬ Ends (ExceptT.lift x : ExceptT Fault (ExceptT ε (StateM σ)) α).run w (.error fault) last := by
  rw [run_lift_eq_bind, ends_bind]
  rintro ⟨value, next, -, hvalue⟩
  exact absurd hvalue (not_ends_pure nofun)

theorem ends_lift_ok {x : ExceptT ε (StateM σ) α} {value : α} {w last : σ} :
    Ends (ExceptT.lift x : ExceptT Fault (ExceptT ε (StateM σ)) α).run w (.ok value) last
      ↔ Ends x w value last := by
  rw [run_lift_eq_bind, ends_bind]
  constructor
  · rintro ⟨found, next, hx, hfound⟩
    obtain ⟨hvalue, rfl⟩ := ends_pure.mp hfound
    cases hvalue
    exact hx
  · exact fun hx => ⟨value, last, hx, ends_pure.mpr ⟨rfl, rfl⟩⟩

/-- A fault with the file at a path is a fault of the program. -/
theorem ends_onPath_error {path : String} {x : ExceptT ε (StateM σ) (Except FileFault α)} {w last : σ}
    {fault : Fault} :
    Ends (onPath path x).run w (.error fault) last
      ↔ ∃ reason, Ends x w (.error reason) last ∧ fault = .file path reason := by
  have hrun : (onPath path x).run = x >>= fun outcome => pure (outcome.mapError (.file path)) := rfl
  rw [hrun, ends_bind]
  constructor
  · rintro ⟨outcome, next, hx, hend⟩
    obtain ⟨houtcome, rfl⟩ := ends_pure.mp hend
    cases outcome with
    | ok value => cases houtcome
    | error reason =>
      cases houtcome
      exact ⟨reason, hx, rfl⟩
  · rintro ⟨reason, hx, rfl⟩
    exact ⟨.error reason, last, hx, ends_pure.mpr ⟨rfl, rfl⟩⟩

theorem discard_eq_bind (x : ExceptT Fault (ExceptT ε (StateM σ)) α) :
    discard x = x >>= fun _ => pure () := by
  rw [Functor.discard, LawfulFunctor.map_const]
  exact map_eq_pure_bind _ _

/-! ## Programs that leave the files as they are -/

/-- The files after every run of a computation that comes to its end are those before it. -/
def Still (files : σ → φ) (x : ExceptT ε (StateM σ) α) : Prop :=
  ∀ w result last, Ends x w result last → files last = files w

/-- Reading a file and taking a notice leave the files as they are. Nothing is said about what asking,
writing, formatting and printing do. -/
structure Steady (files : σ → φ) (host : Host (ExceptT ε (StateM σ))) : Prop where
  read : ∀ path, Still files (host.readText path)
  tell : ∀ notice, Still files (host.tell notice)

variable {files : σ → φ} {host : Host (ExceptT ε (StateM σ))}

namespace Still

theorem pure (value : α) : Still files (Pure.pure value : ExceptT ε (StateM σ) α) := by
  intro w result last h
  obtain ⟨-, rfl⟩ := ends_pure.mp h
  rfl

theorem bind {x : ExceptT ε (StateM σ) α} {f : α → ExceptT ε (StateM σ) β} (hx : Still files x)
    (hf : ∀ value, Still files (f value)) : Still files (x >>= f) := by
  intro w result last h
  obtain ⟨value, next, hfirst, hsecond⟩ := ends_bind.mp h
  exact (hf value next result last hsecond).trans (hx w value next hfirst)

end Still

theorem closed_still : Closed (m := ExceptT ε (StateM σ)) fun _ x => Still files x :=
  ⟨Still.pure, Still.bind⟩

/-- **Extracting a collection** leaves the files as they are, however many sources there are. -/
theorem still_extractFiles (h : Steady files host) (configuration : Configuration)
    (sources : List String) : Still files (extractFiles host configuration sources).run :=
  closed_still.extractFiles configuration h.read h.tell sources

/-- A program does not fail with a fault of its input. -/
def Late (x : ExceptT Fault (ExceptT ε (StateM σ)) α) : Prop :=
  ∀ w fault last, Ends x.run w (.error fault) last → fault.ofInput = false

namespace Late

theorem pure (value : α) : Late (Pure.pure value : ExceptT Fault (ExceptT ε (StateM σ)) α) := by
  intro w fault last h
  exact absurd h (not_ends_pure nofun)

theorem lift (x : ExceptT ε (StateM σ) α) :
    Late (ExceptT.lift x : ExceptT Fault (ExceptT ε (StateM σ)) α) := by
  intro w fault last h
  exact absurd h not_ends_lift_error

theorem andThen {x : ExceptT Fault (ExceptT ε (StateM σ)) α}
    {f : α → ExceptT Fault (ExceptT ε (StateM σ)) β} (hx : Late x) (hf : ∀ value, Late (f value)) :
    Late (x >>= f) := by
  intro w fault last h
  rcases ends_program_bind.mp h with hfirst | ⟨value, next, -, hsecond⟩
  · exact hx w fault last hfirst
  · exact hf value next fault last hsecond

theorem discard {x : ExceptT Fault (ExceptT ε (StateM σ)) α} (h : Late x) : Late (discard x) := by
  rw [discard_eq_bind]
  exact andThen h fun _ => pure _

/-- Faults with files are not faults of the input. -/
theorem onPath (path : String) (x : ExceptT ε (StateM σ) (Except FileFault α)) :
    Late (onPath path x) := by
  intro w fault last h
  obtain ⟨reason, -, rfl⟩ := ends_onPath_error.mp h
  rfl

end Late

/-- A program that fails with a fault of its input has left the files as they were. -/
def Safe (files : σ → φ) (x : ExceptT Fault (ExceptT ε (StateM σ)) α) : Prop :=
  ∀ w fault last, Ends x.run w (.error fault) last → fault.ofInput = true → files last = files w

namespace Safe

/-- As long as the files are left as they are, what comes next may be safe. -/
theorem andThen {x : ExceptT Fault (ExceptT ε (StateM σ)) α}
    {f : α → ExceptT Fault (ExceptT ε (StateM σ)) β} (hx : Still files x.run)
    (hf : ∀ value, Safe files (f value)) : Safe files (x >>= f) := by
  intro w fault last h hfault
  rcases ends_program_bind.mp h with hfirst | ⟨value, next, hfirst, hsecond⟩
  · exact hx w _ last hfirst
  · exact (hf value next fault last hsecond hfault).trans (hx w _ next hfirst)

end Safe

/-- A session that only runs a program fails with it and holds what it held. -/
theorem ends_session_lift {x : ExceptT Fault (ExceptT ε (StateM σ)) α} {held after : Collection}
    {w last : σ} {outcome : Except Fault α} :
    Ends (StateT.run (Session.lift x).run held) w (outcome, after) last
      ↔ after = held ∧ Ends x.run w outcome last := by
  have hlift : StateT.run (Session.lift x).run held = x.run >>= fun found => pure (found, held) := rfl
  rw [hlift, ends_bind]
  constructor
  · rintro ⟨found, next, hx, hpair⟩
    obtain ⟨hfound, rfl⟩ := ends_pure.mp hpair
    cases hfound
    exact ⟨rfl, hx⟩
  · rintro ⟨rfl, hx⟩
    exact ⟨outcome, last, hx, ends_pure.mpr ⟨rfl, rfl⟩⟩

/-- A session that fails has failed in its first part, or in what followed the first part. -/
theorem ends_session_bind {x : Session (ExceptT ε (StateM σ)) α}
    {f : α → Session (ExceptT ε (StateM σ)) β} {held after : Collection} {w last : σ} {fault : Fault} :
    Ends (StateT.run (x >>= f).run held) w (.error fault, after) last
      ↔ Ends (StateT.run x.run held) w (.error fault, after) last
        ∨ ∃ value between next, Ends (StateT.run x.run held) w (.ok value, between) next
          ∧ Ends (StateT.run (f value).run between) next (.error fault, after) last := by
  have hbind : StateT.run (x >>= f).run held
      = StateT.run x.run held >>= fun p => StateT.run (ExceptT.bindCont f p.1) p.2 := rfl
  rw [hbind, ends_bind]
  constructor
  · rintro ⟨⟨outcome, between⟩, next, hx, hf⟩
    cases outcome with
    | ok value => exact Or.inr ⟨value, between, next, hx, hf⟩
    | error found =>
      obtain ⟨hpair, rfl⟩ := ends_pure.mp hf
      cases hpair
      exact Or.inl hx
  · rintro (hx | ⟨value, between, next, hx, hf⟩)
    · exact ⟨(.error fault, after), last, hx, ends_pure.mpr ⟨rfl, rfl⟩⟩
    · exact ⟨(.ok value, between), next, hx, hf⟩

/-- A session fails with a fault while it holds some collection. -/
def Fails (x : Session (ExceptT ε (StateM σ)) α) (held : Collection) (w : σ) (fault : Fault) (last : σ) :
    Prop :=
  ∃ after, Ends (StateT.run x.run held) w (.error fault, after) last

/-- A sequence of sessions fails in the first one, or in the second one with what the first one holds. -/
theorem fails_bind {x : Session (ExceptT ε (StateM σ)) α} {f : α → Session (ExceptT ε (StateM σ)) β}
    {held : Collection} {w last : σ} {fault : Fault} (h : Fails (x >>= f) held w fault last) :
    Fails x held w fault last
      ∨ ∃ value between next, Ends (StateT.run x.run held) w (.ok value, between) next
        ∧ Fails (f value) between next fault last := by
  obtain ⟨after, h⟩ := h
  rcases ends_session_bind.mp h with hfirst | ⟨value, between, next, hfirst, hsecond⟩
  · exact Or.inl ⟨after, hfirst⟩
  · exact Or.inr ⟨value, between, next, hfirst, after, hsecond⟩

/-- A session leaves the files as they are, whatever collection it holds. -/
def StillSession (files : σ → φ) (x : Session (ExceptT ε (StateM σ)) α) : Prop :=
  ∀ held, Still files (StateT.run x.run held)

/-- A session that fails with a fault of its input has left the files as they were. -/
def SafeSession (files : σ → φ) (x : Session (ExceptT ε (StateM σ)) α) : Prop :=
  ∀ held w fault last, Fails x held w fault last → fault.ofInput = true → files last = files w

namespace StillSession

theorem lift {x : ExceptT Fault (ExceptT ε (StateM σ)) α} (h : Still files x.run) :
    StillSession files (Session.lift x) :=
  fun _ => Still.bind h fun _ => Still.pure _

theorem pure (value : α) : StillSession files (Pure.pure value : Session (ExceptT ε (StateM σ)) α) :=
  fun _ => Still.pure _

/-- Holding another collection is no matter of files. -/
theorem set (collection : Collection) :
    StillSession files (MonadStateOf.set collection : Session (ExceptT ε (StateM σ)) PUnit) :=
  fun _ => Still.pure _

theorem andThen {x : Session (ExceptT ε (StateM σ)) α} {f : α → Session (ExceptT ε (StateM σ)) β}
    (hx : StillSession files x) (hf : ∀ value, StillSession files (f value)) :
    StillSession files (x >>= f) := by
  intro held
  refine Still.bind (hx held) ?_
  rintro ⟨outcome, between⟩
  cases outcome with
  | ok value => exact hf value between
  | error fault => exact Still.pure _

end StillSession

namespace SafeSession

theorem lift {x : ExceptT Fault (ExceptT ε (StateM σ)) α} (h : Safe files x) :
    SafeSession files (Session.lift x) := by
  rintro held w fault last ⟨after, hend⟩
  exact h w fault last (ends_session_lift.mp hend).2

theorem andThen {x : Session (ExceptT ε (StateM σ)) α} {f : α → Session (ExceptT ε (StateM σ)) β}
    (hx : StillSession files x) (hf : ∀ value, SafeSession files (f value)) :
    SafeSession files (x >>= f) := by
  intro held w fault last h hfault
  rcases fails_bind h with ⟨after, hfirst⟩ | ⟨value, between, next, hfirst, hsecond⟩
  · exact hx held w _ last hfirst
  · exact (hf value between next fault last hsecond hfault).trans (hx held w _ next hfirst)

end SafeSession

/-- On a workspace reading and notices leave the tree as it is, whatever gate guards it. -/
theorem steady_guarded (confirm : String → StateM Workspace Bool)
    (format : List String → StateM Workspace Unit)
    (gate : String → ExceptT ε (StateM Workspace) (Except FileFault Bool)) :
    Steady Workspace.tree ((Workspace.host confirm format).guarded gate) where
  read path := by
    intro w result last h
    cases h
    rfl
  tell notice := by
    intro w result last h
    cases h
    rfl

/-- A workspace on which no question can be put. -/
def silentHost : Host (ExceptT Unit (StateM Workspace)) :=
  (Workspace.host (fun _ => pure false) fun _ => pure ()).guarded fun _ =>
    pure (.error (.unasked "not a terminal"))

/-- Extraction fails: some file is the first one that cannot be read, parsed or extracted, after those
before it have been extracted into a collection. -/
def FailsExtracting (host : Host (ExceptT ε (StateM σ))) (configuration : Configuration)
    (sources : List String) (w : σ) (fault : Fault) (last : σ) : Prop :=
  ∃ front source back collection next, sources = front ++ source :: back
    ∧ Ends (extractFiles host configuration front).run w (.ok collection) next
    ∧ Ends (extractFile host configuration collection source).run next (.error fault) last

/-- A fold of programs that fails has failed at one item, after it came through those before it. -/
theorem ends_foldlM_error {f : β → α → ExceptT Fault (ExceptT ε (StateM σ)) β} {items : List α}
    {start : β} {w last : σ} {fault : Fault} :
    Ends (items.foldlM f start).run w (.error fault) last
      ↔ ∃ front item back value next, items = front ++ item :: back
        ∧ Ends (front.foldlM f start).run w (.ok value) next
        ∧ Ends (f value item).run next (.error fault) last := by
  induction items generalizing start w with
  | nil =>
    constructor
    · intro h
      exact absurd h (not_ends_pure nofun)
    · rintro ⟨front, item, back, _, _, h, -⟩
      simp at h
  | cons first rest ih =>
    rw [List.foldlM_cons, ends_program_bind]
    constructor
    · rintro (hfirst | ⟨value, next, hfirst, hrest⟩)
      · exact ⟨[], first, rest, start, w, rfl, ends_pure.mpr ⟨rfl, rfl⟩, hfirst⟩
      · obtain ⟨front, item, back, between, next', rfl, hfront, hitem⟩ := ih.mp hrest
        refine ⟨first :: front, item, back, between, next', rfl, ?_, hitem⟩
        rw [List.foldlM_cons]
        exact ends_bind.mpr ⟨.ok value, next, hfirst, hfront⟩
    · rintro ⟨front, item, back, value, next, hitems, hfront, hitem⟩
      cases front with
      | nil =>
        obtain ⟨rfl, rfl⟩ := List.cons.inj hitems
        obtain ⟨hvalue, rfl⟩ := ends_pure.mp hfront
        cases hvalue
        exact Or.inl hitem
      | cons _ front =>
        obtain ⟨rfl, rfl⟩ := List.cons.inj hitems
        rw [List.foldlM_cons] at hfront
        obtain ⟨outcome, between, hfirst, hfront⟩ := ends_bind.mp hfront
        cases outcome with
        | ok found => exact Or.inr ⟨found, between, hfirst, ih.mpr ⟨front, item, back, value, next, rfl,
            hfront, hitem⟩⟩
        | error found =>
          exact absurd hfront (not_ends_pure nofun)

theorem ends_extractFiles_error {configuration : Configuration} {sources : List String} {w last : σ}
    {fault : Fault} :
    Ends (extractFiles host configuration sources).run w (.error fault) last
      ↔ FailsExtracting host configuration sources w fault last :=
  ends_foldlM_error

/-! ## Handing over -/

/-- Of what a collection can be handed over to, only a file can fail. -/
theorem ends_deliver_error {collection : Collection} {output : Output} {w last : σ} {fault : Fault} :
    Ends (deliver host collection output).run w (.error fault) last
      ↔ ∃ path, output = .file path
        ∧ Ends (save host collection path).run w (.error fault) last := by
  cases output with
  | print =>
    constructor
    · intro h
      exact absurd h not_ends_lift_error
    · rintro ⟨path, h, -⟩
      cases h
  | keep =>
    constructor
    · intro h
      exact absurd h (not_ends_pure nofun)
    · rintro ⟨path, h, -⟩
      cases h
  | file path =>
    have hfile : deliver host collection (.file path) = save host collection path >>= fun _ => pure () :=
      discard_eq_bind _
    rw [hfile, ends_program_bind]
    constructor
    · rintro (h | ⟨value, next, -, hvalue⟩)
      · exact ⟨path, rfl, h⟩
      · exact absurd hvalue (not_ends_pure nofun)
    · rintro ⟨_, h, hsave⟩
      cases h
      exact Or.inl hsave

/-- A gate is asked only about what is there, and a question that it cannot put is the fault. -/
theorem ends_mayWrite_error {path : String} {w last : σ} {fault : Fault} :
    Ends (mayWrite host path).run w (.error fault) last
      ↔ ∃ kind next reason, Ends (host.kind? path) w (some kind) next
        ∧ Ends (host.confirm path) next (.error reason) last ∧ fault = .file path reason := by
  constructor
  · intro h
    rcases ends_program_bind.mp h with hfirst | ⟨kind, next, hkind, hrest⟩
    · exact absurd hfirst not_ends_lift_error
    · cases kind with
      | none =>
        exact absurd hrest (not_ends_pure nofun)
      | some found =>
        obtain ⟨reason, hasked, rfl⟩ := ends_onPath_error.mp hrest
        exact ⟨found, next, reason, ends_lift_ok.mp hkind, hasked, rfl⟩
  · rintro ⟨kind, next, reason, hkind, hasked, rfl⟩
    refine ends_program_bind.mpr (Or.inr ⟨some kind, next, ends_lift_ok.mpr hkind, ?_⟩)
    exact ends_onPath_error.mpr ⟨reason, hasked, rfl⟩

/-- What writing a text to a file fails at, with the fault and what the host is left in. -/
inductive FailsWriting (host : Host (ExceptT ε (StateM σ))) (path text : String) (w : σ) : Fault → σ → Prop where
  /-- Something is at the path, and whether it may be replaced cannot be asked. -/
  | asking {kind : EntryKind} {next last : σ} {reason : FileFault}
    (hkind : Ends (host.kind? path) w (some kind) next)
    (hasked : Ends (host.confirm path) next (.error reason) last) :
    FailsWriting host path text w (.file path reason) last
  /-- The directory that the file is in cannot be made. -/
  | placing {next last : σ} {fault : Fault} (hmay : Ends (mayWrite host path).run w (.ok true) next)
    (hparent : Ends (makeParent host path).run next (.error fault) last) :
    FailsWriting host path text w fault last
  /-- The file itself cannot be written. -/
  | writing {next between last : σ} {reason : FileFault}
    (hmay : Ends (mayWrite host path).run w (.ok true) next)
    (hparent : Ends (makeParent host path).run next (.ok ()) between)
    (hwrite : Ends (host.writeText path text) between (.error reason) last) :
    FailsWriting host path text w (.file path reason) last

/-- **Writing a file fails** in these three ways. -/
theorem ends_createFile_error {path text : String} {w last : σ} {fault : Fault} :
    Ends (createFile host path text).run w (.error fault) last ↔ FailsWriting host path text w fault last := by
  rw [createFile_eq, ends_program_bind, ends_mayWrite_error]
  constructor
  · rintro (⟨kind, next, reason, hkind, hasked, rfl⟩ | ⟨may, next, hmay, hrest⟩)
    · exact .asking hkind hasked
    cases may with
    | false =>
      exact absurd hrest (not_ends_pure nofun)
    | true =>
      rcases ends_program_bind.mp hrest with hplacing | ⟨_, between, hparent, hrest⟩
      · exact .placing hmay hplacing
      rcases ends_program_bind.mp hrest with hwriting | ⟨_, _, -, hpure⟩
      · obtain ⟨reason, hwrite, rfl⟩ := ends_onPath_error.mp hwriting
        exact .writing hmay hparent hwrite
      · exact absurd hpure (not_ends_pure nofun)
  · intro h
    cases h with
    | asking hkind hasked => exact Or.inl ⟨_, _, _, hkind, hasked, rfl⟩
    | placing hmay hparent => exact Or.inr ⟨true, _, hmay, ends_program_bind.mpr (Or.inl hparent)⟩
    | writing hmay hparent hwrite =>
      refine Or.inr ⟨true, _, hmay, ends_program_bind.mpr (Or.inr ⟨⟨⟩, _, hparent, ?_⟩)⟩
      exact ends_program_bind.mpr (Or.inl (ends_onPath_error.mpr ⟨_, hwrite, rfl⟩))

/-- Saving a collection in a file fails: the name of the file is of no known format, or writing it fails. -/
def FailsSaving (host : Host (ExceptT ε (StateM σ))) (collection : Collection) (path : String) (w : σ)
    (fault : Fault) (last : σ) : Prop :=
  (Persistence.formatOf path = .error fault ∧ w = last)
    ∨ ∃ format, Persistence.formatOf path = .ok (some format)
      ∧ FailsWriting host path (Persistence.render format collection) w fault last

theorem ends_save_error {collection : Collection} {path : String} {w last : σ} {fault : Fault} :
    Ends (save host collection path).run w (.error fault) last ↔ FailsSaving host collection path w fault last := by
  rw [save, ends_program_bind]
  refine or_congr ends_pure ⟨?_, ?_⟩
  · rintro ⟨format?, next, hfound, hrest⟩
    obtain ⟨hformat, rfl⟩ := ends_pure.mp hfound
    cases format? with
    | some format => exact ⟨format, hformat, ends_createFile_error.mp hrest⟩
    | none =>
      rcases ends_program_bind.mp hrest with htell | ⟨_, _, -, hpure⟩
      · exact absurd htell not_ends_lift_error
      · exact absurd hpure (not_ends_pure nofun)
  · rintro ⟨format, hformat, hwriting⟩
    exact ⟨some format, w, ends_pure.mpr ⟨hformat, rfl⟩, ends_createFile_error.mpr hwriting⟩

/-- **What is held after a failure**: a run fails with a file that cannot be extracted and holds what it
held before, or it fails to save, be it that a question about the file cannot be put, and holds the new
collection, of all files. It fails in no other way. -/
theorem parseCode_fails_iff {configuration : Configuration} {sources : List String} {output : Output}
    {held after : Collection} {w last : σ} {fault : Fault} :
    Ends (StateT.run (parseCode host configuration sources output).run held) w (.error fault, after) last
      ↔ (after = held ∧ FailsExtracting host configuration sources w fault last)
        ∨ ∃ path next, output = .file path
          ∧ Ends (extractFiles host configuration sources).run w (.ok after) next
          ∧ FailsSaving host after path next fault last := by
  rw [parseCode, ends_session_bind, ends_session_lift, ends_extractFiles_error]
  refine or_congr_right ⟨?_, ?_⟩
  · rintro ⟨collection, between, next, hfirst, hrest⟩
    obtain ⟨rfl, hextract⟩ := ends_session_lift.mp hfirst
    rcases ends_session_bind.mp hrest with hset | ⟨_, _, _, hset, hrest⟩
    · exact absurd hset (not_ends_pure nofun)
    · obtain ⟨hset, rfl⟩ := ends_pure.mp hset
      cases hset
      rcases ends_session_bind.mp hrest with hdeliver | ⟨_, _, _, -, hreturn⟩
      · obtain ⟨rfl, hdeliver⟩ := ends_session_lift.mp hdeliver
        obtain ⟨path, rfl, hsave⟩ := ends_deliver_error.mp hdeliver
        exact ⟨path, next, rfl, hextract, ends_save_error.mp hsave⟩
      · exact absurd hreturn (not_ends_pure nofun)
  · rintro ⟨path, next, rfl, hextract, hsave⟩
    have hdeliver := ends_deliver_error.mpr ⟨path, rfl, ends_save_error.mpr hsave⟩
    refine ⟨after, held, next, ends_session_lift.mpr ⟨rfl, hextract⟩, ?_⟩
    refine ends_session_bind.mpr (Or.inr ⟨⟨⟩, after, next, ends_pure.mpr ⟨rfl, rfl⟩, ?_⟩)
    exact ends_session_bind.mpr (Or.inl (ends_session_lift.mpr ⟨rfl, hdeliver⟩))

/-- A workspace with two sources. -/
def twoSources : Workspace where
  tree := .directory [("first.py", .file "class First:\n    pass\n"),
    ("second.py", .file "class Second:\n    pass\n")]

/-- What is extracted from the first source. -/
def firstHeld : Collection := ⟨[{ name := "First", location := "first.py" }]⟩

/-- What is extracted from the second source. -/
def secondHeld : Collection := ⟨[{ name := "Second", location := "second.py" }]⟩

/-- The run over one of the sources. -/
def parseOne (source : String) (output : Output) (held : Collection) :
    ExceptT Unit (StateM Workspace) (Except Fault Collection × Collection) :=
  StateT.run (parseCode silentHost { projectRoot := "/p" } [source] output).run held

/-- A run that cannot save what it extracted does not go back to what was held before it. -/
theorem parseCode_holds_unsaved :
    firstHeld ≠ secondHeld
      ∧ ∃ next last, Ends (parseOne "first.py" .keep {}) twoSources (.ok firstHeld, firstHeld) next
        ∧ Ends (parseOne "second.py" (.file "ir.txt") firstHeld) next
          (.error (.unsupportedFormat "txt" "ir.txt"), secondHeld) last := by
  have hkeep : Ends (parseOne "first.py" .keep {}) twoSources (.ok firstHeld, firstHeld) _ :=
    ends_of_outcome (by decide +kernel)
  have hsave : Ends (parseOne "second.py" (.file "ir.txt") firstHeld)
      (StateT.run (parseOne "first.py" .keep {}).run twoSources).2
      (.error (.unsupportedFormat "txt" "ir.txt"), secondHeld) _ :=
    ends_of_outcome (by decide +kernel)
  exact ⟨by decide, _, _, hkeep, hsave⟩

/-- A workspace with a source and a collection that was kept before. -/
def keptSource : Workspace where
  tree := .directory [("second.py", .file "class Second:\n    pass\n"), ("ir.json", .file "\x7b\x7d")]

/-- A run that cannot ask whether the kept collection may be replaced fails with that and holds what it extracted. -/
theorem parseCode_fails_unasked :
    ∃ last, Ends (parseOne "second.py" (.file "ir.json") firstHeld) keptSource
        (.error (.prompt "ir.json" "not a terminal"), secondHeld) last
      ∧ secondHeld ≠ firstHeld ∧ last.tree = keptSource.tree
      ∧ (Fault.prompt "ir.json" "not a terminal").message = "overwrite prompt failed: not a terminal" := by
  obtain ⟨last, hextract⟩ : ∃ last, Ends (extractFiles silentHost { projectRoot := "/p" } ["second.py"]).run
      keptSource (.ok secondHeld) last := ⟨_, ends_of_outcome (by decide +kernel)⟩
  have htree : last.tree = keptSource.tree :=
    still_extractFiles (steady_guarded _ _ _) _ _ _ _ _ hextract
  have hfile : Workspace.kindIn "ir.json" last.tree = some .file := by
    rw [htree]
    decide +kernel
  have hkind : Ends (silentHost.kind? "ir.json") last (some .file) last :=
    Prod.ext (congrArg Except.ok hfile) rfl
  have hformat : Persistence.formatOf "ir.json" = .ok (some .json) := by decide +kernel
  have hsaving : FailsSaving silentHost secondHeld "ir.json" last (.prompt "ir.json" "not a terminal") last :=
    Or.inr ⟨.json, hformat, .asking hkind rfl⟩
  exact ⟨last, parseCode_fails_iff.mpr (Or.inr ⟨"ir.json", last, rfl, hextract, hsaving⟩), by decide, htree, by decide⟩

end Workflow

end ClassCli
