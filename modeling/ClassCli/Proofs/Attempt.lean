import ClassCli.Attempt

/-!
# Attempts that succeed

A sequence of steps succeeds exactly if each of them does, each with the result of the one before it, and
otherwise it fails as the first step that fails.

* **`run_exceptT_bind`** — a sequence of two steps on a state.
* **`Attempt.value_bind_eq_ok`**, **`Attempt.value_bind_eq_error`** — how a sequence of two steps ends.
* **`Attempt.foldlM_keeps`** — what every step of a run keeps is kept by the run.
* **`Noted.value_mapM`** — the values of computations that cannot fail.
-/

namespace ClassCli

variable {α β : Type}

theorem except_bind_eq_ok {ε : Type} {x : Except ε α} {f : α → Except ε β} {result : β} :
    x >>= f = .ok result ↔ ∃ value, x = .ok value ∧ f value = .ok result := by
  cases x with
  | error fault =>
    constructor
    · intro h
      cases h
    · rintro ⟨value, hx, -⟩
      cases hx
  | ok value =>
    constructor
    · intro h
      exact ⟨value, rfl, h⟩
    · rintro ⟨other, hx, h⟩
      cases hx
      exact h

theorem except_bind_eq_error {ε : Type} {x : Except ε α} {f : α → Except ε β} {fault : ε} :
    x >>= f = .error fault
      ↔ x = .error fault ∨ ∃ value, x = .ok value ∧ f value = .error fault := by
  cases x with
  | error other =>
    constructor
    · intro h
      cases h
      exact Or.inl rfl
    · rintro (h | ⟨value, hx, -⟩)
      · cases h
        rfl
      · cases hx
  | ok value =>
    constructor
    · intro h
      exact Or.inr ⟨value, rfl, h⟩
    · rintro (h | ⟨other, hx, h⟩)
      · cases h
      · cases hx
        exact h

/-! ## Steps on a state -/

section State

variable {σ ε : Type}

/-- The second step runs on the state after the first one, unless that one has failed. -/
theorem run_exceptT_bind (x : ExceptT ε (StateM σ) α) (f : α → ExceptT ε (StateM σ) β) (state : σ) :
    StateT.run (x >>= f).run state = match StateT.run x.run state with
      | (.ok value, next) => StateT.run (f value).run next
      | (.error failure, next) => (.error failure, next) := by
  have hbind : StateT.run (x >>= f).run state = StateT.run (ExceptT.bindCont f (StateT.run x.run state).1)
      (StateT.run x.run state).2 := rfl
  rw [hbind]
  obtain ⟨outcome, next⟩ := StateT.run x.run state
  cases outcome with
  | ok value => rfl
  | error failure => rfl

/-- A sequence succeeds exactly if both steps do, the second one on the state after the first. -/
theorem run_exceptT_bind_eq_ok {x : ExceptT ε (StateM σ) α} {f : α → ExceptT ε (StateM σ) β}
    {state last : σ} {result : β} :
    StateT.run (x >>= f).run state = (.ok result, last)
      ↔ ∃ value next, StateT.run x.run state = (.ok value, next)
        ∧ StateT.run (f value).run next = (.ok result, last) := by
  rw [run_exceptT_bind]
  constructor
  · intro h
    split at h
    · rename_i value next hx
      exact ⟨value, next, hx, h⟩
    · cases h
  · rintro ⟨value, next, hx, h⟩
    rw [hx]
    exact h

end State

/-! ## Attempts -/

namespace Attempt

theorem value_bind (x : Attempt α) (f : α → Attempt β) :
    (x >>= f).run.value = x.run.value >>= fun value => (f value).run.value := by
  show (ExceptT.bindCont f x.run.value : Noted (Except Fault β)).value = _
  cases x.run.value with
  | ok value => rfl
  | error fault => rfl

theorem value_bind_eq_ok {x : Attempt α} {f : α → Attempt β} {result : β} :
    (x >>= f).run.value = .ok result
      ↔ ∃ value, x.run.value = .ok value ∧ (f value).run.value = .ok result := by
  rw [value_bind, except_bind_eq_ok]

/-- A sequence fails exactly if the first step does, or the second one with its result. -/
theorem value_bind_eq_error {x : Attempt α} {f : α → Attempt β} {fault : Fault} :
    (x >>= f).run.value = .error fault
      ↔ x.run.value = .error fault
        ∨ ∃ value, x.run.value = .ok value ∧ (f value).run.value = .error fault := by
  rw [value_bind, except_bind_eq_error]

/-- What every step keeps is kept by all of them. -/
theorem foldlM_keeps {σ : Type} {f : σ → α → Attempt σ} {P : σ → Prop} {items : List α}
    (hkeeps : ∀ x ∈ items, ∀ state next, P state → (f state x).run.value = .ok next → P next)
    {state result : σ} (hstate : P state) (h : (items.foldlM f state).run.value = .ok result) :
    P result := by
  induction items generalizing state with
  | nil =>
    cases h
    exact hstate
  | cons x rest ih =>
    rw [List.foldlM_cons] at h
    obtain ⟨next, hnext, h⟩ := value_bind_eq_ok.mp h
    have hfirst : P next := hkeeps x List.mem_cons_self state next hstate hnext
    exact ih (fun y hy => hkeeps y (List.mem_cons_of_mem x hy)) hfirst h

end Attempt

namespace Noted

/-- Each step gives its value, whatever it tells. -/
theorem value_mapM (f : α → Noted β) (items : List α) :
    (items.mapM f).value = items.map fun x => (f x).value := by
  have hloop : ∀ (items : List α) (done : List β),
      (List.mapM.loop f items done).value = done.reverse ++ items.map fun x => (f x).value := by
    intro items
    induction items with
    | nil =>
      intro done
      rw [List.mapM.loop, value_pure, List.map_nil, List.append_nil]
    | cons x rest ih =>
      intro done
      rw [List.mapM.loop, value_bind, ih, List.reverse_cons, List.append_assoc, List.map_cons,
        List.singleton_append]
  exact hloop items []

end Noted

end ClassCli
