import ClassCli.Fault
import ClassCli.Notice

/-!
# Attempts

A computation that gives notices on its way and can end in a fault. The notices given before a fault
are kept.

* **`Attempt.ofNoted`**, **`Attempt.ofExcept`**, **`Attempt.fail`** — the ways to make one.
-/

namespace ClassCli

/-- A computation that gives notices and can fail. -/
abbrev Attempt := ExceptT Fault Noted

namespace Attempt

variable {α : Type}

/-- A computation that only gives notices. -/
def ofNoted (x : Noted α) : Attempt α := ExceptT.mk ⟨.ok x.value, x.notices⟩

/-- A computation that gives no notices. -/
def ofExcept (x : Except Fault α) : Attempt α := ExceptT.mk ⟨x, []⟩

/-- Fails with a fault and the notices given beside it. -/
def fail (fault : Fault) (notices : List Notice := []) : Attempt α :=
  ExceptT.mk ⟨.error fault, notices⟩

end Attempt

end ClassCli
