import ClassCli.Extraction

/-!
# Extractors

An extractor reads one outline after the other and keeps the modules that it finds. All classes of an
outline are looked at before the first of their modules is kept.

* **`Extractor.read`** — reads one more outline.
-/

namespace ClassCli.Extraction

open Interface (Collection Module)
open Outline (Node)

/-- What reads outlines: how it does so, and the modules that it has found so far. -/
structure Extractor where
  settings : Settings
  modules : Collection := {}
  deriving Repr, Inhabited

/-- A computation with an extractor, which is there afterwards also if the computation fails. -/
abbrev Extracting := ExceptT Fault (StateT Extractor Noted)

namespace Extractor

/-- What does not touch the extractor. -/
def lift {α : Type} (x : Attempt α) : Extracting α := ExceptT.mk (StateT.lift x.run)

/-- Keeps one more module. -/
def keep (m : Module) : Extracting Unit := modify fun e => { e with modules := e.modules ++ ⟨[m]⟩ }

/-- Reads an outline and keeps the modules of its classes. -/
def read (outline : List Node) (location : String) : Extracting Unit := do
  let e ← get
  let (found, _) ← lift (modulesOfAll e.settings location {} outline)
  found.forM keep

end Extractor

end ClassCli.Extraction
