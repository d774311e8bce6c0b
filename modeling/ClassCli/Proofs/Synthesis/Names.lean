import ClassCli.Interface.Basic
import ClassCli.Synthesis.Naming

/-!
# Names that pass the check

A name that may be part of a function name holds no white space, so that it ends where the word that it
belongs to ends.

* **`checkName_eq_ok`** — what the check guarantees.
* **`firstWord_append`** — the first word of a line that starts with such a name.
-/

namespace ClassCli.Synthesis

theorem append_ne_empty_right (front : String) {back : String} (h : back ≠ "") :
    front ++ back ≠ "" := by
  simp [h]

/-- The characters of a line up to the first space. -/
def firstWord (text : String) : List Char := text.toList.takeWhile (· != ' ')

/-- A word holds no white space. -/
def Unbroken (word : String) : Prop := ∀ c ∈ word.toList, Text.isBlank c = false

instance (word : String) : Decidable (Unbroken word) :=
  List.decidableBAll (fun c => Text.isBlank c = false) word.toList

theorem checkName_eq_ok {name : String} (h : checkName name = .ok ()) : Unbroken name := by
  have hnone : nameFault? name = none := by
    unfold checkName at h
    split at h
    · assumption
    · cases h
  intro c hc
  cases hb : Text.isBlank c with
  | false => rfl
  | true =>
    have hany : name.toList.any Text.isBlank = true := List.any_eq_true.mpr ⟨c, hc, hb⟩
    unfold nameFault? at hnone
    rw [hany] at hnone
    split at hnone
    · cases hnone
    · cases hnone

theorem Unbroken.of_append_right {front back : String} (h : Unbroken (front ++ back)) :
    Unbroken back := by
  intro c hc
  exact h c (by simp [hc])

theorem Unbroken.append {front back : String} (hf : Unbroken front) (hb : Unbroken back) :
    Unbroken (front ++ back) := by
  intro c hc
  rw [String.toList_append] at hc
  rcases List.mem_append.mp hc with hc | hc
  · exact hf c hc
  · exact hb c hc

theorem Unbroken.ne_space {word : String} (h : Unbroken word) :
    ∀ c ∈ word.toList, (c != ' ') = true := by
  intro c hc
  have hblank : Text.isBlank c = false := h c hc
  rw [bne_iff_ne]
  rintro rfl
  exact absurd hblank (by decide)

/-- A line that starts with an unbroken word has at least that word first. -/
theorem firstWord_append {word : String} (h : Unbroken word) (rest : String) :
    firstWord (word ++ rest) = word.toList ++ firstWord rest := by
  rw [firstWord, String.toList_append, List.takeWhile_append_of_pos h.ne_space]
  rfl

/-- The names of modules that are typed: a module is only named if there are several. -/
def typedNames : List Interface.Module → List String
  | [] | [_] => []
  | modules => modules.map (·.name)

end ClassCli.Synthesis
