import ClassCli.Proofs.Text.Trimming
import ClassCli.Text.Lowercase
import ClassCli.Text.Identifier

/-!
# Lower case and ASCII names

No character turns into one that stands before the capital letters, so that punctuation in the lower-case
form of a text was there before. An ASCII identifier consists of letters, digits and underscores alone, so
that it has no white space, no punctuation and no mark of a layout in it.

* **`mem_of_mem_lower`** — punctuation of the lower-case form is punctuation of the text.
* **`edged_name`**, **`not_mem_name`**, **`isWord_of_mem_name`** — what follows for the characters of a name.
-/

namespace ClassCli.Text

/-- Whether a run of characters has lower-case forms that are characters behind the capital letters. -/
def SafeRun (run : Nat × Nat × Nat × Int) : Prop :=
  (65 : Int) ≤ run.1 + run.2.2.2
    ∧ ((run.2.1 : Int) + run.2.2.2 < 0xd800
      ∨ (0xdfff : Int) < run.1 + run.2.2.2 ∧ (run.2.1 : Int) + run.2.2.2 < 0x110000)

theorem lowercaseRuns_safe : ∀ run ∈ lowercaseRuns, SafeRun run := by
  unfold SafeRun
  decide +kernel

/-- Whether a run has a character. -/
def InRun (run : Nat × Nat × Nat × Int) (n : Nat) : Prop :=
  run.1 ≤ n ∧ n ≤ run.2.1 ∧ (n - run.1) % run.2.2.1 = 0

theorem exists_run_of_lowercaseShift {runs : List (Nat × Nat × Nat × Int)} {n : Nat} {shift : Int}
    (h : lowercaseShift runs n = some shift) : ∃ run ∈ runs, InRun run n ∧ run.2.2.2 = shift := by
  induction runs with
  | nil => cases h
  | cons run rest ih =>
    obtain ⟨first, last, step, distance⟩ := run
    rw [lowercaseShift] at h
    split at h
    · cases h
    · split at h
      · rename_i hfirst hrun
        cases h
        rw [Bool.and_eq_true, decide_eq_true_iff, beq_iff_eq] at hrun
        exact ⟨_, List.mem_cons_self, ⟨Nat.not_lt.mp hfirst, hrun⟩, rfl⟩
      · obtain ⟨run, hrun, hmem⟩ := ih h
        exact ⟨run, List.mem_cons_of_mem _ hrun, hmem⟩

theorem lowercaseShift_safe {runs : List (Nat × Nat × Nat × Int)} (h : ∀ run ∈ runs, SafeRun run) {n : Nat}
    {shift : Int} (hs : lowercaseShift runs n = some shift) :
    65 ≤ (n : Int) + shift ∧ ((n : Int) + shift).toNat.isValidChar := by
  obtain ⟨run, hrun, ⟨hfirst, hlast, -⟩, rfl⟩ := exists_run_of_lowercaseShift hs
  obtain ⟨hlow, hvalid⟩ := h run hrun
  unfold Nat.isValidChar
  omega

theorem toNat_toLower_of_ne {c : Char} (h : c.toLower ≠ c) : 97 ≤ c.toLower.toNat := by
  by_cases hrange : c.val ≥ 'A'.val ∧ c.val ≤ 'Z'.val
  · have hlow : (65 : Nat) ≤ c.val.toNat := hrange.1
    have hhigh : c.val.toNat ≤ 90 := hrange.2
    have hsum : c.toLower.toNat = (c.val + 32).toNat := by
      delta Char.toLower
      rw [dif_pos hrange]
      rfl
    have hword : (32 : UInt32).toNat = 32 := rfl
    rw [hsum, UInt32.toNat_add]
    omega
  · refine absurd ?_ h
    delta Char.toLower
    rw [dif_neg hrange]

/-- A character before the letters is the lower-case form of itself only. -/
theorem eq_of_lowerChar_eq {c mark : Char} (hmark : mark.toNat < 65) (h : lowerChar c = mark) :
    c = mark := by
  unfold lowerChar at h
  split at h
  · by_cases hlower : c.toLower = c
    · exact hlower.symm.trans h
    · have hlarge := toNat_toLower_of_ne hlower
      rw [h] at hlarge
      omega
  · split at h
    · rename_i shift hshift
      obtain ⟨hlow, hvalid⟩ := lowercaseShift_safe lowercaseRuns_safe hshift
      have hnat : (Char.ofNat ((c.toNat : Int) + shift).toNat).toNat = ((c.toNat : Int) + shift).toNat := by
        rw [Char.ofNat, dif_pos hvalid]
        rfl
      rw [h] at hnat
      omega
    · exact h

/-- **A character before the letters is met in the lower-case form only where the text has it.** -/
theorem mem_of_mem_lower {mark : Char} (hmark : mark.toNat < 65) {text : List Char}
    (h : mark ∈ lower text) : mark ∈ text := by
  have hfrom : ∀ (text before : List Char), mark ∈ lowerFrom before text → mark ∈ text := by
    intro text
    induction text with
    | nil =>
      intro before hmem
      exact hmem
    | cons c rest ih =>
      intro before hmem
      rw [lowerFrom] at hmem
      rcases List.mem_append.mp hmem with hform | hrest
        -- the special forms of a letter lie beyond the marks, so the character has its plain form
      · have hc : c = mark := by
          split at hform
          · rename_i hdotted
            rcases List.mem_cons.mp hform with rfl | hform
            · exact absurd hmark (by decide)
            · obtain rfl := List.mem_singleton.mp hform
              exact absurd hmark (by decide)
          · split at hform
            · split at hform
              · obtain rfl := List.mem_singleton.mp hform
                exact absurd hmark (by decide)
              · obtain rfl := List.mem_singleton.mp hform
                exact absurd hmark (by decide)
            · exact eq_of_lowerChar_eq hmark (List.mem_singleton.mp hform).symm
        exact hc ▸ List.mem_cons_self
      · exact List.mem_cons_of_mem c (ih (c :: before) hrest)
  exact hfrom text [] h

variable {c : Char} {name : List Char}

theorem isAsciiNamePart_of_start (h : isAsciiNameStart c = true) : isAsciiNamePart c = true := by
  rw [isAsciiNameStart, Bool.or_eq_true] at h
  rw [isAsciiNamePart, Bool.or_eq_true, Char.isAlphanum, Bool.or_eq_true]
  exact h.imp_left Or.inl

theorem isAsciiNamePart_of_mem (h : isAsciiName name = true) : ∀ c ∈ name, isAsciiNamePart c = true := by
  cases name with
  | nil => exact List.forall_mem_nil _
  | cons first rest =>
    rw [isAsciiName, Bool.and_eq_true, List.all_eq_true] at h
    intro c hc
    rcases List.mem_cons.mp hc with rfl | hc
    · exact isAsciiNamePart_of_start h.1
    · exact h.2 c hc

theorem name_ne_nil (h : isAsciiName name = true) : name ≠ [] := by
  rintro rfl
  cases h

theorem toNat_of_isUpper (h : c.isUpper = true) : 65 ≤ c.toNat ∧ c.toNat ≤ 90 := of_decide_eq_true h

theorem toNat_of_isLower (h : c.isLower = true) : 97 ≤ c.toNat ∧ c.toNat ≤ 122 := by
  obtain ⟨hlow, hhigh⟩ := Bool.and_eq_true_iff.mp h
  exact ⟨of_decide_eq_true hlow, of_decide_eq_true hhigh⟩

theorem toNat_of_isDigit (h : c.isDigit = true) : 48 ≤ c.toNat ∧ c.toNat ≤ 57 := by
  obtain ⟨hlow, hhigh⟩ := Bool.and_eq_true_iff.mp h
  exact ⟨of_decide_eq_true hlow, of_decide_eq_true hhigh⟩

/-- The codes of letters, digits and the underscore. -/
theorem toNat_of_isAsciiNamePart (h : isAsciiNamePart c = true) :
    48 ≤ c.toNat ∧ c.toNat < 128 := by
  rw [isAsciiNamePart, Bool.or_eq_true, Char.isAlphanum, Bool.or_eq_true, beq_iff_eq] at h
  rcases h with (hletter | hdigit) | rfl
  · have hcase : c.isUpper = true ∨ c.isLower = true := Bool.or_eq_true_iff.mp hletter
    rcases hcase with hupper | hlower
    · have hcode := toNat_of_isUpper hupper
      omega
    · have hcode := toNat_of_isLower hlower
      omega
  · have hcode := toNat_of_isDigit hdigit
    omega
  · decide

theorem isBlank_of_isAsciiNamePart (h : isAsciiNamePart c = true) : isBlank c = false := by
  obtain ⟨hlow, hhigh⟩ := toNat_of_isAsciiNamePart h
  rw [isBlank, if_pos hhigh]
  simp only [Bool.or_eq_false_iff, beq_eq_false_iff_ne, Bool.and_eq_false_iff, decide_eq_false_iff_not]
  omega

theorem isWord_of_mem_name (h : isAsciiName name = true) : ∀ c ∈ name, isWord c = true := by
  intro c hc
  have hpart := isAsciiNamePart_of_mem h c hc
  rw [isWord, if_pos (toNat_of_isAsciiNamePart hpart).2]
  exact hpart

/-- No other character is in a name. -/
theorem not_mem_name (h : isAsciiName name = true) (hc : isAsciiNamePart c = false) : c ∉ name := by
  intro hmem
  rw [isAsciiNamePart_of_mem h c hmem] at hc
  cases hc

theorem isBlank_of_mem_name (h : isAsciiName name = true) : ∀ c ∈ name, isBlank c = false :=
  fun c hc => isBlank_of_isAsciiNamePart (isAsciiNamePart_of_mem h c hc)

theorem edged_name (h : isAsciiName name = true) : Edged name :=
  edged_of_visible (name_ne_nil h) (isBlank_of_mem_name h)

end ClassCli.Text
