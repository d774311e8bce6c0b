import ClassCli.Proofs.Text.Letters

/-!
# Texts in lower case

A text in lower case stays as it is when it is turned into lower case again, also as a part of a longer text:
what the conversion writes are characters that have no lower-case form of their own, and none of them is one of
the two letters whose form is not that of a single character. White space is not touched.

* **`Settled`** — characters that stay as they are wherever they stand.
* **`settled_of_mem_lower`**, **`lower_of_settled`** — a text in lower case stays as it is.
* **`any_isBlank_lower`** — white space is neither lost nor made.
-/

namespace ClassCli.Text

/-- A character that the conversion to lower case leaves as it is wherever it stands. -/
def Settled (c : Char) : Prop := c ≠ '\u0130' ∧ c ≠ '\u03a3' ∧ lowerChar c = c

instance (c : Char) : Decidable (Settled c) := inferInstanceAs (Decidable (_ ∧ _ ∧ _))

/-- A character turns into one that stays as it is, and neither of them is white space. -/
def Settles (c form : Char) : Prop := Settled form ∧ isBlank c = false ∧ isBlank form = false

instance (c form : Char) : Decidable (Settles c form) := inferInstanceAs (Decidable (_ ∧ _ ∧ _))

/-! ## Single characters -/

/-- The first and the last of the forms of a run. -/
def forms (run : Nat × Nat × Nat × Int) : Nat × Nat :=
  (((run.1 : Int) + run.2.2.2).toNat, ((run.2.1 : Int) + run.2.2.2).toNat)

/-- Whether two ranges of characters have none in common. -/
def apart (range other : Nat × Nat) : Bool := Nat.blt range.2 other.1 || Nat.blt other.2 range.1

/-- Whether the forms of a run are characters of the other kind than those of another run, which has every
second character of its range. -/
def alternates (run other : Nat × Nat × Nat × Int) : Bool :=
  (Nat.beq run.2.2.1 2 || Nat.beq (forms run).1 (forms run).2) && Nat.beq other.2.2.1 2
    && Nat.beq ((forms run).1 % 2 + other.1 % 2) 1

/-- Ranges that hold all white space beyond the first 128 characters. -/
def blankRanges : List (Nat × Nat) :=
  [(0x85, 0x85), (0xa0, 0xa0), (0x1680, 0x1680), (0x2000, 0x200a), (0x2028, 0x202f), (0x205f, 0x205f),
    (0x3000, 0x3000)]

theorem lowercaseRuns_beyond : ∀ run ∈ lowercaseRuns,
    128 ≤ run.1 ∧ 97 ≤ (forms run).1 ∧ apart (forms run) (0x130, 0x130) = true
      ∧ ∀ range ∈ blankRanges, apart (run.1, run.2.1) range = true ∧ apart (forms run) range = true := by
  decide +kernel

/-- The forms of all runs lie beyond or between the characters of all runs. -/
theorem lowercaseRuns_apart : (lowercaseRuns.all fun run => lowercaseRuns.all fun other =>
    apart (forms run) (other.1, other.2.1) || alternates run other) = true := by
  decide +kernel

theorem ne_of_apart {range other : Nat × Nat} (h : apart range other = true) {n : Nat}
    (hn : range.1 ≤ n ∧ n ≤ range.2) : ¬(other.1 ≤ n ∧ n ≤ other.2) := by
  simp only [apart, Bool.or_eq_true, Nat.blt_eq] at h
  omega

theorem exists_range_of_isBlank {c : Char} (h : isBlank c = true) :
    c.toNat ≤ 32 ∨ ∃ range ∈ blankRanges, range.1 ≤ c.toNat ∧ c.toNat ≤ range.2 := by
  simp only [isBlank] at h
  simp only [blankRanges, List.mem_cons, List.not_mem_nil, or_false, exists_eq_or_imp, exists_eq_left]
  split at h
  · simp only [Bool.or_eq_true, Bool.and_eq_true, beq_iff_eq, decide_eq_true_iff] at h
    omega
  · simp only [Bool.or_eq_true, Bool.and_eq_true, beq_iff_eq, decide_eq_true_iff] at h
    omega

theorem isBlank_of_apart {range : Nat × Nat} (hrange : 97 ≤ range.1)
    (h : ∀ other ∈ blankRanges, apart range other = true) {c : Char} (hc : range.1 ≤ c.toNat ∧ c.toNat ≤ range.2) :
    isBlank c = false := by
  rw [Bool.eq_false_iff]
  intro hblank
  rcases exists_range_of_isBlank hblank with hlow | ⟨other, hother, hmem⟩
  · omega
  · exact ne_of_apart (h other hother) hc hmem

/-- **No form has a form of its own.** -/
theorem lowercaseShift_form {run : Nat × Nat × Nat × Int} (hrun : run ∈ lowercaseRuns) {n : Nat} (hn : InRun run n) :
    lowercaseShift lowercaseRuns ((n : Int) + run.2.2.2).toNat = none := by
  cases hshift : lowercaseShift lowercaseRuns ((n : Int) + run.2.2.2).toNat with
  | none => rfl
  | some shift =>
    obtain ⟨other, hother, ⟨hfirst, hlast, hstep⟩, -⟩ := exists_run_of_lowercaseShift hshift
    have hpair := List.all_eq_true.mp (List.all_eq_true.mp lowercaseRuns_apart run hrun) other hother
    obtain ⟨-, hlow, -⟩ := lowercaseRuns_beyond run hrun
    obtain ⟨hleast, hmost, heven⟩ := hn
    simp only [apart, alternates, forms, Bool.or_eq_true, Bool.and_eq_true, Nat.blt_eq, Nat.beq_eq] at hpair hlow
    rcases hpair with hapart | ⟨⟨htwo | hone, hsecond⟩, hkind⟩
    · omega
    · rw [htwo] at heven
      rw [hsecond] at hstep
      omega
    · rw [hsecond] at hstep
      omega

theorem smallLetters_kept : ∀ n < 128, 97 ≤ n → (Char.ofNat n).toLower = Char.ofNat n := by
  decide +kernel

theorem settles_of_lowercaseShift {c : Char} {shift : Int} (h : lowercaseShift lowercaseRuns c.toNat = some shift) :
    Settles c (Char.ofNat ((c.toNat : Int) + shift).toNat) := by
  obtain ⟨run, hrun, hmem, rfl⟩ := exists_run_of_lowercaseShift h
  have hvalid := (lowercaseShift_safe lowercaseRuns_safe h).2
  obtain ⟨hbeyond, hlow, hdotted, hblank⟩ := lowercaseRuns_beyond run hrun
  have hform := lowercaseShift_form hrun hmem
  obtain ⟨hfirst, hlast, -⟩ := hmem
  have hnat : (Char.ofNat ((c.toNat : Int) + run.2.2.2).toNat).toNat = ((c.toNat : Int) + run.2.2.2).toNat := by
    rw [Char.ofNat, dif_pos hvalid]
    rfl
  rw [← hnat] at hform
  have hrange : (forms run).1 ≤ (Char.ofNat ((c.toNat : Int) + run.2.2.2).toNat).toNat
      ∧ (Char.ofNat ((c.toNat : Int) + run.2.2.2).toNat).toNat ≤ (forms run).2 := by
    rw [hnat]
    simp only [forms] at hlow ⊢
    omega
  revert hform hrange
  generalize Char.ofNat ((c.toNat : Int) + run.2.2.2).toNat = form
  intro hform hrange
  refine ⟨⟨?_, ?_, ?_⟩, ?_, ?_⟩
  · rintro rfl
    exact ne_of_apart hdotted hrange (by decide)
  · rintro rfl
    exact absurd hform (by decide +kernel)
  · unfold lowerChar
    split
    · rename_i hascii
      have hsmall := smallLetters_kept form.toNat hascii (Nat.le_trans hlow hrange.1)
      rwa [Char.ofNat_toNat] at hsmall
    · rw [hform]
  · exact isBlank_of_apart (by omega) (fun other ho => (hblank other ho).1) ⟨hfirst, hlast⟩
  · exact isBlank_of_apart hlow (fun other ho => (hblank other ho).2) hrange

theorem asciiForms_settle : ∀ n < 128,
    lowerChar (Char.ofNat n) = Char.ofNat n ∨ Settles (Char.ofNat n) (lowerChar (Char.ofNat n)) := by
  decide +kernel

/-- **A character stays as it is, or it turns into one that does.** -/
theorem lowerChar_cases (c : Char) : lowerChar c = c ∨ Settles c (lowerChar c) := by
  by_cases hascii : c.toNat < 128
  · have hcases := asciiForms_settle c.toNat hascii
    rwa [Char.ofNat_toNat] at hcases
  · rw [lowerChar, if_neg hascii]
    split
    · rename_i shift hshift
      exact Or.inr (settles_of_lowercaseShift hshift)
    · exact Or.inl rfl

theorem settled_lowerChar {c : Char} (hdotted : c ≠ '\u0130') (hsigma : c ≠ '\u03a3') : Settled (lowerChar c) := by
  rcases lowerChar_cases c with hsame | hsettles
  · rw [hsame]
    exact ⟨hdotted, hsigma, hsame⟩
  · exact hsettles.1

theorem isBlank_lowerChar (c : Char) : isBlank (lowerChar c) = isBlank c := by
  rcases lowerChar_cases c with hsame | ⟨-, hold, hnew⟩
  · rw [hsame]
  · rw [hold, hnew]

/-! ## Texts -/

/-- What the conversion writes for a character stays as it is, and is white space exactly if the character is. -/
theorem settled_lowerFrom (s : List Char) : ∀ before : List Char,
    (∀ c ∈ lowerFrom before s, Settled c) ∧ (lowerFrom before s).any isBlank = s.any isBlank := by
  induction s with
  | nil => exact fun _ => ⟨List.forall_mem_nil _, rfl⟩
  | cons c rest ih =>
    intro before
    obtain ⟨hrest, hblank⟩ := ih (c :: before)
    rw [lowerFrom, List.any_append, hblank, List.any_cons]
    -- the letter with a dot and the sigma have forms of their own
    split
    · rename_i hdotted
      subst hdotted
      refine ⟨?_, rfl⟩
      intro d hd
      rcases List.mem_append.mp hd with hform | hd
      · have hletter : Settled 'i' := by decide +kernel
        have hmark : Settled '\u0307' := by decide +kernel
        exact List.forall_mem_cons.mpr ⟨hletter, List.forall_mem_singleton.mpr hmark⟩ d hform
      · exact hrest d hd
    · rename_i hdotted
      split
      · rename_i hsigma
        subst hsigma
        refine ⟨?_, by split <;> rfl⟩
        intro d hd
        rcases List.mem_append.mp hd with hform | hd
        · rw [List.mem_singleton.mp hform]
          split
          · decide +kernel
          · decide +kernel
        · exact hrest d hd
      · rename_i hsigma
        refine ⟨?_, by rw [List.any_cons, List.any_nil, Bool.or_false, isBlank_lowerChar]⟩
        intro d hd
        rcases List.mem_append.mp hd with hform | hd
        · rw [List.mem_singleton.mp hform]
          exact settled_lowerChar hdotted hsigma
        · exact hrest d hd

theorem settled_of_mem_lower {s : List Char} : ∀ c ∈ lower s, Settled c := (settled_lowerFrom s []).1

/-- **White space is neither lost nor made.** -/
theorem any_isBlank_lower (s : List Char) : (lower s).any isBlank = s.any isBlank := (settled_lowerFrom s []).2

theorem lowerFrom_of_settled {s : List Char} (h : ∀ c ∈ s, Settled c) (before : List Char) :
    lowerFrom before s = s := by
  induction s generalizing before with
  | nil => rfl
  | cons c rest ih =>
    obtain ⟨hdotted, hsigma, hsame⟩ := h c List.mem_cons_self
    rw [lowerFrom, if_neg hdotted, if_neg hsigma, hsame, ih fun d hd => h d (List.mem_cons_of_mem c hd)]
    rfl

/-- **A text of characters that stay as they are is in lower case.** -/
theorem lower_of_settled {s : List Char} (h : ∀ c ∈ s, Settled c) : lower s = s := lowerFrom_of_settled h []

/-- A character that stays as it is is found again. -/
theorem mem_lower_of_mem {c : Char} (hc : Settled c) {s : List Char} (h : c ∈ s) : c ∈ lower s := by
  have hfrom : ∀ before : List Char, c ∈ lowerFrom before s := by
    induction s with
    | nil => exact absurd h List.not_mem_nil
    | cons d rest ih =>
      intro before
      rw [lowerFrom]
      rcases List.mem_cons.mp h with rfl | h
      · refine List.mem_append_left _ ?_
        rw [if_neg hc.1, if_neg hc.2.1, hc.2.2]
        exact List.mem_singleton_self c
      · exact List.mem_append_right _ (ih h _)
  exact hfrom []

theorem lower_eq_nil_iff {s : List Char} : lower s = [] ↔ s = [] := by
  cases s with
  | nil => exact Iff.rfl
  | cons c rest =>
    refine iff_of_false ?_ (List.cons_ne_nil _ _)
    rw [lower, lowerFrom]
    intro hnil
    have hform := (List.append_eq_nil_iff.mp hnil).1
    split at hform
    · cases hform
    · split at hform
      · cases hform
      · cases hform

end ClassCli.Text
