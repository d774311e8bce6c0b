import ClassCli.Proofs.Text.Splitting

/-!
# Carriage returns in front of line feeds

A text can be written with a carriage return in front of every line feed. Most of what is done with texts
does not see the difference: splitting at other characters, trimming and looking for a beginning or an ending
give the same pieces, written in the same way.

* **`withReturns`** — the text with a carriage return in front of every line feed.
* **`dropWhile_withReturns`**, **`afterStart_withReturns`**, **`trim_withReturns`** and so on — what is done with
  the text is done with its pieces.
* **`returned`** — the same for strings.
-/

namespace ClassCli.Text

/-- A character, with a carriage return in front of it if it is a line feed. -/
def lineEnd (c : Char) : List Char := if c = '\n' then ['\r', '\n'] else [c]

/-- The text with a carriage return in front of every line feed. -/
def withReturns (s : List Char) : List Char := s.flatMap lineEnd

@[simp] theorem withReturns_nil : withReturns [] = [] := rfl

@[simp] theorem withReturns_feed (s : List Char) :
    withReturns ('\n' :: s) = '\r' :: '\n' :: withReturns s := rfl

theorem lineEnd_of_ne {c : Char} (h : c ≠ '\n') : lineEnd c = [c] := if_neg h

theorem withReturns_cons {c : Char} (h : c ≠ '\n') (s : List Char) :
    withReturns (c :: s) = c :: withReturns s := by
  rw [withReturns, List.flatMap_cons, lineEnd_of_ne h]
  rfl

@[simp] theorem withReturns_append (s t : List Char) :
    withReturns (s ++ t) = withReturns s ++ withReturns t := List.flatMap_append

theorem withReturns_of_not_mem {s : List Char} (h : '\n' ∉ s) : withReturns s = s := by
  induction s with
  | nil => rfl
  | cons c s ih =>
    rw [List.mem_cons, not_or] at h
    rw [withReturns_cons (Ne.symm h.1), ih h.2]

/-- What the front of the text becomes. -/
theorem withReturns_cases (s : List Char) :
    s = [] ∨ (∃ rest, s = '\n' :: rest) ∨ ∃ c rest, c ≠ '\n' ∧ s = c :: rest := by
  cases s with
  | nil => exact Or.inl rfl
  | cons c rest =>
    by_cases hc : c = '\n'
    · exact Or.inr (Or.inl ⟨rest, by rw [hc]⟩)
    · exact Or.inr (Or.inr ⟨c, rest, hc, rfl⟩)

@[simp] theorem withReturns_eq_nil {s : List Char} : withReturns s = [] ↔ s = [] := by
  rcases withReturns_cases s with rfl | ⟨rest, rfl⟩ | ⟨c, rest, hc, rfl⟩
  · simp
  · simp
  · simp [withReturns_cons hc]

theorem isEmpty_withReturns (s : List Char) : (withReturns s).isEmpty = s.isEmpty := by
  rw [Bool.eq_iff_iff, List.isEmpty_iff, List.isEmpty_iff, withReturns_eq_nil]

theorem feed_mem_withReturns {s : List Char} : '\n' ∈ withReturns s ↔ '\n' ∈ s := by
  induction s with
  | nil => simp
  | cons c s ih =>
    by_cases hc : c = '\n'
    · simp [hc]
    · simp [withReturns_cons hc, ih]

theorem count_withReturns (s : List Char) : (withReturns s).count '\n' = s.count '\n' := by
  induction s with
  | nil => rfl
  | cons c s ih =>
    by_cases hc : c = '\n'
    · simp [hc, ih]
    · simp [withReturns_cons hc, hc, ih]

theorem length_le_withReturns (s : List Char) : s.length ≤ (withReturns s).length := by
  induction s with
  | nil => exact Nat.le_refl 0
  | cons c s ih =>
    by_cases hc : c = '\n'
    · rw [hc, withReturns_feed, List.length_cons, List.length_cons, List.length_cons]
      omega
    · rw [withReturns_cons hc, List.length_cons, List.length_cons]
      omega

/-- No line feed comes first. -/
theorem head?_withReturns_ne (s : List Char) : (withReturns s).head? ≠ some '\n' := by
  rcases withReturns_cases s with rfl | ⟨rest, rfl⟩ | ⟨c, rest, hc, rfl⟩
  · simp
  · simp
  · simpa [withReturns_cons hc] using hc

/-- Different texts stay different. -/
theorem withReturns_inj {s t : List Char} : withReturns s = withReturns t ↔ s = t := by
  refine ⟨?_, congrArg _⟩
  have hmixed {s t : List Char} {c : Char} (hc : c ≠ '\n') : withReturns ('\n' :: s) ≠ withReturns (c :: t) := by
    rw [withReturns_feed, withReturns_cons hc]
    intro h
    have htail := (List.cons.inj h).2
    exact head?_withReturns_ne t (by rw [← htail]; rfl)
  induction s generalizing t with
  | nil =>
    intro h
    exact (withReturns_eq_nil.mp h.symm).symm
  | cons c s ih =>
    intro h
    rcases withReturns_cases t with rfl | ⟨rest, rfl⟩ | ⟨d, rest, hd, rfl⟩
    · exact withReturns_eq_nil.mp h
    · by_cases hc : c = '\n'
      · subst hc
        simp only [withReturns_feed, List.cons.injEq, true_and] at h
        rw [ih h]
      · exact absurd h.symm (hmixed hc)
    · by_cases hc : c = '\n'
      · subst hc
        exact absurd h (hmixed hd)
      · rw [withReturns_cons hc, withReturns_cons hd, List.cons.injEq] at h
        rw [h.1, ih h.2]

/-! ## White space and other classes of characters -/

/-- What replaces a character, if it is of the same kind, goes with the character. -/
theorem dropWhile_flatMap {g : Char → List Char} {test : Char → Bool}
    (hg : ∀ c, g c ≠ [] ∧ ∀ d ∈ g c, test d = test c) (s : List Char) :
    (s.flatMap g).dropWhile test = (s.dropWhile test).flatMap g := by
  induction s with
  | nil => rfl
  | cons c s ih =>
    obtain ⟨hne, hsame⟩ := hg c
    rw [List.flatMap_cons]
    cases hc : test c with
    | true =>
      rw [List.dropWhile_append_of_pos fun d hd => (hsame d hd).trans hc, List.dropWhile_cons_of_pos hc, ih]
    | false =>
      obtain ⟨d, more, hd⟩ := List.exists_cons_of_ne_nil hne
      have htest : test d = false := (hsame d (by rw [hd]; exact List.mem_cons_self)).trans hc
      rw [List.dropWhile_cons_of_neg (by simp [hc]), List.flatMap_cons, hd, List.cons_append,
        List.dropWhile_cons_of_neg (by simp [htest])]

theorem takeWhile_flatMap {g : Char → List Char} {test : Char → Bool}
    (hg : ∀ c, g c ≠ [] ∧ ∀ d ∈ g c, test d = test c) (s : List Char) :
    (s.flatMap g).takeWhile test = (s.takeWhile test).flatMap g := by
  have hboth := List.takeWhile_append_dropWhile (p := test) (l := s.flatMap g)
  have hparts := congrArg (List.flatMap g) (List.takeWhile_append_dropWhile (p := test) (l := s))
  rw [List.flatMap_append] at hparts
  rw [dropWhile_flatMap hg] at hboth
  exact List.append_cancel_right (hboth.trans hparts.symm)

/-- A class of characters that line feeds and carriage returns are both in, or neither. -/
theorem lineEnd_same {test : Char → Bool} (h : test '\r' = test '\n') (c : Char) :
    lineEnd c ≠ [] ∧ ∀ d ∈ lineEnd c, test d = test c := by
  by_cases hc : c = '\n'
  · subst hc
    exact ⟨by decide, by simp [lineEnd, h]⟩
  · simp [lineEnd_of_ne hc]

section Classes

variable {test : Char → Bool} (h : test '\r' = test '\n')

include h

theorem dropWhile_withReturns (s : List Char) :
    (withReturns s).dropWhile test = withReturns (s.dropWhile test) :=
  dropWhile_flatMap (lineEnd_same h) s

theorem takeWhile_withReturns (s : List Char) :
    (withReturns s).takeWhile test = withReturns (s.takeWhile test) :=
  takeWhile_flatMap (lineEnd_same h) s

theorem all_withReturns (s : List Char) : (withReturns s).all test = s.all test := by
  rw [withReturns, List.all_flatMap]
  congr 1
  funext c
  obtain ⟨hne, hsame⟩ := lineEnd_same h c
  obtain ⟨d, more, hd⟩ := List.exists_cons_of_ne_nil hne
  rw [Bool.eq_iff_iff, List.all_eq_true]
  constructor
  · intro hall
    rw [← hsame d (by rw [hd]; exact List.mem_cons_self)]
    exact hall d (by rw [hd]; exact List.mem_cons_self)
  · exact fun hc d hd => (hsame d hd).trans hc

theorem any_withReturns (s : List Char) : (withReturns s).any test = s.any test := by
  have hnot : (!test '\r') = !test '\n' := by rw [h]
  have hall : (withReturns s).all (!test ·) = s.all (!test ·) := all_withReturns hnot s
  rw [List.any_eq_not_all_not, List.any_eq_not_all_not, hall]

/-- Characters of a class without line ends are the same in both texts. -/
theorem takeWhile_withReturns_of_not (hfeed : test '\n' = false) (s : List Char) :
    (withReturns s).takeWhile test = s.takeWhile test := by
  rw [takeWhile_withReturns h, withReturns_of_not_mem]
  intro hmem
  have htest := List.all_eq_true.mp List.all_takeWhile _ hmem
  rw [hfeed] at htest
  cases htest

end Classes

theorem reverse_withReturns (s : List Char) :
    (withReturns s).reverse = s.reverse.flatMap fun c => (lineEnd c).reverse := by
  rw [withReturns, List.reverse_flatMap]
  rfl

theorem trimStart_withReturns (s : List Char) : trimStart (withReturns s) = withReturns (trimStart s) :=
  dropWhile_withReturns (by decide) s

theorem trimEnd_withReturns (s : List Char) : trimEnd (withReturns s) = withReturns (trimEnd s) := by
  have hblank (c : Char) : (lineEnd c).reverse ≠ [] ∧ ∀ d ∈ (lineEnd c).reverse, isBlank d = isBlank c := by
    have hsame : isBlank '\r' = isBlank '\n' := by decide
    simpa using lineEnd_same hsame c
  rw [trimEnd, reverse_withReturns, dropWhile_flatMap hblank]
  conv => rhs; rw [← List.reverse_reverse (withReturns _), reverse_withReturns]
  rw [trimEnd, List.reverse_reverse]

/-- **Trimming** a text and the text with carriage returns gives the same. -/
theorem trim_withReturns (s : List Char) : trim (withReturns s) = withReturns (trim s) := by
  rw [trim, trimStart_withReturns, trimEnd_withReturns]
  rfl

/-! ## Beginnings, endings and pieces -/

theorem afterStart_flatMap {g : Char → List Char} (hne : ∀ d, g d ≠ []) {start : List Char}
    (h : ∀ c ∈ start, g c = [c] ∧ ∀ d, (g d).head? = some c → d = c) (s : List Char) :
    afterStart start (s.flatMap g) = (afterStart start s).map (List.flatMap g) := by
  induction start generalizing s with
  | nil => rfl
  | cons p ps ih =>
    rw [List.forall_mem_cons] at h
    cases s with
    | nil => rfl
    | cons d s =>
      by_cases hd : p = d
      · subst hd
        rw [List.flatMap_cons, h.1.1, List.singleton_append, afterStart, if_pos rfl, afterStart, if_pos rfl,
          ih h.2]
      · obtain ⟨e, more, he⟩ := List.exists_cons_of_ne_nil (hne d)
        have hpe : p ≠ e := by
          rintro rfl
          exact hd (h.1.2 d (by rw [he]; rfl)).symm
        rw [List.flatMap_cons, he, List.cons_append, afterStart, if_neg hpe, afterStart, if_neg hd]
        rfl

/-- Characters that are no line ends. -/
def NoEnds (s : List Char) : Prop := ∀ c ∈ s, c ≠ '\r' ∧ c ≠ '\n'

instance (s : List Char) : Decidable (NoEnds s) := List.decidableBAll (fun c => c ≠ '\r' ∧ c ≠ '\n') s

theorem lineEnd_ne_nil (c : Char) : lineEnd c ≠ [] := by
  unfold lineEnd
  split
  · simp
  · simp

theorem lineEnd_unique {c : Char} (h : c ≠ '\r' ∧ c ≠ '\n') :
    lineEnd c = [c] ∧ (∀ d, (lineEnd d).head? = some c → d = c) ∧ ∀ d, (lineEnd d).reverse.head? = some c → d
      = c := by
  refine ⟨lineEnd_of_ne h.2, ?_, ?_⟩
  · intro d hd
    by_cases hfeed : d = '\n'
    · subst hfeed
      exact absurd (Option.some.inj hd).symm h.1
    · rw [lineEnd_of_ne hfeed] at hd
      exact Option.some.inj hd
  · intro d hd
    by_cases hfeed : d = '\n'
    · subst hfeed
      exact absurd (Option.some.inj hd).symm h.2
    · rw [lineEnd_of_ne hfeed] at hd
      exact Option.some.inj hd

/-- What stands behind a beginning without line ends. -/
theorem afterStart_withReturns {start : List Char} (h : NoEnds start) (s : List Char) :
    afterStart start (withReturns s) = (afterStart start s).map withReturns :=
  afterStart_flatMap lineEnd_ne_nil (fun c hc => ⟨(lineEnd_unique (h c hc)).1, (lineEnd_unique (h c hc)).2.1⟩) s

theorem startsWith_withReturns {start : List Char} (h : NoEnds start) (s : List Char) :
    startsWith start (withReturns s) = startsWith start s := by
  rw [startsWith, afterStart_withReturns h, Option.isSome_map]
  rfl

/-- What stands in front of an ending without line ends. -/
theorem beforeEnd_withReturns {ending : List Char} (h : NoEnds ending) (s : List Char) :
    beforeEnd ending (withReturns s) = (beforeEnd ending s).map withReturns := by
  have hback : ∀ c ∈ ending.reverse,
      (lineEnd c).reverse = [c] ∧ ∀ d, (lineEnd d).reverse.head? = some c → d = c := by
    intro c hc
    have hunique := lineEnd_unique (h c (List.mem_reverse.mp hc))
    exact ⟨by rw [hunique.1]; rfl, hunique.2.2⟩
  rw [beforeEnd, reverse_withReturns, afterStart_flatMap (by simp [lineEnd_ne_nil]) hback, beforeEnd,
    Option.map_map, Option.map_map]
  congr 1
  funext rest
  rw [Function.comp_apply, Function.comp_apply, ← List.reverse_reverse (withReturns _), reverse_withReturns,
    List.reverse_reverse]

/-- What goes up to a line feed or to other characters goes up to the same place, unless it is a line feed. -/
theorem cut_withReturns {test : Char → Bool} (hfeed : test '\n' = true) {s : List Char}
    (h : (cut test s).2.head? ≠ some '\n') :
    cut test (withReturns s) = ((cut test s).1, withReturns (cut test s).2) := by
  unfold cut at h ⊢
  dsimp only at h ⊢
  induction s with
  | nil => rfl
  | cons c s ih =>
    cases htest : test c with
    | true =>
      rw [List.dropWhile_cons_of_neg (by simp [htest])] at h
      have hc : c ≠ '\n' := fun hc => h (congrArg some hc)
      rw [withReturns_cons hc, List.takeWhile_cons_of_neg (by simp [htest]),
        List.takeWhile_cons_of_neg (by simp [htest]), List.dropWhile_cons_of_neg (by simp [htest]),
        List.dropWhile_cons_of_neg (by simp [htest]), withReturns_cons hc]
    | false =>
      have hc : c ≠ '\n' := by
        rintro rfl
        rw [hfeed] at htest
        cases htest
      rw [List.dropWhile_cons_of_pos (by simp [htest])] at h
      rw [withReturns_cons hc, List.takeWhile_cons_of_pos (by simp [htest]),
        List.takeWhile_cons_of_pos (by simp [htest]), List.dropWhile_cons_of_pos (by simp [htest]),
        List.dropWhile_cons_of_pos (by simp [htest])]
      have hrest := Prod.mk.inj (ih h)
      rw [hrest.1, hrest.2]

theorem splitOnce_withReturns {mark : Char} (h : mark ≠ '\r' ∧ mark ≠ '\n') (s : List Char) :
    splitOnce mark (withReturns s)
      = (splitOnce mark s).map fun (front, back) => (withReturns front, withReturns back) := by
  have htest : ('\r' != mark) = ('\n' != mark) := by
    rw [bne_iff_ne.mpr h.1.symm, bne_iff_ne.mpr h.2.symm]
  rw [splitOnce, dropWhile_withReturns htest, takeWhile_withReturns htest, splitOnce]
  cases hrest : s.dropWhile (· != mark) with
  | nil => rfl
  | cons c rest =>
    have hc : c = mark := by
      have hfirst := List.head?_dropWhile_not (· != mark) s
      rw [hrest] at hfirst
      simpa using hfirst
    rw [withReturns_cons (hc ▸ h.2)]
    rfl

theorem splitAt_withReturns {mark : Char} (h : mark ≠ '\r' ∧ mark ≠ '\n') (s : List Char) :
    splitAt mark (withReturns s) = (splitAt mark s).map withReturns := by
  induction s with
  | nil => rfl
  | cons c s ih =>
    obtain ⟨piece, pieces, hpieces⟩ := exists_splitAt mark s
    have hrest : splitAt mark (withReturns s) = withReturns piece :: pieces.map withReturns := by
      rw [ih, hpieces, List.map_cons]
    by_cases hc : c = '\n'
    · subst hc
      rw [withReturns_feed, splitAt_cons (Ne.symm h.1) (splitAt_cons (Ne.symm h.2) hrest),
        splitAt_cons (Ne.symm h.2) hpieces]
      rfl
    · rw [withReturns_cons hc]
      by_cases hmark : c = mark
      · subst hmark
        rw [splitAt_mark, splitAt_mark, ih]
        rfl
      · rw [splitAt_cons hmark hrest, splitAt_cons hmark hpieces, List.map_cons, withReturns_cons hc]

/-! ## The same on strings -/

/-- The string with a carriage return in front of every line feed. -/
def returned (s : String) : String := String.ofList (withReturns s.toList)

@[simp] theorem toList_returned (s : String) :
    (returned s).toList = withReturns s.toList := String.toList_ofList

theorem returned_inj {s t : String} : returned s = returned t ↔ s = t := by
  rw [← String.toList_inj, toList_returned, toList_returned, withReturns_inj, String.toList_inj]

theorem returned_of_not_mem {s : String} (h : '\n' ∉ s.toList) : returned s = s := by
  rw [← String.toList_inj, toList_returned, withReturns_of_not_mem h]

theorem returned_append (s t : String) : returned (s ++ t) = returned s ++ returned t := by
  rw [← String.toList_inj, toList_returned, String.toList_append, String.toList_append, withReturns_append,
    toList_returned, toList_returned]

theorem feed_mem_returned {s : String} : '\n' ∈ (returned s).toList ↔ '\n' ∈ s.toList := by
  rw [toList_returned, feed_mem_withReturns]

end ClassCli.Text
