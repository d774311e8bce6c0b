import ClassCli.Proofs.Text.Splitting

/-!
# White space at the edges of a text

A text without white space at its edges can be put behind spaces and found again by trimming, and such
texts can be joined by single spaces without losing anything.

* **`Edged`** — a text that neither starts nor ends with white space.
* **`indented`** — a text behind spaces.
* **`Unindented`** — a text that does not open with white space.
* **`joinWords_of_map_trim`** — lines that are trimmed and joined.
-/

namespace ClassCli.Text

/-- A text that neither starts nor ends with white space, and that is not empty. -/
structure Edged (s : List Char) : Prop where
  head : ∃ c, s.head? = some c ∧ isBlank c = false
  last : ∃ c, s.getLast? = some c ∧ isBlank c = false

/-- A text behind spaces. -/
def indented (depth : Nat) (s : List Char) : List Char := List.replicate depth ' ' ++ s

/-! ## Trimming -/

/-- Nothing is dropped from a text that starts with something else. -/
theorem head?_of_dropWhile_eq {test : Char → Bool} {s : List Char} (hne : s ≠ [])
    (h : s.dropWhile test = s) : ∃ c, s.head? = some c ∧ test c = false := by
  cases s with
  | nil => exact absurd rfl hne
  | cons c rest =>
    refine ⟨c, rfl, ?_⟩
    cases htest : test c with
    | false => rfl
    | true =>
      have hlength := (List.dropWhile_suffix test (l := rest)).length_le
      rw [List.dropWhile_cons_of_pos htest] at h
      rw [h, List.length_cons] at hlength
      omega

theorem edged_of_trim {s : List Char} (hne : s ≠ []) (h : trim s = s) : Edged s := by
  have hsuffix : trimStart s <:+ s := List.dropWhile_suffix _
  have hend : (trimEnd (trimStart s)).length ≤ (trimStart s).length := by
    rw [trimEnd, List.length_reverse]
    exact Nat.le_trans (List.dropWhile_suffix _).length_le (Nat.le_of_eq List.length_reverse)
  rw [← trim, h] at hend
  have hstart : trimStart s = s := hsuffix.eq_of_length (Nat.le_antisymm hsuffix.length_le hend)
  have hreverse : s.reverse.dropWhile isBlank = s.reverse := by
    rw [trim, hstart, trimEnd] at h
    exact List.reverse_eq_iff.mp h
  refine ⟨head?_of_dropWhile_eq hne hstart, ?_⟩
  rw [← List.head?_reverse]
  exact head?_of_dropWhile_eq (by simpa using hne) hreverse

theorem edged_of_visible {s : List Char} (hne : s ≠ []) (h : ∀ c ∈ s, isBlank c = false) : Edged s :=
  ⟨⟨s.head hne, List.head?_eq_some_head hne, h _ (List.head_mem hne)⟩,
    s.getLast hne, List.getLast?_eq_some_getLast hne, h _ (List.getLast_mem hne)⟩

namespace Edged

variable {s : List Char}

theorem ne_nil (h : Edged s) : s ≠ [] := by
  obtain ⟨c, hc, -⟩ := h.head
  rintro rfl
  cases hc

theorem trimStart (h : Edged s) (front : List Char) (hfront : ∀ c ∈ front, isBlank c = true) :
    Text.trimStart (front ++ s) = s := by
  obtain ⟨c, hc, hblank⟩ := h.head
  obtain ⟨rest, rfl⟩ := List.head?_eq_some_iff.mp hc
  rw [Text.trimStart, List.dropWhile_append_of_pos hfront, List.dropWhile_cons_of_neg (by simp [hblank])]

theorem trimEnd (h : Edged s) : Text.trimEnd s = s := by
  obtain ⟨c, hc, hblank⟩ := h.last
  obtain ⟨front, rfl⟩ := List.getLast?_eq_some_iff.mp hc
  rw [Text.trimEnd, List.reverse_append, List.reverse_singleton, List.singleton_append,
    List.dropWhile_cons_of_neg (by simp [hblank]), List.reverse_cons, List.reverse_reverse]

theorem trim (h : Edged s) : Text.trim s = s := by
  have hstart := h.trimStart [] (List.forall_mem_nil _)
  rw [Text.trim, ← List.nil_append s, hstart, h.trimEnd, List.nil_append]

theorem blank (h : Edged s) : Text.blank s = false := by
  obtain ⟨c, hc, hblank⟩ := h.head
  obtain ⟨rest, rfl⟩ := List.head?_eq_some_iff.mp hc
  rw [Text.blank, List.all_cons, hblank, Bool.false_and]

/-- What stands between two such texts makes no difference. -/
theorem append {t : List Char} (hs : Edged s) (ht : Edged t) (between : List Char) :
    Edged (s ++ (between ++ t)) := by
  obtain ⟨c, hc, hfirst⟩ := hs.head
  obtain ⟨d, hd, hlast⟩ := ht.last
  refine ⟨⟨c, ?_, hfirst⟩, d, ?_, hlast⟩
  · rw [List.head?_append, hc]
    rfl
  · rw [List.getLast?_append, List.getLast?_append, hd]
    rfl

end Edged

/-! ## Texts behind spaces -/

section Indented

variable {s : List Char} (depth : Nat)

theorem isBlank_of_mem_replicate {n : Nat} : ∀ c ∈ List.replicate n ' ', isBlank c = true := by
  intro c hc
  rw [List.eq_of_mem_replicate hc]
  decide

theorem trim_indented (h : Edged s) : trim (indented depth s) = s := by
  rw [trim, indented, h.trimStart _ isBlank_of_mem_replicate, h.trimEnd]

theorem blank_indented (h : Edged s) : blank (indented depth s) = false := by
  have hblank := h.blank
  rw [blank] at hblank
  rw [blank, indented, List.all_append, hblank, Bool.and_false]

theorem takeWhile_indented (h : Edged s) :
    (indented depth s).takeWhile isBlank = List.replicate depth ' ' := by
  obtain ⟨c, hc, hblank⟩ := h.head
  obtain ⟨rest, rfl⟩ := List.head?_eq_some_iff.mp hc
  rw [indented, List.takeWhile_append_of_pos isBlank_of_mem_replicate,
    List.takeWhile_cons_of_neg (by simp [hblank]), List.append_nil]

theorem byteLength_spaces : byteLength (List.replicate depth ' ') = depth := by
  have hsize : Char.utf8Size ' ' = 1 := by decide
  induction depth with
  | zero => rfl
  | succ n ih => rw [List.replicate_succ, byteLength, ih, hsize, Nat.add_comm]

theorem indentation_indented (h : Edged s) : indentation (indented depth s) = depth := by
  rw [indentation, takeWhile_indented depth h, byteLength_spaces]

theorem indentation_eq_zero (h : Edged s) : indentation s = 0 := by
  have hzero := indentation_indented 0 h
  rwa [indented, List.replicate_zero, List.nil_append] at hzero

variable (s)

/-- Spaces before a text add to its own. -/
theorem indentation_indented_eq : indentation (indented depth s) = depth + indentation s := by
  have hlength (front back : List Char) : byteLength (front ++ back) = byteLength front + byteLength back := by
    induction front with
    | nil => rw [List.nil_append, byteLength, Nat.zero_add]
    | cons c rest ih => rw [List.cons_append, byteLength, byteLength, ih, Nat.add_assoc]
  rw [indentation, indented, List.takeWhile_append_of_pos isBlank_of_mem_replicate, hlength,
    byteLength_spaces, indentation]

theorem trim_indented_eq : trim (indented depth s) = trim s := by
  rw [trim, indented, trimStart, List.dropWhile_append_of_pos isBlank_of_mem_replicate, trim, trimStart]

theorem blank_indented_eq : blank (indented depth s) = blank s := by
  have hspaces : (List.replicate depth ' ').all isBlank = true := List.all_eq_true.mpr isBlank_of_mem_replicate
  rw [blank, indented, List.all_append, hspaces, Bool.true_and, blank]

end Indented

/-! ## Texts without indentation -/

/-- A text that does not open with white space. -/
def Unindented (s : List Char) : Prop := ∀ c ∈ s.head?, isBlank c = false

theorem Edged.unindented_append {s : List Char} (h : Edged s) (rest : List Char) : Unindented (s ++ rest) := by
  obtain ⟨c, hc, hvisible⟩ := h.head
  intro d hd
  rw [List.head?_append, hc] at hd
  obtain rfl := Option.some.inj hd
  exact hvisible

section Unindented

variable {s : List Char} (h : Unindented s)
include h

theorem takeWhile_of_unindented : s.takeWhile isBlank = [] := by
  cases s with
  | nil => rfl
  | cons c rest => exact List.takeWhile_cons_of_neg (by simp [h c rfl])

theorem trimStart_of_unindented : trimStart s = s := by
  have hparts := List.takeWhile_append_dropWhile (p := isBlank) (l := s)
  rwa [takeWhile_of_unindented h, List.nil_append] at hparts

theorem blank_of_unindented : blank s = s.isEmpty := by
  cases s with
  | nil => rfl
  | cons c rest =>
    rw [blank, List.all_cons, h c rfl, Bool.false_and]
    rfl

theorem takeWhile_indented_of_unindented (depth : Nat) :
    (indented depth s).takeWhile isBlank = List.replicate depth ' ' := by
  rw [indented, List.takeWhile_append_of_pos isBlank_of_mem_replicate, takeWhile_of_unindented h, List.append_nil]

theorem trimStart_indented_of_unindented (depth : Nat) : trimStart (indented depth s) = s := by
  rw [indented, trimStart, List.dropWhile_append_of_pos isBlank_of_mem_replicate, ← trimStart,
    trimStart_of_unindented h]

theorem indentation_indented_of_unindented (depth : Nat) : indentation (indented depth s) = depth := by
  rw [indentation, takeWhile_indented_of_unindented h, byteLength_spaces]

/-- Spaces and what stands behind them are found again. -/
theorem indented_inj {t : List Char} (ht : Unindented t) {m n : Nat} :
    indented m s = indented n t ↔ m = n ∧ s = t := by
  refine ⟨fun heq => ?_, fun heq => by rw [heq.1, heq.2]⟩
  have hspaces := congrArg (fun text => (text.takeWhile isBlank).length) heq
  rw [takeWhile_indented_of_unindented h, takeWhile_indented_of_unindented ht, List.length_replicate,
    List.length_replicate] at hspaces
  subst hspaces
  exact ⟨rfl, List.append_cancel_left heq⟩

end Unindented

/-! ## Joining -/

theorem join_concat (separator : List Char) {pieces : List (List Char)} (hne : pieces ≠ [])
    (piece : List Char) :
    join separator (pieces ++ [piece]) = join separator pieces ++ (separator ++ piece) := by
  induction pieces with
  | nil => exact absurd rfl hne
  | cons first rest ih =>
    cases rest with
    | nil => exact List.append_assoc _ _ _
    | cons next others =>
      have hrest := ih (List.cons_ne_nil _ _)
      rw [List.cons_append] at hrest
      rw [List.cons_append, List.cons_append, join_cons_cons, join_cons_cons, hrest]
      simp only [List.append_assoc]

theorem edged_join {pieces : List (List Char)} (hne : pieces ≠ []) (h : ∀ piece ∈ pieces, Edged piece) :
    Edged (join [' '] pieces) := by
  induction pieces with
  | nil => exact absurd rfl hne
  | cons first rest ih =>
    have hfirst := h first List.mem_cons_self
    cases rest with
    | nil => exact hfirst
    | cons next others =>
      have hrest := ih (List.cons_ne_nil _ _) fun piece hp => h piece (List.mem_cons_of_mem _ hp)
      rw [join_cons_cons, List.append_assoc]
      exact hfirst.append hrest [' ']

/-- **Lines that are found again by trimming** are joined, whatever was put around them. -/
theorem joinWords_of_map_trim {written lines : List (List Char)} (htrim : written.map trim = lines)
    (h : ∀ line ∈ lines, Edged line) : joinWords written = join [' '] lines := by
  have hkeep : lines.filter (!·.isEmpty) = lines := by
    refine List.filter_eq_self.mpr fun line hline => ?_
    simpa using (h line hline).ne_nil
  rw [joinWords, htrim, hkeep]

/-- One more line is joined to those before. -/
theorem joinWords_pair {lines : List (List Char)} {line written : List Char} (hne : lines ≠ [])
    (h : ∀ piece ∈ lines, Edged piece) (hline : Edged line) (hwritten : trim written = line) :
    joinWords [join [' '] lines, written] = join [' '] (lines ++ [line]) := by
  have hjoin := edged_join hne h
  have htrim : [join [' '] lines, written].map trim = [join [' '] lines, line] := by
    rw [List.map_cons, List.map_singleton, hjoin.trim, hwritten]
  have hedged : ∀ piece ∈ [join [' '] lines, line], Edged piece := by
    rw [List.forall_mem_cons, List.forall_mem_singleton]
    exact ⟨hjoin, hline⟩
  rw [joinWords_of_map_trim htrim hedged, join_concat [' '] hne]
  exact List.append_assoc _ _ _

end ClassCli.Text
