import ClassCli.Text.Basic

/-!
# Splitting a text at a character

Pieces that do not hold a character are found again when they are put together with the character between
them.

* **`splitAt_join`** — splitting undoes joining.
* **`splitOnce_append`** — the pieces around the first occurrence.
* **`lines_join`** — the lines of lines that were joined.
-/

namespace ClassCli.Text

variable {mark : Char}

theorem join_cons_cons (separator first next : List Char) (rest : List (List Char)) :
    join separator (first :: next :: rest) = first ++ separator ++ join separator (next :: rest) := rfl

/-- What is not in the separator is in the joined text exactly if it is in a piece. -/
theorem mem_join_iff {separator : List Char} {pieces : List (List Char)} (hseparator : mark ∉ separator) :
    mark ∈ join separator pieces ↔ ∃ piece ∈ pieces, mark ∈ piece := by
  induction pieces with
  | nil => simp [join]
  | cons first rest ih =>
    cases rest with
    | nil => simp [join]
    | cons next others =>
      rw [join_cons_cons, List.mem_append, List.mem_append, ih]
      simp [hseparator]

/-- What is neither in the separator nor in a piece is not in the joined text. -/
theorem not_mem_join {separator : List Char} {pieces : List (List Char)} (hseparator : mark ∉ separator)
    (h : ∀ piece ∈ pieces, mark ∉ piece) : mark ∉ join separator pieces := by
  rw [mem_join_iff hseparator]
  rintro ⟨piece, hpiece, hmem⟩
  exact h piece hpiece hmem

theorem splitAt_ne_nil (s : List Char) : splitAt mark s ≠ [] := by
  cases s with
  | nil => exact List.cons_ne_nil _ _
  | cons c rest =>
    rw [splitAt]
    split
    · exact List.cons_ne_nil _ _
    · split
      · exact List.cons_ne_nil _ _
      · exact List.cons_ne_nil _ _

theorem exists_splitAt (mark : Char) (s : List Char) : ∃ piece pieces, splitAt mark s = piece :: pieces :=
  List.exists_cons_of_ne_nil (splitAt_ne_nil s)

theorem splitAt_mark (rest : List Char) : splitAt mark (mark :: rest) = [] :: splitAt mark rest := by
  rw [splitAt, if_pos rfl]

/-- A character that is not the mark belongs to the first piece. -/
theorem splitAt_cons {c : Char} (h : c ≠ mark) {rest piece : List Char} {pieces : List (List Char)}
    (hrest : splitAt mark rest = piece :: pieces) : splitAt mark (c :: rest) = (c :: piece) :: pieces := by
  rw [splitAt, if_neg h, hrest]

theorem splitAt_of_not_mem {s : List Char} (h : mark ∉ s) : splitAt mark s = [s] := by
  induction s with
  | nil => rfl
  | cons c rest ih =>
    rw [List.mem_cons, not_or] at h
    exact splitAt_cons (Ne.symm h.1) (ih h.2)

/-- The pieces consist of characters of the text. -/
theorem mem_of_mem_splitAt {c : Char} {s piece : List Char} (hp : piece ∈ splitAt mark s) (hc : c ∈ piece) :
    c ∈ s := by
  induction s generalizing piece with
  | nil =>
    obtain rfl := List.mem_singleton.mp hp
    exact hc
  | cons first rest ih =>
    by_cases hfirst : first = mark
    · rw [hfirst, splitAt_mark] at hp
      rcases List.mem_cons.mp hp with rfl | hp
      · exact absurd hc List.not_mem_nil
      · exact List.mem_cons_of_mem first (ih hp hc)
    · obtain ⟨head, pieces, hrest⟩ : ∃ head pieces, splitAt mark rest = head :: pieces :=
        List.exists_cons_of_ne_nil (splitAt_ne_nil rest)
      rw [splitAt_cons hfirst hrest] at hp
      rw [hrest] at ih
      rcases List.mem_cons.mp hp with rfl | hp
      · rcases List.mem_cons.mp hc with rfl | hc
        · exact List.mem_cons_self
        · exact List.mem_cons_of_mem first (ih List.mem_cons_self hc)
      · exact List.mem_cons_of_mem first (ih (List.mem_cons_of_mem head hp) hc)

/-- The mark is in none of the pieces. -/
theorem not_mem_of_mem_splitAt {s piece : List Char} (h : piece ∈ splitAt mark s) : mark ∉ piece := by
  induction s generalizing piece with
  | nil =>
    obtain rfl := List.mem_singleton.mp h
    exact List.not_mem_nil
  | cons first rest ih =>
    by_cases hfirst : first = mark
    · rw [hfirst, splitAt_mark] at h
      rcases List.mem_cons.mp h with rfl | h
      · exact List.not_mem_nil
      · exact ih h
    · obtain ⟨head, pieces, hrest⟩ : ∃ head pieces, splitAt mark rest = head :: pieces :=
        List.exists_cons_of_ne_nil (splitAt_ne_nil rest)
      rw [splitAt_cons hfirst hrest] at h
      rw [hrest] at ih
      rcases List.mem_cons.mp h with rfl | h
      · rw [List.mem_cons, not_or]
        exact ⟨Ne.symm hfirst, ih List.mem_cons_self⟩
      · exact ih (List.mem_cons_of_mem head h)

/-- The pieces on both sides of a mark. -/
theorem splitAt_append (front back : List Char) :
    splitAt mark (front ++ mark :: back) = splitAt mark front ++ splitAt mark back := by
  induction front with
  | nil => exact splitAt_mark back
  | cons c rest ih =>
    rw [List.cons_append]
    by_cases hc : c = mark
    · rw [hc, splitAt_mark, splitAt_mark, ih, List.cons_append]
    · cases hrest : splitAt mark rest with
      | nil => exact absurd hrest (splitAt_ne_nil rest)
      | cons piece pieces =>
        rw [hrest] at ih
        rw [splitAt_cons hc hrest, splitAt_cons hc ih]
        rfl

/-- **Splitting undoes joining.** -/
theorem splitAt_join {pieces : List (List Char)} (hne : pieces ≠ [])
    (h : ∀ piece ∈ pieces, mark ∉ piece) : splitAt mark (join [mark] pieces) = pieces := by
  induction pieces with
  | nil => exact absurd rfl hne
  | cons piece rest ih =>
    have hpiece := splitAt_of_not_mem (h piece List.mem_cons_self)
    cases rest with
    | nil => exact hpiece
    | cons next others =>
      have hrest := ih (List.cons_ne_nil _ _) fun other ho => h other (List.mem_cons_of_mem _ ho)
      rw [join_cons_cons, List.append_assoc, List.singleton_append, splitAt_append, hpiece, hrest,
        List.singleton_append]

/-- The text on both sides of the first mark. -/
theorem splitOnce_append {front : List Char} (h : mark ∉ front) (back : List Char) :
    splitOnce mark (front ++ mark :: back) = some (front, back) := by
  have hfront : ∀ c ∈ front, (c != mark) = true := by
    intro c hc
    rw [bne_iff_ne]
    exact fun e => h (e ▸ hc)
  rw [splitOnce, List.dropWhile_append_of_pos hfront, List.takeWhile_append_of_pos hfront,
    List.dropWhile_cons_of_neg (by simp), List.takeWhile_cons_of_neg (by simp), List.append_nil]

theorem afterStart_append (start s : List Char) : afterStart start (start ++ s) = some s := by
  induction start with
  | nil => rfl
  | cons c rest ih => rw [List.cons_append, afterStart, if_pos rfl, ih]

theorem afterStart_eq_none {c : Char} {start line : List Char} (h : line.head? ≠ some c) :
    afterStart (c :: start) line = none := by
  cases line with
  | nil => rfl
  | cons d rest =>
    have hne : c ≠ d := fun e => h (e ▸ rfl)
    rw [afterStart, if_neg hne]

theorem beforeEnd_append (s ending : List Char) : beforeEnd ending (s ++ ending) = some s := by
  rw [beforeEnd, List.reverse_append, afterStart_append, Option.map_some, List.reverse_reverse]

/-- A text consists of its beginning and what stands behind it. -/
theorem eq_append_of_afterStart {start s rest : List Char} (h : afterStart start s = some rest) :
    s = start ++ rest := by
  induction start generalizing s with
  | nil => exact Option.some.inj h
  | cons p ps ih =>
    cases s with
    | nil => cases h
    | cons first others =>
      rw [afterStart] at h
      split at h
      · rename_i hfirst
        rw [ih h, hfirst, List.cons_append]
      · cases h

/-- A text consists of what stands in front of its ending and of the ending. -/
theorem eq_append_of_beforeEnd {ending s front : List Char} (h : beforeEnd ending s = some front) :
    s = front ++ ending := by
  obtain ⟨back, hback, rfl⟩ := Option.map_eq_some_iff.mp h
  rw [← List.reverse_inj, eq_append_of_afterStart hback, List.reverse_append, List.reverse_reverse]

/-- What stands behind a beginning consists of characters of the text. -/
theorem mem_of_afterStart {start s rest : List Char} (h : afterStart start s = some rest) :
    ∀ c ∈ rest, c ∈ s := by
  rw [eq_append_of_afterStart h]
  exact fun c hc => List.mem_append_right start hc

/-! ## Lines -/

theorem withoutReturn_of_getLast? {line : List Char} (h : line.getLast? ≠ some '\r') :
    withoutReturn line = line := by
  have hnone : beforeEnd ['\r'] line = none := by
    rw [beforeEnd, List.reverse_singleton]
    rw [← List.head?_reverse] at h
    cases hreverse : line.reverse with
    | nil => rfl
    | cons c rest =>
      rw [hreverse] at h
      have hne : '\r' ≠ c := fun heq => h (heq ▸ rfl)
      rw [afterStart, if_neg hne]
      rfl
  rw [withoutReturn, hnone]
  rfl

theorem endLines_eq {written : List (List Char)}
    (hreturn : ∀ line ∈ written, line.getLast? ≠ some '\r') (hlast : written.getLast? ≠ some []) :
    endLines written = written := by
  induction written with
  | nil => rfl
  | cons line rest ih =>
    cases rest with
    | nil =>
      have hne : line ≠ [] := fun heq => hlast (heq ▸ rfl)
      rw [endLines, if_neg (by simpa using hne)]
    | cons next others =>
      have hrest := ih (fun other ho => hreturn other (List.mem_cons_of_mem _ ho)) hlast
      rw [endLines, hrest, withoutReturn_of_getLast? (hreturn line List.mem_cons_self)]
      exact List.cons_ne_nil _ _

/-- **The lines of lines that were joined** are these lines, if none of them breaks and the last one is
not empty. -/
theorem lines_join {written : List (List Char)} (hne : written ≠ [])
    (hbreak : ∀ line ∈ written, '\n' ∉ line) (hreturn : ∀ line ∈ written, line.getLast? ≠ some '\r')
    (hlast : written.getLast? ≠ some []) : lines (join ['\n'] written) = written := by
  rw [lines, splitAt_join hne hbreak, endLines_eq hreturn hlast]

end ClassCli.Text
