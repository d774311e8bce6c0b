import Mathlib.Data.List.DropRight
import ClassCli.Proofs.Text.TidyLines

/-!
# Texts on one line

What is cut out of a line and trimmed, and what is joined out of such pieces, holds no line feed and has no
white space at its edges. It may be empty.

* **`Compact`** — a text on one line without white space at its edges.
* **`compact_trim`**, **`compact_joinWords`** — trimmed and joined texts.
* **`joinWords_concat`** — pieces that are joined one by one.
* **`OneLiner`** — a compact text that is not empty.
-/

namespace ClassCli.Text

/-! ## Trimming -/

/-- What is left of a text that holds anything but white space. -/
theorem edged_trim {s : List Char} (h : blank s = false) : Edged (trim s) := by
  have hne : trimStart s ≠ [] := by
    intro hstart
    rw [blank, List.all_eq_true.mpr (List.dropWhile_eq_nil_iff.mp hstart)] at h
    cases h
  have hkeep : trimStart (trimStart s) = trimStart s := List.dropWhile_idempotent _ s
  have hhead : ∃ c, (trimStart s).head? = some c ∧ isBlank c = false := head?_of_dropWhile_eq hne hkeep
  obtain ⟨c, hc, hvisible⟩ := hhead
  have hblank : blank (trimStart s) = false := by
    obtain ⟨rest, hrest⟩ := List.head?_eq_some_iff.mp hc
    rw [hrest, blank, List.all_cons, hvisible, Bool.false_and]
  have hback : trim s ≠ [] := by
    intro hend
    rw [← blank_trimEnd, ← trim, hend] at hblank
    cases hblank
  -- what is dropped at the end leaves the first character in its place
  obtain ⟨space, hspace, hs⟩ := exists_trimEnd_append (trimStart s)
  obtain ⟨first, others, hfirst⟩ := List.exists_cons_of_ne_nil hback
  have hlast : (trim s).reverse.dropWhile isBlank = (trim s).reverse := by
    rw [trim, trimEnd, List.reverse_reverse, List.dropWhile_idempotent]
  refine ⟨⟨first, by rw [hfirst]; rfl, ?_⟩, ?_⟩
  · rw [← trim, hfirst] at hs
    rw [hs] at hc
    cases hc
    exact hvisible
  · rw [← List.head?_reverse]
    exact head?_of_dropWhile_eq (List.reverse_ne_nil_iff.mpr hback) hlast

theorem trim_trim (s : List Char) : trim (trim s) = trim s := by
  cases hblank : blank s with
  | true => rw [trim_of_blank hblank, trim_of_blank rfl]
  | false => exact (edged_trim hblank).trim

/-- A text that starts with no white space still starts with the same when it is trimmed. -/
theorem head?_trim {c : Char} {s : List Char} (h : s.head? = some c) (hc : isBlank c = false) :
    (trim s).head? = some c := by
  have hvisible : ∀ space : List Char, blank space = true → space.head? ≠ some c := by
    intro space hspace hhead
    rw [List.all_eq_true.mp hspace c (List.mem_of_mem_head? hhead)] at hc
    cases hc
  obtain ⟨front, back, hfront, hback, hs⟩ := exists_append_trim s
  rw [hs] at h
  cases front with
  | nil =>
    cases htrim : trim s with
    | nil =>
      rw [htrim] at h
      exact absurd h (hvisible back hback)
    | cons d rest =>
      rw [htrim] at h
      exact h
  | cons d rest => exact absurd (show (d :: rest).head? = some c from h) (hvisible _ hfront)

/-- Likewise for the end. -/
theorem getLast?_trim {c : Char} {s : List Char} (h : s.getLast? = some c) (hc : isBlank c = false) :
    (trim s).getLast? = some c := by
  have hvisible : ∀ space : List Char, blank space = true → space.getLast? ≠ some c := by
    intro space hspace hlast
    rw [List.all_eq_true.mp hspace c (List.mem_of_mem_getLast? hlast)] at hc
    cases hc
  obtain ⟨front, back, hfront, hback, hs⟩ := exists_append_trim s
  rw [hs, List.getLast?_append, List.getLast?_append] at h
  cases hend : back.getLast? with
  | some d =>
    rw [hend] at h
    exact absurd (hend.trans h) (hvisible back hback)
  | none =>
    rw [hend, Option.none_or] at h
    cases hlast : (trim s).getLast? with
    | some d => simpa [hlast] using h
    | none =>
      rw [hlast, Option.none_or] at h
      exact absurd h (hvisible front hfront)

theorem mem_of_mem_trim {c : Char} {s : List Char} (h : c ∈ trim s) : c ∈ s := by
  obtain ⟨space, -, hs⟩ := exists_trimEnd_append (trimStart s)
  refine (List.dropWhile_suffix isBlank).subset ?_
  rw [← trimStart, hs]
  exact List.mem_append_left _ h

/-! ## Compact texts -/

/-- A text on one line without white space at its edges. -/
structure Compact (s : List Char) : Prop where
  unbroken : '\n' ∉ s
  trimmed : trim s = s

instance (s : List Char) : Decidable (Compact s) :=
  decidable_of_iff ('\n' ∉ s ∧ trim s = s) ⟨fun ⟨h, h'⟩ => ⟨h, h'⟩, fun h => ⟨h.unbroken, h.trimmed⟩⟩

theorem compact_nil : Compact [] := ⟨List.not_mem_nil, rfl⟩

theorem compact_of_edged {s : List Char} (h : Edged s) (hbreak : '\n' ∉ s) : Compact s :=
  ⟨hbreak, h.trim⟩

/-- **What is cut out of a line and trimmed.** -/
theorem compact_trim {s : List Char} (h : '\n' ∉ s) : Compact (trim s) :=
  ⟨fun hmem => h (mem_of_mem_trim hmem), trim_trim s⟩

/-! ## Joining -/

/-- The pieces that are left when the blank ones are dropped. -/
theorem edged_of_mem_words {pieces : List (List Char)} :
    ∀ word ∈ (pieces.map trim).filter (!·.isEmpty), Edged word := by
  intro word hword
  obtain ⟨hmem, hne⟩ := List.mem_filter.mp hword
  obtain ⟨piece, -, rfl⟩ := List.mem_map.mp hmem
  cases hblank : blank piece with
  | true =>
    rw [trim_of_blank hblank] at hne
    cases hne
  | false => exact edged_trim hblank

/-- Words that are joined have no white space at their edges. -/
theorem joinWords_eq_nil_or_edged (pieces : List (List Char)) :
    joinWords pieces = [] ∨ Edged (joinWords pieces) := by
  rw [joinWords]
  cases hwords : (pieces.map trim).filter (!·.isEmpty) with
  | nil => exact Or.inl rfl
  | cons word rest =>
    rw [← hwords]
    exact Or.inr (edged_join (by rw [hwords]; exact List.cons_ne_nil _ _) edged_of_mem_words)

/-- **What is joined out of pieces of lines.** -/
theorem compact_joinWords {pieces : List (List Char)} (h : ∀ piece ∈ pieces, '\n' ∉ piece) :
    Compact (joinWords pieces) := by
  have hbreak : '\n' ∉ joinWords pieces := by
    refine not_mem_join (by decide) ?_
    intro word hword hmem
    obtain ⟨piece, hpiece, rfl⟩ := List.mem_map.mp (List.mem_filter.mp hword).1
    exact h piece hpiece (mem_of_mem_trim hmem)
  rcases joinWords_eq_nil_or_edged pieces with hnil | hedged
  · rw [hnil]
    exact compact_nil
  · exact compact_of_edged hedged hbreak

theorem joinWords_of_blank {piece : List Char} (h : blank piece = true) (pieces : List (List Char)) :
    joinWords (pieces ++ [piece]) = joinWords pieces := by
  rw [joinWords, List.map_append, List.filter_append, List.map_singleton, trim_of_blank h]
  exact congrArg (join [' ']) (List.append_nil _)

/-- One more piece is joined to what has been joined. -/
theorem joinWords_append {piece : List Char} (h : blank piece = false) {pieces : List (List Char)}
    (hne : joinWords pieces ≠ []) :
    joinWords (pieces ++ [piece]) = joinWords pieces ++ (' ' :: trim piece) := by
  have hwords : (pieces.map trim).filter (!·.isEmpty) ≠ [] := by
    intro hnil
    rw [joinWords, hnil] at hne
    exact hne rfl
  have hkeep : ([piece].map trim).filter (!·.isEmpty) = [trim piece] := by
    have hpiece := (edged_trim h).ne_nil
    simp [hpiece]
  rw [joinWords, List.map_append, List.filter_append, hkeep, join_concat _ hwords]
  rfl

theorem joinWords_singleton (piece : List Char) : joinWords [piece] = trim piece := by
  cases htrim : trim piece with
  | nil => simp [joinWords, htrim, join]
  | cons c rest => simp [joinWords, htrim, join]

/-- **Joining one by one** is the same as joining at once. -/
theorem joinWords_concat (pieces : List (List Char)) (piece : List Char) :
    joinWords [joinWords pieces, piece] = joinWords (pieces ++ [piece]) := by
  have hpair : [joinWords pieces, piece] = [joinWords pieces] ++ [piece] := rfl
  cases hblank : blank piece with
  | true =>
    rw [hpair, joinWords_of_blank hblank, joinWords_of_blank hblank, joinWords_singleton]
    rcases joinWords_eq_nil_or_edged pieces with hnil | hedged
    · rw [hnil, trim_of_blank rfl]
    · exact hedged.trim
  | false =>
    rcases joinWords_eq_nil_or_edged pieces with hnil | hedged
    · -- nothing but blank pieces came before
      have hwords : (pieces.map trim).filter (!·.isEmpty) = [] := by
        by_contra hne
        exact (edged_join hne edged_of_mem_words).ne_nil hnil
      rw [hnil, joinWords, joinWords, List.map_append, List.filter_append, hwords]
      rfl
    · have hself : joinWords [joinWords pieces] = joinWords pieces := by
        rw [joinWords_singleton, hedged.trim]
      have hfront : joinWords [joinWords pieces] ≠ [] := by
        rw [hself]
        exact hedged.ne_nil
      rw [hpair, joinWords_append hblank hfront, joinWords_append hblank hedged.ne_nil, hself]

/-! ## Lines -/

theorem withoutReturn_subset (line : List Char) : withoutReturn line ⊆ line := by
  rw [withoutReturn]
  cases h : beforeEnd ['\r'] line with
  | none => exact List.Subset.refl line
  | some front =>
    rw [eq_append_of_beforeEnd h]
    exact List.subset_append_left front _

theorem exists_of_mem_endLines {pieces : List (List Char)} {line : List Char} (h : line ∈ endLines pieces) :
    ∃ piece ∈ pieces, line ⊆ piece := by
  induction pieces with
  | nil => cases h
  | cons piece rest ih =>
    cases rest with
    | nil =>
      rw [endLines] at h
      split at h
      · cases h
      · obtain rfl := List.mem_singleton.mp h
        exact ⟨line, List.mem_cons_self, List.Subset.refl line⟩
    | cons next others =>
      rw [endLines] at h
      · rcases List.mem_cons.mp h with rfl | h
        · exact ⟨piece, List.mem_cons_self, withoutReturn_subset piece⟩
        · obtain ⟨found, hfound, hsub⟩ := ih h
          exact ⟨found, List.mem_cons_of_mem _ hfound, hsub⟩
      · exact List.cons_ne_nil _ _

/-- **No line holds a line feed.** -/
theorem unbroken_of_mem_lines {s line : List Char} (h : line ∈ lines s) : '\n' ∉ line := by
  obtain ⟨piece, hpiece, hsub⟩ := exists_of_mem_endLines h
  exact fun hmem => not_mem_of_mem_splitAt hpiece (hsub hmem)

/-- The text around the first mark. -/
theorem eq_append_of_splitOnce {mark : Char} {s front back : List Char}
    (h : splitOnce mark s = some (front, back)) : s = front ++ mark :: back := by
  rw [splitOnce] at h
  split at h
  · cases h
  · rename_i c after hdrop
    cases h
    have hmark : c = mark := by
      have hfirst := List.head?_dropWhile_not (· != mark) s
      rw [hdrop] at hfirst
      simpa using hfirst
    rw [← hmark, ← hdrop, hmark]
    exact (List.takeWhile_append_dropWhile).symm

/-! ## Texts that say something -/

/-- A text on one line that is not empty and has no white space at its edges. -/
structure OneLiner (text : String) : Prop where
  nonempty : text ≠ ""
  unbroken : '\n' ∉ text.toList
  trimmed : trim text.toList = text.toList

instance (text : String) : Decidable (OneLiner text) :=
  decidable_of_iff (text ≠ "" ∧ '\n' ∉ text.toList ∧ trim text.toList = text.toList)
    ⟨fun ⟨h₁, h₂, h₃⟩ => ⟨h₁, h₂, h₃⟩, fun h => ⟨h.nonempty, h.unbroken, h.trimmed⟩⟩

theorem oneLiner_of_compact {text : String} (h : Compact text.toList) (hne : text ≠ "") : OneLiner text :=
  ⟨hne, h.unbroken, h.trimmed⟩

end ClassCli.Text
