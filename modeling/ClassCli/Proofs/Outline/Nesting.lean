import Mathlib.Data.List.DropRight
import ClassCli.Proofs.Outline.DocstringLineEnds

/-!
# Docstrings at any depth

Code that moves deeper takes its docstrings along: every line after the first one moves by the same number of
columns. Cleaning takes these columns away again, for they are part of the common margin, and it never reaches the
text of a line, for the margin is the least indentation there is.

* **`nested`** — a text whose lines after the first one are moved.
* **`cleanLines_nested`** — moving the lines makes no difference.
* **`said`**, **`said_dedent`** — the lines that hold something, trimmed, and that none of them is cut.
* **`cleandoc_nested`** — both for the cleaned text.
-/

namespace ClassCli.Outline

open Text

/-! ## Moving the lines after the first one -/

/-- The text with `k` spaces in front of every line after the first one. -/
def nested (k : Nat) (s : List Char) : List Char :=
  s.flatMap fun c => if c = '\n' then '\n' :: List.replicate k ' ' else [c]

theorem nested_append (k : Nat) (s t : List Char) : nested k (s ++ t) = nested k s ++ nested k t :=
  List.flatMap_append

theorem nested_cons (k : Nat) (c : Char) (rest : List Char) :
    nested k (c :: rest) = (if c = '\n' then '\n' :: List.replicate k ' ' else [c]) ++ nested k rest :=
  List.flatMap_cons

/-- Spaces belong to the line in front of which they stand. -/
theorem splitAt_indented (k : Nat) {s first : List Char} {later : List (List Char)}
    (h : splitAt '\n' s = first :: later) : splitAt '\n' (indented k s) = indented k first :: later := by
  induction k with
  | zero => exact h
  | succ k ih => exact splitAt_cons (by decide) ih

/-- The lines of the moved text. -/
theorem splitAt_nested (k : Nat) {s first : List Char} {later : List (List Char)}
    (h : splitAt '\n' s = first :: later) :
    splitAt '\n' (nested k s) = first :: later.map (indented k) := by
  induction s generalizing first later with
  | nil =>
    obtain ⟨rfl, rfl⟩ := List.cons.inj h
    rfl
  | cons c rest ih =>
    obtain ⟨piece, pieces, hrest⟩ := exists_splitAt '\n' rest
    rw [nested, List.flatMap_cons, ← nested]
    by_cases hc : c = '\n'
    · rw [hc, splitAt_mark, hrest] at h
      obtain ⟨rfl, rfl⟩ := List.cons.inj h
      rw [if_pos hc, List.cons_append, splitAt_mark, ← indented, splitAt_indented k (ih hrest), List.map_cons]
    · rw [splitAt_cons hc hrest] at h
      obtain ⟨rfl, rfl⟩ := List.cons.inj h
      rw [if_neg hc, List.singleton_append, splitAt_cons hc (ih hrest)]

theorem expandTabs_cons (c : Char) (rest : List Char) :
    expandTabs (c :: rest) = (if c = '\t' then List.replicate 8 ' ' else [c]) ++ expandTabs rest :=
  List.flatMap_cons

theorem expandTabs_indented (k : Nat) (s : List Char) : expandTabs (indented k s) = indented k (expandTabs s) := by
  induction k with
  | zero => rfl
  | succ k ih => exact (expandTabs_cons ' ' (indented k s)).trans (congrArg (' ' :: ·) ih)

/-- A tab counts as eight spaces wherever it stands, also on a line that was moved. -/
theorem expandTabs_nested (k : Nat) (s : List Char) : expandTabs (nested k s) = nested k (expandTabs s) := by
  induction s with
  | nil => rfl
  | cons c rest ih =>
    rw [nested_cons, expandTabs_cons, nested_append, ← ih]
    by_cases hbreak : c = '\n'
    · subst hbreak
      show '\n' :: expandTabs (indented k (nested k rest)) = _
      rw [expandTabs_indented]
      simp [nested, indented]
    · rw [if_neg hbreak, List.singleton_append, expandTabs_cons]
      by_cases htab : c = '\t'
      · subst htab
        rfl
      · rw [if_neg htab, nested_cons, if_neg hbreak]
        rfl

/-! ## The common margin -/

theorem lineMargin_indented (k : Nat) (line : List Char) :
    lineMargin (indented k line) = (lineMargin line).map (k + ·) := by
  rw [lineMargin, blank_indented_eq, lineMargin]
  split
  · rfl
  · rw [indented, List.takeWhile_append_of_pos isBlank_of_mem_replicate, List.length_append,
      List.length_replicate, Option.map_some]

/-- The margin grows by as much as the lines move. -/
theorem commonMargin_indented (k : Nat) (later : List (List Char)) :
    commonMargin (later.map (indented k)) = (commonMargin later).map (k + ·) := by
  have hlines : (later.map (indented k)).filterMap lineMargin = (later.filterMap lineMargin).map (k + ·) := by
    rw [List.filterMap_map, List.map_filterMap]
    exact congrArg (List.filterMap · later) (funext fun line => lineMargin_indented k line)
  rw [commonMargin, hlines, commonMargin]
  cases hmin : (later.filterMap lineMargin).min? with
  | none =>
    rw [List.min?_eq_none_iff.mp hmin]
    rfl
  | some margin =>
    obtain ⟨hmem, hleast⟩ := List.min?_eq_some_iff.mp hmin
    rw [Option.map_some, List.min?_eq_some_iff]
    refine ⟨List.mem_map_of_mem hmem, ?_⟩
    intro moved hmoved
    obtain ⟨depth, hdepth, rfl⟩ := List.mem_map.mp hmoved
    exact Nat.add_le_add_left (hleast depth hdepth) k

/-- There is a margin if a line holds anything. -/
theorem exists_commonMargin {later : List (List Char)} (h : ∃ line ∈ later, blank line = false) :
    ∃ margin, commonMargin later = some margin := by
  obtain ⟨line, hline, hheld⟩ := h
  have hdepth : (line.takeWhile isBlank).length ∈ later.filterMap lineMargin :=
    List.mem_filterMap.mpr ⟨line, hline, by rw [lineMargin, hheld, if_neg Bool.false_ne_true]⟩
  cases hmargin : commonMargin later with
  | none =>
    rw [commonMargin, List.min?_eq_none_iff] at hmargin
    rw [hmargin] at hdepth
    cases hdepth
  | some margin => exact ⟨margin, rfl⟩

/-- **What is taken away grows with what is added.** -/
theorem dedent_indented (k : Nat) (first : List Char) {later : List (List Char)}
    (h : ∃ line ∈ later, blank line = false) :
    dedent (first :: later.map (indented k)) = dedent (first :: later) := by
  obtain ⟨margin, hmargin⟩ := exists_commonMargin h
  have hdrop (line : List Char) : (indented k line).drop (k + margin) = line.drop margin := by
    rw [indented, List.drop_append, List.length_replicate, Nat.add_sub_cancel_left, List.drop_of_length_le,
      List.nil_append]
    rw [List.length_replicate]
    exact Nat.le_add_right k margin
  rw [dedent, commonMargin_indented, hmargin, Option.map_some, dedent, hmargin]
  dsimp only
  rw [List.map_map]
  exact congrArg _ (List.map_congr_left fun line _ => hdrop line)

theorem blank_expandTabs (line : List Char) : blank (expandTabs line) = blank line := by
  induction line with
  | nil => rfl
  | cons c rest ih =>
    rw [expandTabs_cons, blank, List.all_append, ← blank, ← blank, ih]
    by_cases htab : c = '\t'
    · subst htab
      rfl
    · rw [if_neg htab]
      simp [blank]

/-- Tabs are replaced line by line. -/
theorem splitAt_expandTabs (s : List Char) : splitAt '\n' (expandTabs s) = (splitAt '\n' s).map expandTabs := by
  induction s with
  | nil => rfl
  | cons c rest ih =>
    obtain ⟨piece, pieces, hrest⟩ := exists_splitAt '\n' rest
    rw [hrest, List.map_cons] at ih
    rw [expandTabs_cons]
    by_cases hbreak : c = '\n'
    · subst hbreak
      rw [if_neg (by decide), List.singleton_append, splitAt_mark, splitAt_mark, hrest, ih]
      rfl
    · rw [splitAt_cons hbreak hrest, List.map_cons, expandTabs_cons]
      by_cases htab : c = '\t'
      · rw [if_pos htab]
        exact splitAt_indented 8 ih
      · rw [if_neg htab]
        exact splitAt_cons hbreak ih

/-- **Moved lines** are cleaned like those that were not moved. -/
theorem cleanLines_nested (k : Nat) {s : List Char} (h : ∃ line ∈ (splitAt '\n' s).tail, blank line = false) :
    cleanLines (nested k s) = cleanLines s := by
  obtain ⟨first, later, hs⟩ := exists_splitAt '\n' (expandTabs s)
  have hheld : ∃ line ∈ later, blank line = false := by
    obtain ⟨line, hline, hblank⟩ := h
    refine ⟨expandTabs line, ?_, (blank_expandTabs line).trans hblank⟩
    have hmem : expandTabs line ∈ (splitAt '\n' (expandTabs s)).tail := by
      rw [splitAt_expandTabs, ← List.map_tail]
      exact List.mem_map_of_mem hline
    rwa [hs] at hmem
  rw [cleanLines, expandTabs_nested, splitAt_nested k hs, dedent_indented k first hheld, cleanLines, hs]

/-! ## What a text says -/

/-- The lines that hold something, trimmed. -/
def said (lines : List (List Char)) : List (List Char) := (lines.map trim).filter (!·.isEmpty)

theorem tidied_said : Tidied said where
  ends lines := by
    have htrim : trim ∘ trimEnd = trim := funext trim_trimEnd
    rw [said, List.map_map, htrim, said]
  before lines := rfl
  after lines := by
    rw [said, List.map_append, List.filter_append]
    exact List.append_nil _

theorem said_append (front back : List (List Char)) : said (front ++ back) = said front ++ said back := by
  simp only [said, List.map_append, List.filter_append]

theorem said_of_blank {line : List Char} (h : blank line = true) : said [line] = [] := by
  simp [said, trim_of_blank h]

theorem said_of_trim {line line' : List Char} (h : trim line = trim line') : said [line] = said [line'] := by
  simp only [said, List.map_singleton, h]

theorem trim_trimStart (line : List Char) : trim (trimStart line) = trim line := by
  have hstart : trimStart (trimStart line) = trimStart line := List.dropWhile_idempotent isBlank line
  rw [trim, hstart, trim]

/-- No text is lost with the first characters of a line, if they are white space. -/
theorem trim_drop {line : List Char} {margin : Nat} (h : margin ≤ (line.takeWhile isBlank).length) :
    trim (line.drop margin) = trim line := by
  have htake : line.take margin <+: line.takeWhile isBlank :=
    List.prefix_of_prefix_length_le (List.take_prefix _ _) (List.takeWhile_prefix _)
      (Nat.le_trans (List.length_take_le _ _) h)
  have hspace : ∀ c ∈ line.take margin, isBlank c = true :=
    fun c hc => List.all_eq_true.mp List.all_takeWhile c (htake.subset hc)
  have hline : trimStart (line.take margin ++ line.drop margin) = trimStart (line.drop margin) :=
    List.dropWhile_append_of_pos hspace
  rw [List.take_append_drop] at hline
  rw [trim, ← hline, trim]

/-- What a line says is kept if the margin is no deeper than the line. A blank line says nothing. -/
theorem said_drop {line : List Char} {margin : Nat} (h : ∀ depth ∈ lineMargin line, margin ≤ depth) :
    said [line.drop margin] = said [line] := by
  cases hblank : blank line with
  | true =>
    have hdrop : blank (line.drop margin) = true :=
      List.all_eq_true.mpr fun c hc => List.all_eq_true.mp hblank c (List.mem_of_mem_drop hc)
    rw [said_of_blank hdrop, said_of_blank hblank]
  | false =>
    rw [lineMargin, hblank, if_neg Bool.false_ne_true] at h
    exact said_of_trim (trim_drop (h _ rfl))

theorem said_map_drop {margin : Nat} {later : List (List Char)}
    (h : ∀ line ∈ later, ∀ depth ∈ lineMargin line, margin ≤ depth) :
    said (later.map (·.drop margin)) = said later := by
  induction later with
  | nil => rfl
  | cons line rest ih =>
    rw [List.forall_mem_cons] at h
    rw [List.map_cons, ← List.singleton_append, said_append, said_drop h.1, ih h.2, ← said_append,
      List.singleton_append]

/-- **The margin is white space on every line**: what the lines say is kept. -/
theorem said_dedent (lines : List (List Char)) : said (dedent lines) = said lines := by
  cases lines with
  | nil => rfl
  | cons first later =>
    have hfirst (others : List (List Char)) : said (trimStart first :: others) = said [first] ++ said others := by
      rw [← List.singleton_append, said_append, said_of_trim (trim_trimStart first)]
    rw [dedent, ← List.singleton_append (x := first), said_append]
    cases hmargin : commonMargin later with
    | none => exact hfirst later
    | some margin =>
      have hleast : ∀ line ∈ later, ∀ depth ∈ lineMargin line, margin ≤ depth := fun line hline depth hdepth =>
        (List.min?_eq_some_iff.mp hmargin).2 depth (List.mem_filterMap.mpr ⟨line, hline, hdepth⟩)
      exact (hfirst _).trans (congrArg _ (said_map_drop hleast))

theorem said_lines (s : List Char) : said (lines s) = said (splitAt '\n' s) :=
  tidied_said.eq_of_tidyLines (tidyLines_endLines (splitAt '\n' s))

/-- **Cleaning loses no text.** -/
theorem said_cleandoc (doc : String) : said (lines (cleandoc doc).toList) = said (lines (expandTabs doc.toList)) := by
  have htidy := tidyLines_lines_cleandoc doc
  rw [tidied_said.eq_of_tidyLines htidy, said_dedent, said_lines]

/-! ## Cleaned texts -/

/-- **Docstrings do not depend on the depth of the code around them, and lose no text**: a text with a line that
holds something after the first one is cleaned alike wherever these lines stand, and what any text says, with
eight spaces for a tab, is what is left of it. -/
theorem cleandoc_nested (doc : String) :
    ((∃ line ∈ (splitAt '\n' doc.toList).tail, blank line = false) →
        ∀ k, cleandoc (String.ofList (nested k doc.toList)) = cleandoc doc) ∧
      said (lines (cleandoc doc).toList) = said (lines (expandTabs doc.toList)) := by
  refine ⟨fun h k => ?_, said_cleandoc doc⟩
  rw [cleandoc, String.toList_ofList, cleanLines_nested k h, cleandoc]

/-- A docstring in a class, with a blank line, a deeper one, and a tab. -/
def sizedDoc : String := "Cut it.\n\n    Args:\n        size: How\tlong.\n    "

theorem cleandoc_nested_sizedDoc :
    (∃ line ∈ (splitAt '\n' sizedDoc.toList).tail, blank line = false) ∧
      cleandoc (String.ofList (nested 4 sizedDoc.toList)) = "Cut it.\n\nArgs:\n    size: How        long." ∧
      said (lines (cleandoc sizedDoc).toList) =
        ["Cut it.".toList, "Args:".toList, "size: How        long.".toList] := by
  have hheld : ∃ line ∈ (splitAt '\n' sizedDoc.toList).tail, blank line = false := by decide +kernel
  obtain ⟨hdepth, hsaid⟩ := cleandoc_nested sizedDoc
  refine ⟨hheld, (hdepth hheld 4).trans ?_, hsaid.trans ?_⟩
  · decide +kernel
  · decide +kernel

end ClassCli.Outline
